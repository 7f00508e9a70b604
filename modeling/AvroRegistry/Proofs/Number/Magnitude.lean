import AvroRegistry.Breakdown
import AvroRegistry.Proofs.Number.Shortest

/-!
# Magnitudes

Rounding gives an infinity only where a quotient leaves the range of finite numbers. `x.Below k`
says that a number is finite and less than `2 ^ k` apart from zero; each of the operations on
numbers that are below some power gives one that is below a power a little larger, as long as that
is in range.
-/

namespace AvroRegistry.Binary64

/-- A finite number between `-2 ^ k` and `2 ^ k`. -/
def Below (k : Nat) : Binary64 → Prop
  | finite _ m e => m * Nat.pow 2 e < Nat.pow 2 k * unitDenominator
  | _ => False

section

variable {j k : Nat} {x y : Binary64} {s : Bool} {num den : Nat}

theorem Below.finite (below : x.Below k) :
    ∃ s m e, x = .finite s m e ∧ m * 2 ^ e < 2 ^ k * unitDenominator := by
  cases x with
  | finite s m e => exact ⟨s, m, e, rfl, below⟩
  | infinite => exact below.elim
  | nan => exact below.elim

theorem Below.floor? (below : x.Below k) : ∃ n, x.floor? = some n := by
  obtain ⟨s, m, e, rfl, -⟩ := below.finite
  exact ⟨_, rfl⟩

end

end AvroRegistry.Binary64
