/-!
# Words

The integers that fit into 64 bits, which is what a table column and a machine can hold.
-/

namespace AvroRegistry

/-- Whether an integer fits into 64 bits, one of which is for the sign. -/
def isWord (n : Int) : Bool := decide (-0x8000000000000000 ≤ n) && decide (n < 0x8000000000000000)

end AvroRegistry
