import AvroRegistry.Storage.Database

/-!
# The store of compatibility modes

There is one mode for all scopes and there may be one for each scope, which overrides it. A scope
without an override follows the global mode whenever it is looked up.

In the file, a scope's mode stands under the written scope and the global mode under a key that is
no written scope. `Config.recover` reads a file back over the default that the store is opened
with.
-/

namespace AvroRegistry

/-- An argument given as what it is, or as a value that should name it. -/
inductive Argument (α : Type) where
  | typed (a : α)
  | json (v : Json)

/-- The mode that an argument names. -/
def parseMode : Argument Compatibility.Mode → Except Failure Compatibility.Mode
  | .typed mode => .ok mode
  | .json v =>
    match Compatibility.Mode.ofJson? v with
    | some mode => .ok mode
    | none => .error (.fault (.invalidMode v))

/-- The global mode and the modes of scopes that have their own. -/
structure Config where
  global : Compatibility.Mode := .backward
  overrides : List (Scope × Compatibility.Mode) := []
  deriving DecidableEq

/-- The key of the global mode in a file. -/
def globalKey : String := "__GLOBAL__"

namespace Config

/-! ## Looking up -/

/-- The mode of a scope's own, if it has one. -/
def override? (c : Config) (scope : Scope) : Option Compatibility.Mode :=
  (c.overrides.find? fun o => o.1 == scope).map (·.2)

/-- The mode in effect for a scope. -/
def effective (c : Config) (scope : Scope) : Compatibility.Mode :=
  (c.override? scope).getD c.global

/-! ## Changing -/

/-- The modes with that of a scope removed. -/
def without (c : Config) (scope : Scope) : Config :=
  { c with overrides := c.overrides.filter fun o => o.1 != scope }

/-- The modes with that of a scope set. -/
def withOverride (c : Config) (scope : Scope) (mode : Compatibility.Mode) : Config :=
  { c with overrides := (c.without scope).overrides ++ [(scope, mode)] }

/-- The result of a computation that can fail, as a step. -/
def settle {α : Type} : Except Failure α → Step (Backed Config) α
  | .ok a => pure a
  | .error f => throw f

/-- Sets the global mode. -/
def setGlobal (argument : Argument Compatibility.Mode) :
    Step (Backed Config) Compatibility.Mode := do
  let mode ← settle (parseMode argument)
  let c ← Backed.inMemory
  Backed.persist (Storage.upsertConfig (.str globalKey) (.str mode.name))
  Backed.remember { c with global := mode }
  return mode

/-- Sets the mode of a scope. -/
def setOverride (scope : Scope) (argument : Argument Compatibility.Mode) :
    Step (Backed Config) Compatibility.Mode := do
  let mode ← settle (parseMode argument)
  let c ← Backed.inMemory
  Backed.persist (Storage.upsertConfig (.str scope.render) (.str mode.name))
  Backed.remember (c.withOverride scope mode)
  return mode

/-- Removes the mode of a scope; where there is none, the file is not touched. -/
def clearOverride (scope : Scope) : Step (Backed Config) Unit := do
  let c ← Backed.inMemory
  if (c.override? scope).isSome then
    Backed.persist (Storage.deleteConfig (.str scope.render))
    Backed.remember (c.without scope)

/-! ## Recovery -/

/-- The scope that a key of the file is the writing of. -/
def scopeOfKey : Option String → Except Failure Scope
  | some key =>
    match Scope.parse key with
    | .ok scope => .ok scope
    | .error e => .error (.breakdown e.breakdown)
  | none => .error (.breakdown .noAttribute)

/-- The modes of rows read back, over those read before. -/
def recoverFrom (c : Config) : List ConfigRow → Except Failure Config
  | [] => .ok c
  | row :: rest =>
    match parseMode (.json (.str row.mode)) with
    | .error f => .error f
    | .ok mode =>
      if row.key = some globalKey then recoverFrom { c with global := mode } rest
      else
        match scopeOfKey row.key with
        | .error f => .error f
        | .ok scope => recoverFrom (c.withOverride scope mode) rest

/-- The modes that a file holds, over a default for the global one. -/
def recover (default : Compatibility.Mode) : Step Storage Config := do
  Storage.prepare
  match recoverFrom { global := default } (← Storage.loadConfig) with
  | .ok c => return c
  | .error f => throw f

end Config

end AvroRegistry
