import AdaptiveScript.Builtin.Core
import AdaptiveScript.LinkError

/-! # The Registry of Builtins

  Declarations from several sources, merged in order. No name is declared
  twice.
-/

namespace AdaptiveScript

/-- The declared builtins, in order of declaration. -/
structure Registry where
  entries : List Builtin.Entry := []

namespace Registry

/-- The registry without builtins. -/
def empty : Registry := {}

/-- The declaration of a name. -/
def get? (r : Registry) (name : String) : Option Builtin.Entry :=
  r.entries.find? (·.name == name)

/-- Whether a name is declared. -/
def contains (r : Registry) (name : String) : Bool := (r.get? name).isSome

/-- The declared names, in order. -/
def names (r : Registry) : List String := r.entries.map (·.name)

/-- The number of declarations. -/
def size (r : Registry) : Nat := r.entries.length

/-- The declaration of a name, or the error of not having one. -/
def resolve (r : Registry) (name : String) : Except LinkError Builtin.Entry :=
  match r.get? name with
  | some e => .ok e
  | none => .error (.unresolvedBuiltin name)

/-- Adds a declaration, unless its name is taken. -/
def insert (r : Registry) (e : Builtin.Entry) : Except LinkError Registry :=
  if r.contains e.name then .error (.duplicateBuiltin e.name)
  else .ok ⟨r.entries ++ [e]⟩

/-- Adds declarations one by one. -/
def insertAll (r : Registry) : List Builtin.Entry → Except LinkError Registry
  | [] => .ok r
  | e :: es => do (← r.insert e).insertAll es

/-- Merges sources of declarations in order. -/
def ofSources (sources : List (List Builtin.Entry)) : Except LinkError Registry :=
  empty.insertAll sources.flatten

/-- The registry of the core builtins. -/
def core : Registry := ⟨Builtin.core⟩

/-- The core declarations have different names, so merging them succeeds. -/
theorem ofSources_core : ofSources [Builtin.core] = .ok core := rfl

end Registry

end AdaptiveScript
