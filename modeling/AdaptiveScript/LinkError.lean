/-! # Link Errors

  What keeps a program from starting: a name or a number in it that stands
  for nothing, or for two things.
-/

namespace AdaptiveScript

/-- The numbers that nodes of a function carry. -/
inductive IdKind where
  | slot
  | site
  | call
  deriving DecidableEq, Repr

/-- The word for a kind of number. -/
def IdKind.word : IdKind → String
  | .slot => "slot"
  | .site => "site"
  | .call => "call"

/-- Why a program or a registry is refused. -/
inductive LinkError where
  | duplicateBuiltin (name : String)
  | unresolvedBuiltin (name : String)
  | duplicateFunction (name : String)
  /-- A number of the function that is out of range or used twice. -/
  | invalidId (function : String) (kind : IdKind) (id : Nat)
  deriving DecidableEq, Repr

/-- The text of a link error. -/
def LinkError.message : LinkError → String
  | .duplicateBuiltin name => "builtin `" ++ name ++ "` is declared more than once"
  | .unresolvedBuiltin name => "`" ++ name ++ "` is not a known function or builtin"
  | .duplicateFunction name => "function `" ++ name ++ "` is defined more than once"
  | .invalidId function kind id =>
    "invalid " ++ kind.word ++ " id " ++ toString id ++ " in `" ++ function ++ "`"

end AdaptiveScript
