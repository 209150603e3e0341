/-! # Binary Operators

  The three operators whose nodes adapt to the operands they meet.
-/

namespace AdaptiveScript

/-- A binary operator of the language. -/
inductive Operator where
  | add
  | mul
  | div
  deriving DecidableEq, Repr, Inhabited

namespace Operator

/-- The operator as it is written in a program and in error messages. -/
def symbol : Operator → String
  | .add => "+"
  | .mul => "*"
  | .div => "/"

/-- The name of what the operator does. -/
def operationName : Operator → String
  | .add => "addition"
  | .mul => "multiplication"
  | .div => "division"

end Operator

end AdaptiveScript
