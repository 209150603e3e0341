import AdaptiveScript.Machine.Eval

/-! # Sessions

  A linked program is used by running its top-level body and by calling its
  functions from outside, any number of times; the heap and the adaptive
  state live on from one request to the next.
-/

namespace AdaptiveScript

namespace Machine

/-- What can be asked of a linked program. -/
inductive Request where
  /-- Run the top-level body. -/
  | run
  /-- Call a function by name. -/
  | call (name : String) (args : List Value)

/-- The fuel for a request: as much as a limited stack has free depth, and
the given amount for an unlimited one. -/
def State.budget (s : State) (fuel : Nat) : Nat :=
  match s.stack.maxDepth with
  | some max => max - s.stack.depth
  | none => fuel

/-- Runs the top-level body. -/
def runMain (p : Policy) (program : LinkedProgram) (fuel : Nat) : Run Value :=
  enter p program fuel .main program.main [] none

/-- Calls a function from outside. -/
def callIndex (p : Policy) (program : LinkedProgram) (fuel : Nat) (index : Nat)
    (args : List Value) : Run Value :=
  callUser program (enter p program fuel) index args none

/-- Answers a request; there is no answer to a call of a function that the
program does not define. -/
def answer (p : Policy) (program : LinkedProgram) (fuel : Nat) (s : State) :
    Request → Option (Outcome Value × State)
  | .run => some (runMain p program (s.budget fuel) s)
  | .call name args =>
    (program.index? name).map fun index => callIndex p program (s.budget fuel) index args s

end Machine

end AdaptiveScript
