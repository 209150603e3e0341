import AdaptiveScript.Machine.State

/-! # Policies

  A policy says what locals and operator nodes do; everything else about a
  machine is common to all policies. The adaptive policy is the language's
  own: slots that widen and operator nodes that specialize.
-/

namespace AdaptiveScript

namespace Machine

/-- The treatment of locals and of operator nodes. Reading and assigning
yield nothing when the slot does not exist. -/
structure Policy where
  /-- The value of a local. -/
  read : FunctionState → Frame → Nat → Option Value
  /-- Gives a local a value. -/
  assign : FunctionState → Frame → Nat → Value → Option (FunctionState × Frame)
  /-- Applies the operator of a node. -/
  apply : FunctionState → ClassNames → Operator → Nat → Value → Value → EvalResult × FunctionState

namespace Policy

/-- The policy of the language. A slot that does not exist reads as nil, and
an assignment to it is ignored. -/
def adaptive : Policy where
  read fs frame slot := some (fs.slots.read frame slot)
  assign fs frame slot v :=
    let (slots, frame) := fs.slots.assign frame slot v
    some ({ fs with slots }, frame)
  apply fs names op index left right :=
    let (result, site) := op.evaluate names left right (fs.site index)
    (result, fs.setSite index site)

end Policy

end Machine

end AdaptiveScript
