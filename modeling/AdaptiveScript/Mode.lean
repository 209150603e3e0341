import AdaptiveScript.CallStack
import AdaptiveScript.Output

/-! # Evaluation Modes

  A mode sets the policies of a run: the limit on the call depth, and where
  printed text goes unless a sink is given.
-/

namespace AdaptiveScript

/-- How a program is run. -/
inductive Mode where
  /-- As a script: without a depth limit. -/
  | interpret
  /-- As a test: with captured output and a fixed depth limit. -/
  | testRun
  /-- As a script with a depth limit. -/
  | bounded (maxDepth : Nat)
  deriving DecidableEq, Repr

namespace Mode

instance : Inhabited Mode := ⟨.interpret⟩

/-- Whether printed text goes to standard output by default. -/
def printsToStdout : Mode → Bool
  | .testRun => false
  | _ => true

/-- The depth limit of a test. -/
def testDepth : Nat := 500

/-- The depth limit. -/
def maxDepth : Mode → Option Nat
  | .interpret => none
  | .testRun => some testDepth
  | .bounded n => some n

/-- The sink that is used unless one is given. -/
def sink (m : Mode) : Sink := if m.printsToStdout then .stdout else .buffer ""

/-- The call stack that is used unless one is given. -/
def stack (m : Mode) : CallStack := .ofFrames [] m.maxDepth

/-- A mode shown for inspection. -/
def inspect : Mode → String
  | .interpret => "Interpret"
  | .testRun => "TestRun"
  | .bounded n => "Bounded \x7b max_depth: " ++ toString n ++ " \x7d"

end Mode

end AdaptiveScript
