import AdaptiveScript.Error

/-! # The Call Stack

  The live calls of a run, innermost first, with an optional limit on their
  number. A frame records where it was called from, inside its caller; a
  backtrace therefore pairs each frame with the call site of the frame that
  it called, and the innermost frame with the place where execution is now.

  The stack keeps count of its frames, so that a call costs the same at any
  depth.
-/

namespace AdaptiveScript

/-- One live call. -/
structure CallFrame where
  function : String
  /-- Name of the source the function stands in. -/
  source : String
  /-- Where the call stands inside the caller; none for an outermost call. -/
  callSite : Option Location
  deriving DecidableEq, Repr, Inhabited

/-- The live calls, innermost first. -/
structure CallStack where
  frames : List CallFrame
  /-- Greatest number of live calls, if there is one. -/
  maxDepth : Option Nat
  /-- Number of live calls. -/
  depth : Nat
  depth_eq : depth = frames.length
  deriving DecidableEq, Repr

namespace CallStack

/-- The stack of the given calls. -/
def ofFrames (frames : List CallFrame) (maxDepth : Option Nat) : CallStack :=
  { frames, maxDepth, depth := frames.length, depth_eq := rfl }

instance : Inhabited CallStack := ⟨ofFrames [] none⟩

/-- The path of the given frames, the innermost of them executing at `here`. -/
def path (here : Option Location) : List CallFrame → Backtrace
  | [] => []
  | f :: outer => ⟨f.function, f.source, here⟩ :: path f.callSite outer

/-- The call path of the stack, seen from a location in its innermost frame. -/
def capture (s : CallStack) (here : Option Location) : Backtrace := path here s.frames

/-- Gives an error the call path, unless it has one or there is none. -/
def attach (s : CallStack) (e : EvalError) (here : Option Location) : EvalError :=
  if s.frames.isEmpty || e.backtrace.isSome then e
  else { e with backtrace := some (s.capture here) }

/-- Whether the limit refuses another call. -/
def isFull (s : CallStack) : Bool :=
  match s.maxDepth with
  | none => false
  | some max => max ≤ s.depth

/-- The error of a call that the limit refuses. -/
def overflow (s : CallStack) : EvalError := s.attach (.stackOverflow (s.maxDepth.getD 0)) none

/-- The stack with one more call, or the error of exceeding the limit. -/
def push (s : CallStack) (f : CallFrame) : Except EvalError CallStack :=
  if s.isFull then .error s.overflow
  else
    .ok { s with
      frames := f :: s.frames
      depth := s.depth + 1
      depth_eq := by rw [s.depth_eq, List.length_cons] }

/-- The stack without its innermost call. -/
def pop (s : CallStack) : CallStack :=
  { s with
    frames := s.frames.tail
    depth := s.depth - 1
    depth_eq := by rw [s.depth_eq, List.length_tail] }

end CallStack

end AdaptiveScript
