import AdaptiveScript.Machine.State

/-! # Runs

  A run takes a machine from one state to another and has an outcome. Four
  outcomes are told apart: a value, an error of the program, a fault and an
  exhausted fuel. Only the first two are answers; the laws of the library
  say when the others cannot occur.
-/

namespace AdaptiveScript

namespace Machine

/-! ### Outcomes -/

/-- A reference of a linked program that stands for nothing. -/
inductive Fault where
  | unknownFunction (index : Nat)
  | unknownSlot (slot : Nat)
  deriving DecidableEq, Repr

/-- How a run ends. -/
inductive Outcome (α : Type) where
  | ok (value : α)
  | error (e : EvalError)
  /-- The program refers to something that it does not have. -/
  | fault (f : Fault)
  /-- The fuel was used up before the run ended. -/
  | outOfFuel
  deriving Inhabited

/-- A computation on the state of a machine. -/
def Run (α : Type) : Type := State → Outcome α × State

namespace Run

variable {α β : Type}

/-! ### Sequencing -/

/-- Ends with a value. -/
@[inline] protected def pure (a : α) : Run α := fun s => (.ok a, s)

/-- Goes on with the value of a run, if it has one. -/
@[inline] protected def bind (x : Run α) (f : α → Run β) : Run β := fun s =>
  match x s with
  | (.ok a, s) => f a s
  | (.error e, s) => (.error e, s)
  | (.fault f, s) => (.fault f, s)
  | (.outOfFuel, s) => (.outOfFuel, s)

instance : Monad Run where
  pure := Run.pure
  bind := Run.bind

@[simp] theorem pure_apply (a : α) (s : State) : (pure a : Run α) s = (.ok a, s) := rfl

theorem bind_apply (x : Run α) (f : α → Run β) (s : State) :
    (x >>= f) s =
      match x s with
      | (.ok a, s) => f a s
      | (.error e, s) => (.error e, s)
      | (.fault f, s) => (.fault f, s)
      | (.outOfFuel, s) => (.outOfFuel, s) := rfl

/-! ### Endings -/

/-- Ends with an error that has the call path seen from `here`. -/
def fail (e : EvalError) (here : Option Location) : Run α := fun s =>
  (.error (s.stack.attach e here), s)

/-- Ends with the error for an operation on operands that it does not take. -/
def unsupported (operation : String) (operands : List Value) : Run α := fun s =>
  fail (.unsupportedOperands s.heap.className operation operands) none s

/-- Ends with a fault. -/
def faulty (f : Fault) : Run α := fun s => (.fault f, s)

/-- Ends for lack of fuel. -/
def exhausted : Run α := fun s => (.outOfFuel, s)

/-- Ends with a result, whose error gets the call path seen from `here`. -/
def ofResult (here : Option Location) : Except EvalError α → Run α
  | .ok a => pure a
  | .error e => fail e here

/-! ### Calls -/

/-- Does the body inside a call. The call is left however the body ends. -/
def within (f : CallFrame) (body : Run α) : Run α := fun s =>
  match s.stack.push f with
  | .error e => (.error e, s)
  | .ok stack =>
    let (outcome, s) := body (State.record { s with stack } (.entered stack.frames))
    let stack := s.stack.pop
    (outcome, State.record { s with stack } (.left stack.frames))

end Run

end Machine

end AdaptiveScript
