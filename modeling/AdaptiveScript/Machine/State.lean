import AdaptiveScript.CallStack
import AdaptiveScript.Linked.Basic
import AdaptiveScript.Mode
import AdaptiveScript.Output
import AdaptiveScript.Slot

/-! # The State of a Machine

  What changes while a linked program runs: the heap, the adaptive state of
  every function, the call stack and the sink, and what it takes from its
  surroundings. The machine also keeps a trace of its steps. Nothing is ever
  read from the trace; it is there so that a law can speak of every moment
  of a run.
-/

namespace AdaptiveScript

/-! ### The state of a function -/

/-- The adaptive state of a function, shared by its activations. -/
structure FunctionState where
  /-- One site for every operator node. -/
  sites : Array Site := #[]
  /-- The descriptors of the locals. -/
  slots : SlotTable := {}
  /-- One memory for every call of a builtin. -/
  memories : Array Builtin.Memory := #[]
  deriving Inhabited

namespace FunctionState

/-- The state of a function that has not run. -/
def initial (f : LinkedFunction) : FunctionState :=
  { sites := (f.operators.map fun _ => Site.fresh).toArray
    slots := .ofNames f.locals
    memories := (f.builtins.map fun _ => {}).toArray }

/-- The site of an operator node. -/
def site (fs : FunctionState) (index : Nat) : Site := fs.sites[index]?.getD .fresh

/-- Replaces the site of an operator node. -/
def setSite (fs : FunctionState) (index : Nat) (site : Site) : FunctionState :=
  { fs with sites := fs.sites.setIfInBounds index site }

/-- The memory of a call of a builtin. -/
def memory (fs : FunctionState) (index : Nat) : Builtin.Memory := fs.memories[index]?.getD {}

/-- Replaces the memory of a call of a builtin. -/
def setMemory (fs : FunctionState) (index : Nat) (m : Builtin.Memory) : FunctionState :=
  { fs with memories := fs.memories.setIfInBounds index m }

end FunctionState

/-! ### The trace -/

/-- One step that a machine has made. -/
inductive Event where
  /-- A call was entered; the live calls afterwards. -/
  | entered (stack : List CallFrame)
  /-- A call was left; the live calls afterwards. -/
  | left (stack : List CallFrame)
  /-- A slot of an activation was given a value. -/
  | assigned (function : FunctionKey) (slot : Nat) (value : Value)
  /-- An operator node was given its operands. -/
  | applied (function : FunctionKey) (site : Nat) (left right : Value)
  /-- A builtin was called; what it was given. -/
  | invoked (function : FunctionKey) (call : Nat) (builtin : String) (given : Builtin.Invocation)
  /-- A text was printed. -/
  | printed (text : String)

namespace Machine

/-! ### The surroundings -/

/-- What a run takes from outside and does not decide itself. -/
structure Surroundings where
  /-- The readings of the clock, in microseconds since the epoch. -/
  clock : Nat → Nat
  /-- Where the objects lie. -/
  address : Addresses
  /-- What hashes values. -/
  hasher : Hasher := Hash.multiplicative

/-- Surroundings in which the clock does not move, and all objects lie in one
place. -/
def Surroundings.still : Surroundings := { clock := fun _ => 0, address := fun _ => 0 }

/-! ### The state of a machine -/

/-- Everything that a run reads or changes. -/
structure State where
  heap : Heap
  /-- The state of every named function, by position. -/
  functions : Array FunctionState
  /-- The state of the top-level body. -/
  main : FunctionState
  stack : CallStack
  sink : Sink
  /-- What has reached standard output. -/
  stdout : String := ""
  surroundings : Surroundings
  /-- How many readings of the clock have been taken. -/
  readings : Nat := 0
  /-- The steps made so far, the latest first. -/
  trace : List Event := []

namespace State

/-- The state in which a program starts. -/
def initial (p : LinkedProgram) (mode : Mode) (heap : Heap) (surroundings : Surroundings) :
    State :=
  { heap
    functions := p.functions.map .initial
    main := .initial p.main
    stack := mode.stack
    sink := mode.sink
    surroundings }

/-- The state of a function. -/
def function (s : State) : FunctionKey → FunctionState
  | .user index => s.functions[index]?.getD {}
  | .main => s.main

/-- Replaces the state of a function. -/
def setFunction (s : State) (key : FunctionKey) (fs : FunctionState) : State :=
  match key with
  | .user index => { s with functions := s.functions.setIfInBounds index fs }
  | .main => { s with main := fs }

/-! Replacing the state of one function leaves everything else alone. -/

theorem function_setFunction_ne (s : State) {key other : FunctionKey} (fs : FunctionState)
    (h : other ≠ key) : (s.setFunction key fs).function other = s.function other := by
  cases key with
  | main =>
    cases other with
    | main => exact absurd rfl h
    | user i => rfl
  | user index =>
    cases other with
    | main => rfl
    | user i =>
      have hi : index ≠ i := fun e => h (by rw [e])
      simp only [setFunction, function, Array.getElem?_setIfInBounds_ne hi]

@[simp] theorem heap_setFunction (s : State) (key : FunctionKey) (fs : FunctionState) :
    (s.setFunction key fs).heap = s.heap := by cases key <;> rfl

@[simp] theorem stack_setFunction (s : State) (key : FunctionKey) (fs : FunctionState) :
    (s.setFunction key fs).stack = s.stack := by cases key <;> rfl

@[simp] theorem sink_setFunction (s : State) (key : FunctionKey) (fs : FunctionState) :
    (s.setFunction key fs).sink = s.sink := by cases key <;> rfl

/-- The next reading of the clock. -/
def now (s : State) : Nat := s.surroundings.clock s.readings

/-- Adds a step to the trace. -/
def record (s : State) (e : Event) : State := { s with trace := e :: s.trace }

/-! A step of the trace leaves everything else alone. -/

@[simp] theorem heap_record (s : State) (e : Event) : (s.record e).heap = s.heap := rfl

@[simp] theorem stack_record (s : State) (e : Event) : (s.record e).stack = s.stack := rfl

@[simp] theorem sink_record (s : State) (e : Event) : (s.record e).sink = s.sink := rfl

@[simp] theorem function_record (s : State) (e : Event) (key : FunctionKey) :
    (s.record e).function key = s.function key := by cases key <;> rfl

/-- Prints a text to the sink. -/
def print (s : State) (text : String) : State :=
  let (sink, written) := s.sink.print text
  { s with sink, stdout := s.stdout ++ written }.record (.printed text)

/-- Prints texts in order. -/
def printAll (s : State) (texts : List String) : State := texts.foldl print s

end State

end Machine

end AdaptiveScript
