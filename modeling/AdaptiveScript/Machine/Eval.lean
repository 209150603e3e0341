import AdaptiveScript.Machine.Policy
import AdaptiveScript.Machine.Run
import AdaptiveScript.Raise

/-! # Evaluation

  Expressions and statements are evaluated by recursion on the tree, given
  what a call of a function does. Entering a function is defined by
  recursion on the fuel, which bounds the number of calls nested in each
  other; the depth limit is looked at before the fuel, so a limited machine
  with as much fuel as it has free depth never runs out of it.
-/

namespace AdaptiveScript

namespace Machine

/-- What a call does: the position of the function, the arguments, and the
location of the call. -/
abbrev Caller := Nat → List Value → Option Location → Run Value

/-! ### Single steps -/

/-- Reads a local. -/
def readSlot (p : Policy) (key : FunctionKey) (frame : Frame) (slot : Nat) : Run Value := fun s =>
  match p.read (s.function key) frame slot with
  | some v => (.ok v, s)
  | none => (.fault (.unknownSlot slot), s)

/-- Gives a local a value; the frame afterwards. -/
def assignSlot (p : Policy) (key : FunctionKey) (frame : Frame) (slot : Nat) (v : Value) :
    Run Frame := fun s =>
  match p.assign (s.function key) frame slot v with
  | some (fs, frame) => (.ok frame, (s.setFunction key fs).record (.assigned key slot v))
  | none => (.fault (.unknownSlot slot), s)

/-- Applies the operator of a node. -/
def applyOperator (p : Policy) (key : FunctionKey) (op : Operator) (site : Nat)
    (left right : Value) : Run Value := fun s =>
  let (result, fs) := p.apply (s.function key) s.heap.className op site left right
  Run.ofResult none result ((s.setFunction key fs).record (.applied key site left right))

/-- What a call of a builtin is given in a state. -/
def invocation (key : FunctionKey) (inst : Nat) (args : List Value) (s : State) :
    Builtin.Invocation :=
  { args
    names := s.heap.className
    now := s.now
    address := s.surroundings.address
    hasher := s.surroundings.hasher
    memory := (s.function key).memory inst }

/-- Calls a builtin. -/
def invokeBuiltin (key : FunctionKey) (entry : Builtin.Entry) (inst : Nat) (args : List Value)
    (location : Location) : Run Value := fun s =>
  let given := invocation key inst args s
  let reply := entry.invoke given
  let s := { s with readings := s.readings + 1 }.setFunction key
    ((s.function key).setMemory inst reply.memory)
  let s := s.record (.invoked key inst entry.name given)
  Run.ofResult (some location) reply.result (s.printAll reply.printed)

/-- Makes an object. -/
def newObject (cls : ClassRef) (fields : List (String × Value)) : Run Value := fun s =>
  let (id, heap) := s.heap.alloc { cls, fields := .ofList fields }
  (.ok (.object id), { s with heap })

/-- The operation that error messages name for an access to a field. -/
def fieldOperation (name : String) : String := "." ++ name

/-- Reads a field of an object; an absent one is nil. -/
def readField (target : Value) (name : String) : Run Value :=
  match target with
  | .object id => fun s => (.ok ((s.heap.field? id name).getD .nil), s)
  | other => Run.unsupported (fieldOperation name) [other]

/-- Sets a field of an object. -/
def writeField (target : Value) (name : String) (v : Value) : Run Unit :=
  match target with
  | .object id => fun s => (.ok (), { s with heap := s.heap.setField id name v })
  | other => Run.unsupported (fieldOperation name) [other]

/-- Raises a value. -/
def raiseValue {α : Type} (v : Value) (location : Location) : Run α := fun s =>
  let (e, heap) := Raise.raise v location s.stack s.heap
  (.error e, { s with heap })

/-! ### Expressions -/

mutual

/-- Evaluates an expression in an activation of a function. -/
def eval (p : Policy) (call : Caller) (key : FunctionKey) (frame : Frame) : Node → Run Value
  | .const v => pure v
  | .list items => do return .list (← evalAll p call key frame items)
  | .var slot => readSlot p key frame slot
  | .binary op left right site => do
    let left ← eval p call key frame left
    let right ← eval p call key frame right
    applyOperator p key op site left right
  | .call target args location => do
    let args ← evalAll p call key frame args
    match target with
    | .user index => call index args (some location)
    | .builtin entry inst => invokeBuiltin key entry inst args location
  | .new cls fields => do
    let fields ← evalFields p call key frame fields
    newObject cls fields
  | .field object name => do
    let target ← eval p call key frame object
    readField target name

/-- Evaluates expressions from left to right. -/
def evalAll (p : Policy) (call : Caller) (key : FunctionKey) (frame : Frame) :
    List Node → Run (List Value)
  | [] => pure []
  | n :: ns => do
    let v ← eval p call key frame n
    let vs ← evalAll p call key frame ns
    return v :: vs

/-- Evaluates field values from left to right. -/
def evalFields (p : Policy) (call : Caller) (key : FunctionKey) (frame : Frame) :
    List (String × Node) → Run (List (String × Value))
  | [] => pure []
  | (name, n) :: ns => do
    let v ← eval p call key frame n
    let vs ← evalFields p call key frame ns
    return (name, v) :: vs

end

/-! ### Statements -/

/-- Where a statement leaves its activation. -/
inductive Flow where
  /-- Execution goes on with this frame. -/
  | next (frame : Frame)
  /-- The function returns. -/
  | returned (value : Value)

/-- Executes a statement. -/
def exec (p : Policy) (call : Caller) (key : FunctionKey) (frame : Frame) : StmtNode → Run Flow
  | .expr node => do
    let _ ← eval p call key frame node
    return .next frame
  | .assign slot value => do
    let v ← eval p call key frame value
    return .next (← assignSlot p key frame slot v)
  | .setField object name value => do
    let target ← eval p call key frame object
    let v ← eval p call key frame value
    writeField target name v
    return .next frame
  | .ret none => return .returned .nil
  | .ret (some value) => return .returned (← eval p call key frame value)
  | .raise value location => do
    let v ← eval p call key frame value
    raiseValue v location

/-- Executes statements until one returns; a body that ends has the value
nil. -/
def execAll (p : Policy) (call : Caller) (key : FunctionKey) (frame : Frame) :
    List StmtNode → Run Value
  | [] => return .nil
  | s :: ss => do
    match ← exec p call key frame s with
    | .returned v => return v
    | .next frame => execAll p call key frame ss

/-! ### Functions -/

/-- Binds arguments to parameters in order. -/
def bindParams (p : Policy) (key : FunctionKey) : List (Nat × Value) → Frame → Run Frame
  | [], frame => return frame
  | (slot, v) :: rest, frame => do
    let frame ← assignSlot p key frame slot v
    bindParams p key rest frame

/-- A frame with an empty cell for every slot that the function's table has. -/
def newFrame (key : FunctionKey) : Run Frame := fun s =>
  (.ok (s.function key).slots.newFrame, s)

/-- Binds the arguments in a new frame and executes the body. -/
def activate (p : Policy) (call : Caller) (key : FunctionKey) (f : LinkedFunction)
    (args : List Value) : Run Value := do
  let frame ← newFrame key
  let frame ← bindParams p key (f.params.zip args) frame
  execAll p call key frame f.body

/-- What entering a function does. -/
abbrev Enter := FunctionKey → LinkedFunction → List Value → Option Location → Run Value

/-- Calls a function of the program by its position, with the number of
arguments that it takes. -/
def callUser (program : LinkedProgram) (enter : Enter) : Caller := fun index args location =>
  match program.functions[index]? with
  | none => Run.faulty (.unknownFunction index)
  | some f =>
    if args.length = f.arity then enter (.user index) f args location
    else Run.fail (.arityMismatch f.name f.arity args.length) location

/-- Enters a function: the call is pushed, the body executed, and the call
left again. -/
def enter (p : Policy) (program : LinkedProgram) : (fuel : Nat) → Enter
  | 0 => fun _ f _ location =>
    Run.within ⟨f.name, f.source, location⟩ Run.exhausted
  | fuel + 1 => fun key f args location =>
    Run.within ⟨f.name, f.source, location⟩
      (activate p (callUser program (enter p program fuel)) key f args)

end Machine

end AdaptiveScript
