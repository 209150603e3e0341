import AdaptiveScript.Proofs.Linked.Renaming
import AdaptiveScript.Proofs.Machine.ObjectClasses

/-! # The Order of Definitions Does Not Matter

  Two orders of the functions of a program give two linked programs that are
  renamings of each other. Their machines do the same. The state of a
  function stands at another position, and an object may have another class of
  the same name; otherwise the states are equal (`State.Renamed`), and what one
  step makes of the one state, it makes of the other (`Commutes`).

  No step looks at a position but to find a function or its state, and none
  looks at a class but for its name. That is shown for each single step, and
  then for trees, bodies, calls and sessions.
-/

namespace AdaptiveScript

/-! ### Heaps with other classes -/

namespace Heap

/-- The heap in which the objects have other classes. -/
def reclass (cls : ClassRef → ClassRef) (h : Heap) : Heap :=
  ⟨h.objects.map fun o => { o with cls := cls o.cls }⟩

variable (cls : ClassRef → ClassRef) (h : Heap)

theorem get?_reclass (id : ObjectId) :
    (h.reclass cls).get? id = (h.get? id).map fun o => { o with cls := cls o.cls } := by
  rw [get?, get?, reclass, Array.getElem?_map]

@[simp] theorem field?_reclass (id : ObjectId) (key : String) :
    (h.reclass cls).field? id key = h.field? id key := by
  rw [field?, field?, get?_reclass]
  cases h.get? id <;> rfl

/-- The names of classes are the same if every class keeps its name. -/
theorem className_reclass {cls : ClassRef → ClassRef} (hname : ∀ c, (cls c).name = c.name) :
    (h.reclass cls).className = h.className := by
  funext id
  rw [className, className, get?_reclass]
  cases h.get? id with
  | none => rfl
  | some o => exact hname o.cls

theorem alloc_reclass (o : Object) :
    (h.reclass cls).alloc { o with cls := cls o.cls } = ((h.alloc o).1, (h.alloc o).2.reclass cls) := by
  simp only [alloc, reclass, Array.size_map, Array.map_push]

theorem setField_reclass (id : ObjectId) (key : String) (v : Value) :
    (h.reclass cls).setField id key v = (h.setField id key v).reclass cls := by
  have hobjects : ((h.reclass cls).setField id key v).objects =
      ((h.setField id key v).reclass cls).objects := by
    apply Array.ext_getElem?
    intro i
    have hleft := get?_setField (h.reclass cls) id key v i
    have hright := get?_reclass cls (h.setField id key v) i
    rw [get?_reclass] at hleft
    rw [get?_setField] at hright
    rw [get?] at hleft hright
    rw [hleft, hright]
    by_cases hi : i = id
    · rw [if_pos hi, if_pos hi]
      cases h.get? i <;> rfl
    · rw [if_neg hi, if_neg hi]
  exact congrArg Heap.mk hobjects

theorem defineOnce_reclass (id : ObjectId) (key : String) (v : Value) :
    (h.reclass cls).defineOnce id key v =
      ((h.defineOnce id key v).1, (h.defineOnce id key v).2.reclass cls) := by
  rw [defineOnce, defineOnce, field?_reclass, setField_reclass]
  cases h.field? id key <;> rfl

/-- A heap none of whose classes is replaced. -/
theorem reclass_eq_self {cls : ClassRef → ClassRef} (hcls : ∀ o ∈ h.objects, cls o.cls = o.cls) :
    h.reclass cls = h := by
  have hobjects : (h.objects.map fun o => { o with cls := cls o.cls }) = h.objects := by
    rw [Array.map_congr_left fun o ho => by rw [hcls o ho], Array.map_id']
  exact congrArg Heap.mk hobjects

end Heap

/-- What is raised does not depend on the identities of classes. -/
theorem raise_reclass {cls : ClassRef → ClassRef} (hname : ∀ c, (cls c).name = c.name) (v : Value)
    (location : Location) (stack : CallStack) (h : Heap) :
    Raise.raise v location stack (h.reclass cls) =
      ((Raise.raise v location stack h).1, (Raise.raise v location stack h).2.reclass cls) := by
  cases v with
  | object id =>
    have hmessage : Raise.objectMessage (h.reclass cls) id = Raise.objectMessage h id := by
      rw [Raise.objectMessage, Raise.objectMessage, Heap.field?_reclass,
        Heap.className_reclass h hname]
    simp only [Raise.raise, hmessage, Heap.className_reclass _ hname, Heap.defineOnce_reclass,
      Heap.field?_reclass]
  | _ => simp only [Raise.raise, Heap.className_reclass _ hname]

namespace Machine

variable {p : Policy} {ρ : Renaming} {α β : Type}

/-! ### States up to positions and classes -/

/-- The states of the functions stand at other positions, and the objects have
other classes. -/
structure State.Renamed (ρ : Renaming) (s s' : State) : Prop where
  heap : s'.heap = s.heap.reclass ρ.cls
  functions : ∀ i, s'.functions[ρ.index i]? = s.functions[i]?
  main : s'.main = s.main
  stack : s'.stack = s.stack
  sink : s'.sink = s.sink
  stdout : s'.stdout = s.stdout
  surroundings : s'.surroundings = s.surroundings
  readings : s'.readings = s.readings

namespace State.Renamed

variable {s s' : State}

theorem function (h : s.Renamed ρ s') (key : FunctionKey) :
    s'.function (key.rename ρ) = s.function key := by
  cases key with
  | main => exact h.main
  | user i => exact congrArg (·.getD {}) (h.functions i)

theorem className (h : s.Renamed ρ s') : s'.heap.className = s.heap.className := by
  rw [h.heap, Heap.className_reclass _ ρ.name_cls]

theorem setStack (h : s.Renamed ρ s') (stack : CallStack) :
    State.Renamed ρ { s with stack } { s' with stack } :=
  { h with stack := rfl }

theorem record (h : s.Renamed ρ s') (e e' : Event) : (s.record e).Renamed ρ (s'.record e') :=
  { h with }

theorem enter (h : s.Renamed ρ s') (stack : CallStack) : (s.enter stack).Renamed ρ (s'.enter stack) :=
  (h.setStack stack).record _ _

theorem leave (h : s.Renamed ρ s') : s.leave.Renamed ρ s'.leave := by
  unfold State.leave
  rw [h.stack]
  exact (h.setStack _).record _ _

theorem print (h : s.Renamed ρ s') (text : String) : (s.print text).Renamed ρ (s'.print text) := by
  unfold State.print
  rw [h.sink, h.stdout]
  apply State.Renamed.record
  exact { h with sink := rfl, stdout := rfl }

theorem printAll (h : s.Renamed ρ s') (texts : List String) :
    (s.printAll texts).Renamed ρ (s'.printAll texts) := by
  induction texts generalizing s s' with
  | nil => exact h
  | cons text texts ih => exact ih (h.print text)

theorem tick (h : s.Renamed ρ s') :
    State.Renamed ρ { s with readings := s.readings + 1 }
      { s' with readings := s'.readings + 1 } :=
  { h with readings := congrArg (· + 1) h.readings }

theorem setFunction (h : s.Renamed ρ s') (key : FunctionKey) (fs : FunctionState) :
    (s.setFunction key fs).Renamed ρ (s'.setFunction (key.rename ρ) fs) := by
  cases key with
  | main => exact { h with main := rfl }
  | user i =>
    refine { h with functions := fun j => ?_ }
    show (s'.functions.setIfInBounds (ρ.index i) fs)[ρ.index j]? =
      (s.functions.setIfInBounds i fs)[j]?
    by_cases hj : i = j
    · subst hj
      -- the two positions are in bounds together
      have hbounds : s'.functions.size ≤ ρ.index i ↔ s.functions.size ≤ i := by
        rw [← Array.getElem?_eq_none_iff, h.functions i, Array.getElem?_eq_none_iff]
      rw [Array.getElem?_setIfInBounds_self, Array.getElem?_setIfInBounds_self]
      by_cases hi : i < s.functions.size
      · rw [if_pos hi, if_pos (by omega)]
      · rw [if_neg hi, if_neg (by omega)]
    · rw [Array.getElem?_setIfInBounds_ne hj,
        Array.getElem?_setIfInBounds_ne fun heq => hj (ρ.injective heq)]
      exact h.functions j

end State.Renamed

/-! ### Runs that commute with a renaming -/

/-- On renamed states two runs have the same outcome, and end in renamed
states. -/
def Commutes (ρ : Renaming) (x x' : Run α) : Prop :=
  ∀ ⦃s s' : State⦄, s.Renamed ρ s' → (x' s').1 = (x s).1 ∧ (x s).2.Renamed ρ (x' s').2

namespace Commutes

theorem pure (a : α) : Commutes ρ (pure a : Run α) (pure a) :=
  fun _ _ h => ⟨rfl, h⟩

theorem bind {x x' : Run α} {k k' : α → Run β} (hx : Commutes ρ x x')
    (hk : ∀ a, Commutes ρ (k a) (k' a)) : Commutes ρ (x >>= k) (x' >>= k') := by
  intro s s' h
  obtain ⟨houtcome, hstate⟩ := hx h
  rw [Run.bind_apply, Run.bind_apply]
  rcases hrun : x s with ⟨o, t⟩
  rcases hrun' : x' s' with ⟨o', t'⟩
  rw [hrun, hrun'] at houtcome hstate
  dsimp only at houtcome hstate
  -- the second parts start only if the first ones have a value, and then with the same one
  subst houtcome
  cases o' with
  | ok a => exact hk a hstate
  | _ => exact ⟨rfl, hstate⟩

/-! Endings. -/

theorem fail (e : EvalError) (here : Option Location) :
    Commutes ρ (Run.fail e here : Run α) (Run.fail e here) := by
  intro s s' h
  refine ⟨?_, h⟩
  rw [Run.fail, Run.fail, h.stack]

theorem unsupported (operation : String) (operands : List Value) :
    Commutes ρ (Run.unsupported operation operands : Run α) (Run.unsupported operation operands) := by
  intro s s' h
  unfold Run.unsupported
  rw [h.className]
  exact fail _ none h

theorem faulty (f : Fault) : Commutes ρ (Run.faulty f : Run α) (Run.faulty f) :=
  fun _ _ h => ⟨rfl, h⟩

theorem exhausted : Commutes ρ (Run.exhausted : Run α) Run.exhausted :=
  fun _ _ h => ⟨rfl, h⟩

theorem ofResult (here : Option Location) (result : Except EvalError α) :
    Commutes ρ (Run.ofResult here result) (Run.ofResult here result) := by
  cases result with
  | ok a => exact pure a
  | error e => exact fail e here

/-! Single steps. -/

variable (key : FunctionKey) (frame : Frame)

theorem newFrame : Commutes ρ (newFrame key) (newFrame (key.rename ρ)) := by
  intro s s' h
  refine ⟨?_, h⟩
  simp only [Machine.newFrame, h.function]

theorem readSlot (slot : Nat) :
    Commutes ρ (readSlot p key frame slot) (readSlot p (key.rename ρ) frame slot) := by
  intro s s' h
  unfold Machine.readSlot
  rw [h.function]
  cases p.read (s.function key) frame slot with
  | none => exact ⟨rfl, h⟩
  | some v => exact ⟨rfl, h⟩

theorem assignSlot (slot : Nat) (v : Value) :
    Commutes ρ (assignSlot p key frame slot v) (assignSlot p (key.rename ρ) frame slot v) := by
  intro s s' h
  unfold Machine.assignSlot
  rw [h.function]
  cases p.assign (s.function key) frame slot v with
  | none => exact ⟨rfl, h⟩
  | some out => exact ⟨rfl, (h.setFunction key out.1).record _ _⟩

theorem applyOperator (op : Operator) (site : Nat) (v w : Value) :
    Commutes ρ (applyOperator p key op site v w) (applyOperator p (key.rename ρ) op site v w) := by
  intro s s' h
  rw [applyOperator_eq, applyOperator_eq, h.function, h.className]
  exact ofResult none _ ((h.setFunction key _).record _ _)

theorem invokeBuiltin (entry : Builtin.Entry) (inst : Nat) (vs : List Value) (location : Location) :
    Commutes ρ (invokeBuiltin key entry inst vs location)
      (invokeBuiltin (key.rename ρ) entry inst vs location) := by
  intro s s' h
  -- a builtin sees class names, the clock, addresses and its own memory, and these are the same
  have hreply : builtinReply (key.rename ρ) entry inst vs s' = builtinReply key entry inst vs s := by
    unfold builtinReply invocation State.now
    rw [h.function, h.className, h.surroundings, h.readings]
  rw [invokeBuiltin_eq, invokeBuiltin_eq, hreply]
  apply ofResult
  unfold afterReply
  rw [h.function]
  exact ((h.tick.setFunction key _).record _ _).printAll _

theorem newObject (cls : ClassRef) (fields : List (String × Value)) :
    Commutes ρ (newObject cls fields) (newObject (ρ.cls cls) fields) := by
  intro s s' h
  have halloc := Heap.alloc_reclass ρ.cls s.heap { cls, fields := .ofList fields }
  rw [← h.heap] at halloc
  have hid : s'.heap.objects.size = s.heap.objects.size := congrArg Prod.fst halloc
  exact ⟨congrArg (fun id => Outcome.ok (Value.object id)) hid,
    { h with heap := congrArg Prod.snd halloc }⟩

theorem readField (v : Value) (name : String) :
    Commutes ρ (readField v name) (readField v name) := by
  rcases readField_cases v name with ⟨id, hread⟩ | hfail
  · rw [hread]
    intro s s' h
    have hfield : s'.heap.field? id name = s.heap.field? id name := by
      rw [h.heap, Heap.field?_reclass]
    exact ⟨congrArg (fun v => Outcome.ok (v.getD Value.nil)) hfield, h⟩
  · rw [hfail]
    exact unsupported _ _

theorem writeField (v : Value) (name : String) (w : Value) :
    Commutes ρ (writeField v name w) (writeField v name w) := by
  rcases writeField_cases v name w with ⟨id, hwrite⟩ | hfail
  · rw [hwrite]
    intro s s' h
    have hheap : s'.heap.setField id name w = (s.heap.setField id name w).reclass ρ.cls := by
      rw [h.heap, Heap.setField_reclass]
    exact ⟨rfl, { h with heap := hheap }⟩
  · rw [hfail]
    exact unsupported _ _

theorem raiseValue (v : Value) (location : Location) :
    Commutes ρ (raiseValue v location : Run α) (raiseValue v location) := by
  intro s s' h
  have hraise : Raise.raise v location s'.stack s'.heap =
      ((Raise.raise v location s.stack s.heap).1,
        (Raise.raise v location s.stack s.heap).2.reclass ρ.cls) := by
    rw [h.heap, h.stack, raise_reclass ρ.name_cls]
  refine ⟨?_, { h with heap := congrArg Prod.snd hraise }⟩
  show Outcome.error (Raise.raise v location s'.stack s'.heap).1 = .error _
  rw [hraise]
  rfl

theorem within (f : CallFrame) {x x' : Run α} (hx : Commutes ρ x x') :
    Commutes ρ (Run.within f x) (Run.within f x') := by
  intro s s' h
  cases hpush : s.stack.push f with
  | error e =>
    have hpush' : s'.stack.push f = .error e := by rw [h.stack, hpush]
    rw [within_refused hpush, within_refused hpush']
    exact ⟨rfl, h⟩
  | ok stack =>
    have hpush' : s'.stack.push f = .ok stack := by rw [h.stack, hpush]
    rw [within_entered hpush, within_entered hpush']
    obtain ⟨houtcome, hstate⟩ := hx (h.enter stack)
    exact ⟨houtcome, hstate.leave⟩

end Commutes

/-! ### Expressions, statements and functions -/

/-- Calls commute with a renaming: a function is called at its other position. -/
def CallsCommute (ρ : Renaming) (call call' : Caller) : Prop :=
  ∀ index args location, Commutes ρ (call index args location) (call' (ρ.index index) args location)

variable {call call' : Caller}

mutual

theorem eval_commutes (hcall : CallsCommute ρ call call') (key : FunctionKey) (frame : Frame) :
    ∀ n : Node,
      Commutes ρ (eval p call key frame n) (eval p call' (key.rename ρ) frame (n.rename ρ))
  | .const v => by
    rw [Node.rename, eval, eval]
    exact .pure v
  | .list items => by
    rw [Node.rename, eval, eval]
    exact (evalAll_commutes hcall key frame items).bind fun vs => .pure _
  | .var slot => by
    rw [Node.rename, eval, eval]
    exact .readSlot key frame slot
  | .binary op left right site => by
    rw [Node.rename, eval, eval]
    refine (eval_commutes hcall key frame left).bind fun v => ?_
    refine (eval_commutes hcall key frame right).bind fun w => ?_
    exact .applyOperator key op site v w
  | .call target args location => by
    rw [Node.rename, eval, eval]
    refine (evalAll_commutes hcall key frame args).bind fun vs => ?_
    cases target with
    | user index => exact hcall index vs (some location)
    | builtin entry inst => exact .invokeBuiltin key entry inst vs location
  | .new cls fields => by
    rw [Node.rename, eval, eval]
    exact (evalFields_commutes hcall key frame fields).bind fun vs => .newObject cls vs
  | .field object name => by
    rw [Node.rename, eval, eval]
    exact (eval_commutes hcall key frame object).bind fun v => .readField v name

theorem evalAll_commutes (hcall : CallsCommute ρ call call') (key : FunctionKey) (frame : Frame) :
    ∀ ns : List Node, Commutes ρ (evalAll p call key frame ns)
      (evalAll p call' (key.rename ρ) frame (Node.renameAll ρ ns))
  | [] => by
    rw [Node.renameAll, evalAll, evalAll]
    exact .pure _
  | n :: ns => by
    rw [Node.renameAll, evalAll, evalAll]
    refine (eval_commutes hcall key frame n).bind fun v => ?_
    exact (evalAll_commutes hcall key frame ns).bind fun vs => .pure _

theorem evalFields_commutes (hcall : CallsCommute ρ call call') (key : FunctionKey)
    (frame : Frame) : ∀ ns : List (String × Node), Commutes ρ (evalFields p call key frame ns)
      (evalFields p call' (key.rename ρ) frame (Node.renameFields ρ ns))
  | [] => by
    rw [Node.renameFields, evalFields, evalFields]
    exact .pure _
  | (name, n) :: ns => by
    rw [Node.renameFields, evalFields, evalFields]
    refine (eval_commutes hcall key frame n).bind fun v => ?_
    exact (evalFields_commutes hcall key frame ns).bind fun vs => .pure _

end

section

variable (hcall : CallsCommute ρ call call') (key : FunctionKey)

include hcall

theorem exec_commutes (frame : Frame) (stmt : StmtNode) :
    Commutes ρ (exec p call key frame stmt)
      (exec p call' (key.rename ρ) frame (stmt.rename ρ)) := by
  have heval := eval_commutes (p := p) hcall key frame
  cases stmt with
  | expr node => exact (heval node).bind fun _ => .pure _
  | assign slot value =>
    refine (heval value).bind fun v => ?_
    exact (Commutes.assignSlot key frame slot v).bind fun frame' => .pure _
  | setField object name value =>
    refine (heval object).bind fun target => ?_
    refine (heval value).bind fun v => ?_
    exact (Commutes.writeField target name v).bind fun _ => .pure _
  | ret value =>
    cases value with
    | none => exact .pure _
    | some value => exact (heval value).bind fun v => .pure _
  | raise value location => exact (heval value).bind fun v => .raiseValue v location

theorem execAll_commutes (frame : Frame) (body : List StmtNode) :
    Commutes ρ (execAll p call key frame body)
      (execAll p call' (key.rename ρ) frame (body.map (·.rename ρ))) := by
  induction body generalizing frame with
  | nil => exact .pure _
  | cons stmt body ih =>
    rw [List.map_cons, execAll, execAll]
    refine (exec_commutes hcall key frame stmt).bind fun flow => ?_
    cases flow with
    | returned v => exact .pure v
    | next frame' => exact ih frame'

omit hcall in
theorem bindParams_commutes (params : List (Nat × Value)) (frame : Frame) :
    Commutes ρ (bindParams p key params frame) (bindParams p (key.rename ρ) params frame) := by
  induction params generalizing frame with
  | nil => exact .pure _
  | cons param params ih =>
    exact (Commutes.assignSlot key frame param.1 param.2).bind fun frame' => ih frame'

theorem activate_commutes (f : LinkedFunction) (args : List Value) :
    Commutes ρ (activate p call key f args)
      (activate p call' (key.rename ρ) (f.rename ρ) args) := by
  refine (Commutes.newFrame key).bind fun frame => ?_
  exact (bindParams_commutes key _ frame).bind fun frame => execAll_commutes hcall key frame f.body

end

/-! ### Calls -/

section

variable {first : Nat} {linked linked' : LinkedProgram} (hcarries : ρ.Carries first linked linked')

include hcarries

theorem callUser_commutes {enter enter' : Enter}
    (henter : ∀ key f args location,
      Commutes ρ (enter key f args location) (enter' (key.rename ρ) (f.rename ρ) args location)) :
    CallsCommute ρ (callUser linked enter) (callUser linked' enter') := by
  intro index args location
  unfold callUser
  cases hf : linked.functions[index]? with
  | none =>
    -- a position without a function stays what it is, so the faults name the same one
    obtain ⟨hnone, hindex⟩ := hcarries.outside index hf
    rw [hindex, hnone]
    exact .faulty _
  | some f =>
    have hf' : linked'.functions[ρ.index index]? = some (f.rename ρ) :=
      hcarries.functions (.user index) f hf
    rw [hf']
    show Commutes ρ (if args.length = f.arity then _ else _) (if args.length = f.arity then _ else _)
    by_cases harity : args.length = f.arity
    · rw [if_pos harity, if_pos harity]
      exact henter (.user index) f args location
    · rw [if_neg harity, if_neg harity]
      exact .fail _ _

/-- Entering a function commutes with the renaming, by induction on the fuel. -/
theorem enter_commutes (fuel : Nat) (key : FunctionKey) (f : LinkedFunction) (args : List Value)
    (location : Option Location) :
    Commutes ρ (enter p linked fuel key f args location)
      (enter p linked' fuel (key.rename ρ) (f.rename ρ) args location) := by
  induction fuel generalizing key f args location with
  | zero => exact .within _ .exhausted
  | succ fuel ih =>
    have hcall := callUser_commutes hcarries ih
    exact .within _ (activate_commutes hcall key f args)

/-! ### Sessions -/

variable {s s' : State}

theorem respond_renamed (hs : s.Renamed ρ s') (request : Request × Nat) :
    (respond p linked' s' request).1 = (respond p linked s request).1 ∧
      (respond p linked s request).2.Renamed ρ (respond p linked' s' request).2 := by
  obtain ⟨request, fuel⟩ := request
  have hbudget : s'.budget fuel = s.budget fuel := by rw [State.budget, State.budget, hs.stack]
  cases request with
  | run =>
    have hrun := enter_commutes (p := p) hcarries (s.budget fuel) .main linked.main [] none hs
    rw [respond_run, respond_run, runMain, runMain, hbudget, hcarries.main]
    exact ⟨congrArg some hrun.1, hrun.2⟩
  | call name args =>
    have hnamed := hcarries.named name
    cases hindex : linked.index? name with
    | none =>
      rw [hindex] at hnamed
      rw [respond_unknown hindex, respond_unknown hnamed]
      exact ⟨rfl, hs⟩
    | some index =>
      rw [hindex] at hnamed
      have hrun := callUser_commutes hcarries (enter_commutes (p := p) hcarries (s.budget fuel))
        index args none hs
      rw [respond_call hindex, respond_call hnamed, callIndex, callIndex, hbudget]
      exact ⟨congrArg some hrun.1, hrun.2⟩

/-- What can be seen of an answer, with other classes. -/
def Observation.reclass (cls : ClassRef → ClassRef) (o : Observation) : Observation :=
  { o with heap := o.heap.reclass cls }

omit hcarries in
theorem State.Renamed.observation (hs : s.Renamed ρ s') (outcome : Option (Outcome Value)) :
    Observation.of outcome s' = (Observation.of outcome s).reclass ρ.cls := by
  rw [Observation.of, Observation.of, Observation.reclass, hs.heap, hs.sink, hs.stdout]

theorem session_renamed (hs : s.Renamed ρ s') (requests : List (Request × Nat)) :
    (session p linked' s' requests).1 =
        (session p linked s requests).1.map (·.reclass ρ.cls) ∧
      (session p linked s requests).2.Renamed ρ (session p linked' s' requests).2 := by
  induction requests generalizing s s' with
  | nil => exact ⟨rfl, hs⟩
  | cons request requests ih =>
    obtain ⟨houtcome, hnext⟩ := respond_renamed hcarries hs request
    obtain ⟨hseen, hlast⟩ := ih hnext
    rw [session_cons, session_cons]
    refine ⟨?_, hlast⟩
    rw [List.map_cons, hseen, houtcome, hnext.observation]

/-- Programs start in renamed states, if the objects that are there already keep
their classes. -/
theorem State.Renamed.initial (mode : Mode) {heap : Heap}
    (hheap : heap.HasClasses (·.id < first)) (surroundings : Surroundings) :
    State.Renamed ρ (.initial linked mode heap surroundings)
      (.initial linked' mode heap surroundings) where
  heap := (Heap.reclass_eq_self heap fun o ho => hcarries.classes.old o.cls (hheap o ho)).symm
  functions i := by
    show (linked'.functions.map FunctionState.initial)[ρ.index i]? =
      (linked.functions.map FunctionState.initial)[i]?
    rw [Array.getElem?_map, Array.getElem?_map]
    cases hf : linked.functions[i]? with
    | none =>
      obtain ⟨hnone, hindex⟩ := hcarries.outside i hf
      rw [hindex, hnone]
    | some f =>
      have hf' : linked'.functions[ρ.index i]? = some (f.rename ρ) :=
        hcarries.functions (.user i) f hf
      rw [hf']
      exact congrArg some (FunctionState.initial_rename ρ f)
  main := by
    show FunctionState.initial linked'.main = .initial linked.main
    rw [hcarries.main, FunctionState.initial_rename]
  stack := rfl
  sink := rfl
  stdout := rfl
  surroundings := rfl
  readings := rfl

end

/-! ### The law -/

/-- Two sessions with two linked programs show the same, up to the classes that
take each other's place. -/
structure SameSession (first : Nat) (linked linked' : LinkedProgram)
    (cls : ClassRef → ClassRef) (out out' : List Observation × State) : Prop where
  /-- Every outcome, every text and every heap is the same. -/
  seen : out'.1 = out.1.map (·.reclass cls)
  /-- No object has any other class. -/
  known : ∀ o ∈ out.1, o.heap.HasClasses (linked.Knows first)
  /-- A function of the same name is left in the same state. -/
  functions : ∀ {name index}, linked.index? name = some index →
    ∃ index', linked'.index? name = some index' ∧
      out'.2.function (.user index') = out.2.function (.user index)
  main : out'.2.function .main = out.2.function .main

/-- The order in which the functions of a program are defined does not matter. In
any other order the program links as well, and every session shows the same; the
classes of the one linked program take the place of those of the other one, one
to one and name by name. The two sessions have the same surroundings: the
readings of the clock, the addresses of objects and the hasher. The builtins of
the registry are pure, as all implementations are, and so do not see the
classes. -/
theorem session_reordered {firstClass : Nat} {p : Program} {registry : Registry}
    {linked : LinkedProgram} (hlink : p.linkFrom firstClass registry = .ok linked)
    {fs : List FunctionDef} (hperm : fs.Perm p.functions) :
    ∃ linked' cls, (p.withFunctions fs).linkFrom firstClass registry = .ok linked' ∧
      linked.Reclassed firstClass linked' cls ∧
      ∀ (mode : Mode) (heap : Heap) (surroundings : Surroundings) (requests : List (Request × Nat)),
        heap.HasClasses (·.id < firstClass) →
          SameSession firstClass linked linked' cls
            (session .adaptive linked (.initial linked mode heap surroundings) requests)
            (session .adaptive linked' (.initial linked' mode heap surroundings) requests) := by
  obtain ⟨linked', ρ, hlink', hcarries⟩ := Program.linkFrom_perm hlink hperm
  refine ⟨linked', ρ.cls, hlink', hcarries.classes, ?_⟩
  intro mode heap surroundings requests hheap
  obtain ⟨hseen, hlast⟩ := session_renamed (p := .adaptive) hcarries
    (.initial hcarries mode hheap surroundings) requests
  have hmakes : MakesClasses linked (linked.Knows firstClass) := fun key f cls fields hf hnode =>
    .inr (((Program.linkFrom_classified hlink).mem_iff cls).mpr ⟨key, f, fields, hf, hnode⟩)
  refine ⟨hseen, ?_, ?_, hlast.function .main⟩
  · exact session_hasClasses hmakes (hheap.mono fun c hc => .inl hc) requests
  · intro name index hindex
    refine ⟨ρ.index index, ?_, hlast.function (.user index)⟩
    rw [hcarries.named name, hindex]
    rfl

/-! ### Two functions that make objects -/

/-- A program that makes an object in a field of another one. -/
def makers : Program :=
  { source := "main"
    functions :=
      [ { name := "leaf", source := "main", params := [0], locals := ["n"]
          body := [.ret (some (.new "Leaf"
            [("n", .binary .add (.var 0) (.lit (.int 1)) 0)]))]
          siteCount := 1, callCount := 0 },
        { name := "pair", source := "main", params := [], locals := []
          body := [.ret (some (.new "Pair"
            [("left", .call "leaf" [.lit (.int 1)] 0 ⟨5, 9⟩),
             ("right", .call "leaf" [.lit (.int 2)] 1 ⟨5, 20⟩)]))]
          siteCount := 0, callCount := 2 } ]
    main :=
      { name := programName, source := "main", params := [], locals := []
        body := [.raise (.call "pair" [] 0 ⟨8, 7⟩) ⟨8, 1⟩]
        siteCount := 0, callCount := 1 } }

/-- `makers`, linked. -/
def linkedMakers : LinkedProgram :=
  { source := "main"
    functions :=
      #[ { name := "leaf", source := "main", params := [0], locals := ["n"]
           body := [.ret (some (.new ⟨3, "Leaf"⟩
             [("n", .binary .add (.var 0) (.const (.int 1)) 0)]))] },
         { name := "pair", source := "main", params := [], locals := []
           body := [.ret (some (.new ⟨4, "Pair"⟩
             [("left", .call (.user 0) [.const (.int 1)] ⟨5, 9⟩),
              ("right", .call (.user 0) [.const (.int 2)] ⟨5, 20⟩)]))] } ]
    main :=
      { name := programName, source := "main", params := [], locals := []
        body := [.raise (.call (.user 1) [] ⟨8, 7⟩) ⟨8, 1⟩] }
    classes := [⟨3, "Leaf"⟩, ⟨4, "Pair"⟩] }

/-- An object that is there before the program is linked. -/
def olderHeap : Heap := ⟨#[{ cls := ⟨1, "Leaf"⟩ }]⟩

/-- With its functions the other way round, `makers` makes its classes in the
other order, and its sessions show the same. -/
theorem session_makers_reversed :
    makers.linkFrom 3 .core = .ok linkedMakers ∧
      makers.functions.reverse.Perm makers.functions ∧
      olderHeap.HasClasses (·.id < 3) ∧
      ∃ linked' cls, (makers.withFunctions makers.functions.reverse).linkFrom 3 .core = .ok linked' ∧
        linked'.classes = [⟨3, "Pair"⟩, ⟨4, "Leaf"⟩] ∧
        linkedMakers.Reclassed 3 linked' cls ∧
        SameSession 3 linkedMakers linked' cls
          (session .adaptive linkedMakers
            (.initial linkedMakers .interpret olderHeap .still)
            [(.run, 3), (.call "leaf" [.object 0], 1)])
          (session .adaptive linked'
            (.initial linked' .interpret olderHeap .still)
            [(.run, 3), (.call "leaf" [.object 0], 1)]) := by
  have hlink : makers.linkFrom 3 .core = .ok linkedMakers := rfl
  have hperm : makers.functions.reverse.Perm makers.functions := List.reverse_perm _
  have hheap : olderHeap.HasClasses (·.id < 3) := by
    intro o ho
    rw [Array.mem_singleton.mp ho]
    decide
  obtain ⟨linked', cls, hlink', hreclassed, hsame⟩ := session_reordered hlink hperm
  have hclasses : linked'.classes = [⟨3, "Pair"⟩, ⟨4, "Leaf"⟩] := by
    cases hlink'
    rfl
  exact ⟨hlink, hperm, hheap, linked', cls, hlink', hclasses, hreclassed,
    hsame .interpret olderHeap .still _ hheap⟩

end Machine

end AdaptiveScript
