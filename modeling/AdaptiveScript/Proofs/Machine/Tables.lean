import AdaptiveScript.Proofs.Linked.References
import AdaptiveScript.Proofs.Machine.Refinement

/-! # Evaluation Stays Inside Its Tables

  The policy of the language forgives a slot that does not exist: it reads
  as nil, and an assignment to it is ignored. The strict policy does not. It
  yields nothing for a slot that the table or the frame does not have, and
  the machine ends with a fault, as it does under every policy for a call of
  a function that the program does not have.

  For a program that was linked the two cannot be told apart, and no fault
  ever comes up (`answer_strict_eq_adaptive`). The references of its nodes
  were checked when it was linked; what the proof carries along is that the
  tables which they point into keep their sizes: that of functions and those
  of slots in the state (`State.BelongsTo`), and the cells of the frame.
-/

namespace AdaptiveScript

namespace Machine

/-! ### The strict policy -/

/-- Whether a slot has a descriptor and a cell. -/
def InTables (fs : FunctionState) (frame : Frame) (slot : Nat) : Prop :=
  slot < fs.slots.size ∧ slot < frame.cells.size

instance (fs : FunctionState) (frame : Frame) (slot : Nat) : Decidable (InTables fs frame slot) :=
  inferInstanceAs (Decidable (_ ∧ _))

/-- The policy of the language for the slots that exist, and none for others. -/
def Policy.strict : Policy where
  read fs frame slot :=
    if InTables fs frame slot then Policy.adaptive.read fs frame slot else none
  assign fs frame slot v :=
    if InTables fs frame slot then Policy.adaptive.assign fs frame slot v else none
  apply := Policy.adaptive.apply

section

variable {key : FunctionKey} {frame : Frame} {slot : Nat} {s : State}

theorem readSlot_strict (h : InTables (s.function key) frame slot) :
    readSlot .strict key frame slot s = readSlot .adaptive key frame slot s := by
  simp only [readSlot, Policy.strict, if_pos h]

theorem assignSlot_strict (h : InTables (s.function key) frame slot) (v : Value) :
    assignSlot .strict key frame slot v s = assignSlot .adaptive key frame slot v s := by
  simp only [assignSlot, Policy.strict, if_pos h]

end

/-! ### States of a program -/

/-- A state of the program: it has a state for every function, with a
descriptor for every local of the function. -/
structure State.BelongsTo (program : LinkedProgram) (s : State) : Prop where
  functions : s.functions.size = program.functions.size
  slots : ∀ {key f}, program.at? key = some f →
    (s.function key).slots.size = f.locals.length

theorem State.Fresh.belongsTo {program : LinkedProgram} {s : State} (h : s.Fresh program) :
    s.BelongsTo program where
  functions := (Agree.fresh h).functions
  slots hf := ((Agree.fresh h).fits hf).slots

/-- Two states have the same states of functions. -/
structure SameFunctions (s s' : State) : Prop where
  functions : s'.functions = s.functions
  main : s'.main = s.main

theorem SameFunctions.function {s s' : State} (h : SameFunctions s s') (key : FunctionKey) :
    s'.function key = s.function key := by
  cases key with
  | user index => simp only [State.function, h.functions]
  | main => exact h.main

theorem sameFunctions_printAll (s : State) (texts : List String) :
    SameFunctions s (s.printAll texts) := by
  induction texts generalizing s with
  | nil => exact ⟨rfl, rfl⟩
  | cons text texts ih =>
    have hrest := ih (s.print text)
    exact ⟨hrest.functions, hrest.main⟩

theorem sameFunctions_afterReply (key : FunctionKey) (inst : Nat) (e : Event)
    (reply : Builtin.Reply) (s : State) :
    SameFunctions (s.setFunction key ((s.function key).setMemory inst reply.memory))
      (afterReply key inst e reply s) := by
  have hprinted := sameFunctions_printAll
    (({ s with readings := s.readings + 1 }.setFunction key
      ((s.function key).setMemory inst reply.memory)).record e) reply.printed
  refine ⟨hprinted.functions.trans ?_, hprinted.main.trans ?_⟩ <;> cases key <;> rfl

namespace State.BelongsTo

variable {program : LinkedProgram} {s s' : State}

theorem of_same (h : s.BelongsTo program) (hsame : SameFunctions s s') :
    s'.BelongsTo program where
  functions := by rw [hsame.functions, h.functions]
  slots hf := by rw [hsame.function, h.slots hf]

theorem setFunction (h : s.BelongsTo program) {key : FunctionKey} {f : LinkedFunction}
    (hf : program.at? key = some f) {fs : FunctionState}
    (hfs : fs.slots.size = f.locals.length) : (s.setFunction key fs).BelongsTo program where
  functions := by rw [State.size_setFunction, h.functions]
  slots := by
    intro other g hg
    by_cases hkey : other = key
    · subst hkey
      obtain rfl : f = g := Option.some.inj (hf.symm.trans hg)
      rw [State.function_setFunction_self hf h.functions]
      exact hfs
    · rw [State.function_setFunction_ne s fs hkey]
      exact h.slots hg

end State.BelongsTo

/-! ### Runs inside the tables -/

/-- Two runs end alike and in the same state, which is one of the program, and
not with a fault. -/
inductive EndsInside (program : LinkedProgram) {α β : Type} (R : α → β → Prop) :
    Outcome α × State → Outcome β × State → Prop where
  | ok {a : α} {b : β} {s : State} : R a b → s.BelongsTo program →
    EndsInside program R (.ok a, s) (.ok b, s)
  | error (e : EvalError) {s : State} : s.BelongsTo program →
    EndsInside program R (.error e, s) (.error e, s)
  | outOfFuel {s : State} : s.BelongsTo program →
    EndsInside program R (.outOfFuel, s) (.outOfFuel, s)

/-- Two runs that end so from every state of the program. -/
def StaysInside (program : LinkedProgram) {α β : Type} (R : α → β → Prop) (x : Run α)
    (y : Run β) : Prop :=
  ∀ s, s.BelongsTo program → EndsInside program R (x s) (y s)

theorem EndsInside.eq {program : LinkedProgram} {α : Type} {out out' : Outcome α × State}
    (h : EndsInside program Eq out out') : out = out' := by
  cases h with
  | ok hab _ => rw [hab]
  | error e _ => rfl
  | outOfFuel _ => rfl

namespace StaysInside

variable {program : LinkedProgram} {α β γ δ : Type} {R : α → β → Prop} {R' : γ → δ → Prop}
  {key : FunctionKey} {f : LinkedFunction}

theorem pure {a : α} {b : β} (h : R a b) :
    StaysInside program R (pure a : Run α) (pure b : Run β) :=
  fun _ hs => .ok h hs

theorem bind {x : Run α} {y : Run β} {k : α → Run γ} {l : β → Run δ}
    (hx : StaysInside program R x y) (hk : ∀ a b, R a b → StaysInside program R' (k a) (l b)) :
    StaysInside program R' (x >>= k) (y >>= l) := by
  intro s hs
  have hfirst := hx s hs
  rw [Run.bind_apply, Run.bind_apply]
  generalize x s = out at hfirst
  generalize y s = out' at hfirst
  cases hfirst with
  | ok hab hs' => exact hk _ _ hab _ hs'
  | error e hs' => exact .error e hs'
  | outOfFuel hs' => exact .outOfFuel hs'

/-- A run that ends where it is, with an error. -/
theorem fail (e : EvalError) (here : Option Location) :
    StaysInside program R (Run.fail e here : Run α) (Run.fail e here : Run β) :=
  fun s hs => .error (s.stack.attach e here) hs

theorem unsupported (operation : String) (operands : List Value) :
    StaysInside program R (Run.unsupported operation operands : Run α)
      (Run.unsupported operation operands : Run β) :=
  fun s hs => fail (.unsupportedOperands s.heap.className operation operands) none s hs

/-- A result in a state of the program. -/
theorem ofResult {s : State} (hs : s.BelongsTo program) (here : Option Location)
    (result : Except EvalError α) :
    EndsInside program Eq (Run.ofResult here result s) (Run.ofResult here result s) := by
  cases result with
  | ok a => exact .ok rfl hs
  | error e => exact fail e here s hs

/-- A step that only looks at the heap and changes it. -/
theorem onHeap (step : Heap → α × Heap) :
    StaysInside program Eq (fun s => (.ok (step s.heap).1, { s with heap := (step s.heap).2 }))
      (fun s => (.ok (step s.heap).1, { s with heap := (step s.heap).2 })) :=
  fun _ hs => .ok rfl (hs.of_same ⟨rfl, rfl⟩)

theorem newObject (cls : ClassRef) (fields : List (String × Value)) :
    StaysInside program Eq (Machine.newObject cls fields) (Machine.newObject cls fields) :=
  onHeap fun heap =>
    let made := heap.alloc { cls, fields := .ofList fields }
    (Value.object made.1, made.2)

theorem readField (v : Value) (name : String) :
    StaysInside program Eq (Machine.readField v name) (Machine.readField v name) := by
  rcases readField_cases v name with ⟨id, hread⟩ | hfail
  · rw [hread]
    exact onHeap fun heap => ((heap.field? id name).getD .nil, heap)
  · rw [hfail]
    exact unsupported _ _

theorem writeField (v : Value) (name : String) (w : Value) :
    StaysInside program Eq (Machine.writeField v name w) (Machine.writeField v name w) := by
  rcases writeField_cases v name w with ⟨id, hwrite⟩ | hfail
  · rw [hwrite]
    exact onHeap fun heap => ((), heap.setField id name w)
  · rw [hfail]
    exact unsupported _ _

theorem raise (v : Value) (location : Location) :
    StaysInside program R (raiseValue v location : Run α) (raiseValue v location : Run β) :=
  fun _ hs => .error _ (hs.of_same ⟨rfl, rfl⟩)

theorem exhausted : StaysInside program R (Run.exhausted : Run α) (Run.exhausted : Run β) :=
  fun _ hs => .outOfFuel hs

theorem within (frame : CallFrame) {x : Run α} {y : Run β} (h : StaysInside program R x y) :
    StaysInside program R (Run.within frame x) (Run.within frame y) := by
  intro s hs
  cases hpush : s.stack.push frame with
  | error e =>
    rw [within_refused hpush, within_refused hpush]
    exact .error e hs
  | ok stack =>
    have hentered : (s.enter stack).BelongsTo program := hs.of_same ⟨rfl, rfl⟩
    have hinside := h _ hentered
    rw [within_entered hpush, within_entered hpush]
    generalize x (s.enter stack) = out at hinside
    generalize y (s.enter stack) = out' at hinside
    cases hinside with
    | ok hab hs' => exact .ok hab (hs'.of_same ⟨rfl, rfl⟩)
    | error e hs' => exact .error e (hs'.of_same ⟨rfl, rfl⟩)
    | outOfFuel hs' => exact .outOfFuel (hs'.of_same ⟨rfl, rfl⟩)

theorem builtin (hf : program.at? key = some f) (entry : Builtin.Entry) (inst : Nat)
    (vs : List Value) (location : Location) :
    StaysInside program Eq (invokeBuiltin key entry inst vs location)
      (invokeBuiltin key entry inst vs location) := by
  intro s hs
  have hremembered : (s.setFunction key ((s.function key).setMemory inst
      (builtinReply key entry inst vs s).memory)).BelongsTo program :=
    hs.setFunction hf (hs.slots hf)
  rw [invokeBuiltin_eq]
  exact ofResult (hremembered.of_same (sameFunctions_afterReply _ _ _ _ s)) _ _

theorem apply (hf : program.at? key = some f) (op : Operator) (site : Nat) (v w : Value) :
    StaysInside program Eq (applyOperator .strict key op site v w)
      (applyOperator .adaptive key op site v w) := by
  intro s hs
  have hsites : (s.setFunction key ((s.function key).setSite site
      (op.evaluate s.heap.className v w ((s.function key).site site)).2)).BelongsTo program :=
    hs.setFunction hf (hs.slots hf)
  have hrecorded : (State.record (s.setFunction key ((s.function key).setSite site
      (op.evaluate s.heap.className v w ((s.function key).site site)).2))
      (.applied key site v w)).BelongsTo program := hsites.of_same ⟨rfl, rfl⟩
  exact ofResult hrecorded none _

end StaysInside

/-! ### The simulation -/

/-- Frames of an activation of the function: the same, with a cell for every
local. -/
def SameFrames (program : LinkedProgram) (key : FunctionKey) (φ ψ : Frame) : Prop :=
  φ = ψ ∧ ∀ f, program.at? key = some f → ψ.cells.size = f.locals.length

section

variable {program : LinkedProgram} {key : FunctionKey} {f : LinkedFunction} {φ ψ : Frame}
  {slot : Nat} {s : State}

/-- A slot of the function has a descriptor and a cell. -/
theorem SameFrames.inTables (hframe : SameFrames program key φ ψ) (hf : program.at? key = some f)
    (hslot : slot < f.locals.length) (hs : s.BelongsTo program) :
    InTables (s.function key) ψ slot := by
  have htable := hs.slots hf
  have hcells := hframe.2 f hf
  constructor <;> omega

/-- An activation starts with a cell for every local. -/
theorem SameFrames.newFrame (hf : program.at? key = some f) :
    StaysInside program (SameFrames program key) (newFrame key) (newFrame key) := by
  intro s hs
  refine .ok ⟨rfl, fun g hg => ?_⟩ hs
  obtain rfl : f = g := Option.some.inj (hf.symm.trans hg)
  simp [SlotTable.newFrame, Frame.ofSize, hs.slots hf]

theorem SameFrames.read (hframe : SameFrames program key φ ψ) (hf : program.at? key = some f)
    (hslot : slot < f.locals.length) :
    StaysInside program Eq (readSlot .strict key φ slot) (readSlot .adaptive key ψ slot) := by
  intro s hs
  have hin := hframe.inTables hf hslot hs
  obtain ⟨hsame, -⟩ := hframe
  subst hsame
  rw [readSlot_strict hin]
  exact .ok rfl hs

/-- An assignment keeps the number of cells. -/
theorem cells_assign (t : SlotTable) (frame : Frame) (slot : Nat) (v : Value) :
    (t.assign frame slot v).2.cells.size = frame.cells.size := by
  unfold SlotTable.assign
  split
  · rfl
  · simp [Frame.setCell]

theorem SameFrames.assign (hframe : SameFrames program key φ ψ) (hf : program.at? key = some f)
    (hslot : slot < f.locals.length) (v : Value) :
    StaysInside program (SameFrames program key) (assignSlot .strict key φ slot v)
      (assignSlot .adaptive key ψ slot v) := by
  intro s hs
  have hin := hframe.inTables hf hslot hs
  obtain ⟨hsame, hcells⟩ := hframe
  subst hsame
  have hframe' : SameFrames program key ((s.function key).slots.assign φ slot v).2
      ((s.function key).slots.assign φ slot v).2 := by
    refine ⟨rfl, fun g hg => ?_⟩
    rw [cells_assign]
    exact hcells g hg
  have hsize : ((s.function key).slots.assign φ slot v).1.size = f.locals.length := by
    rw [SlotTable.size_assign]
    exact hs.slots hf
  have hs' : (s.setFunction key { s.function key with
      slots := ((s.function key).slots.assign φ slot v).1 }).BelongsTo program :=
    hs.setFunction hf hsize
  rw [assignSlot_strict hin]
  exact .ok hframe' (hs'.of_same ⟨rfl, rfl⟩)

end

/-- The strict machine simulates the machine of the language on a program
whose references are in order. -/
def strictness {program : LinkedProgram} (hscoped : program.Scoped) :
    Simulation .strict .adaptive program where
  rel _ {_ _} R x y := StaysInside program R x y
  frame key φ ψ := SameFrames program key φ ψ
  rel_pure h := .pure h
  rel_bind hx hk := .bind hx hk
  newFrame hf := SameFrames.newFrame hf
  read hf hnode hframe := hframe.read hf ((hscoped hf).nodes _ hnode)
  assign v hf hslot hframe := by
    refine hframe.assign hf ?_ v
    rcases hslot with hparam | ⟨value, hstmt⟩
    · exact (hscoped hf).params _ hparam
    · exact (hscoped hf).assigned _ value hstmt
  apply v w hf _ := .apply hf _ _ v w
  builtin vs hf _ := .builtin hf _ _ vs _
  newObject vs _ _ := .newObject _ vs
  readField v _ _ := .readField v _
  writeField v w _ _ := .writeField v _ w
  raise v _ _ := .raise v _
  unknown hf hnode hnone := by
    -- a call node that was linked has a function to call
    have hlt : _ < program.functions.size := (hscoped hf).nodes _ hnode
    rw [Array.getElem?_eq_getElem hlt] at hnone
    cases hnone
  arity _ _ _ _ := .fail _ _
  within _ _ _ _ hx := .within _ hx
  exhausted := .exhausted

/-! ### Requests -/

section

variable {program : LinkedProgram} {s : State}

theorem enter_staysInside (hscoped : program.Scoped) (fuel : Nat) {key : FunctionKey}
    {f : LinkedFunction} (hf : program.at? key = some f) (args : List Value)
    (location : Option Location) :
    StaysInside program Eq (enter .strict program fuel key f args location)
      (enter .adaptive program fuel key f args location) := by
  rw [enter_eq, enter_eq]
  exact .within _ ((strictness hscoped).inside_rel fuel hf args)

/-- A function that is called by its name is one of the program. -/
theorem callIndex_staysInside (hscoped : program.Scoped) (fuel : Nat) {name : String} {index : Nat}
    (hindex : program.index? name = some index) (args : List Value) :
    StaysInside program Eq (callIndex .strict program fuel index args)
      (callIndex .adaptive program fuel index args) := by
  obtain ⟨hlt, -⟩ := Array.findIdx?_eq_some_iff_getElem.mp hindex
  have hg : program.functions[index]? = some program.functions[index] :=
    Array.getElem?_eq_getElem hlt
  have hat : program.at? (.user index) = some program.functions[index] := hg
  unfold callIndex callUser
  simp only [hg]
  by_cases harity : args.length = (program.functions[index]).arity
  · simp only [if_pos harity]
    exact enter_staysInside hscoped fuel hat args none
  · simp only [if_neg harity]
    exact .fail _ _

theorem answer_endsInside (hscoped : program.Scoped) (hs : s.BelongsTo program) (fuel : Nat)
    (request : Request) :
    (answer .strict program fuel s request = none ∧
        answer .adaptive program fuel s request = none) ∨
      ∃ out out', answer .strict program fuel s request = some out ∧
        answer .adaptive program fuel s request = some out' ∧
        EndsInside program Eq out out' := by
  cases request with
  | run =>
    have hmain : program.at? .main = some program.main := rfl
    exact .inr ⟨_, _, rfl, rfl, enter_staysInside hscoped _ hmain [] none s hs⟩
  | call name args =>
    cases hindex : program.index? name with
    | none => exact .inl (by simp [answer, hindex])
    | some index =>
      have hends := callIndex_staysInside hscoped (s.budget fuel) hindex args s hs
      exact .inr ⟨_, _, by simp [answer, hindex], by simp [answer, hindex], hends⟩

end

/-- A program that was linked stays inside its tables: in every state of the
program a request has the same answer whether a reference out of range is
forgiven or a fault, the answer is no fault, and it leaves a state of the
program again. -/
theorem answer_strict_eq_adaptive {firstClass : Nat} {p : Program} {registry : Registry}
    {program : LinkedProgram} (hlink : p.linkFrom firstClass registry = .ok program) {s : State}
    (hs : s.BelongsTo program) (fuel : Nat) (request : Request) :
    answer .strict program fuel s request = answer .adaptive program fuel s request ∧
      ∀ o t, answer .adaptive program fuel s request = some (o, t) →
        (∀ fault, o ≠ .fault fault) ∧ t.BelongsTo program := by
  have hscoped := Program.linkFrom_scoped hlink
  obtain ⟨hstrict, hadaptive⟩ | ⟨out, out', hstrict, hadaptive, hends⟩ :=
    answer_endsInside hscoped hs fuel request
  · rw [hstrict, hadaptive]
    refine ⟨rfl, ?_⟩
    intro o t h
    cases h
  · rw [hstrict, hadaptive, hends.eq]
    refine ⟨rfl, ?_⟩
    intro o t h
    cases h
    cases hends with
    | ok _ hs' => exact ⟨(fun _ hfault => nomatch hfault), hs'⟩
    | error e hs' => exact ⟨(fun _ hfault => nomatch hfault), hs'⟩
    | outOfFuel hs' => exact ⟨(fun _ hfault => nomatch hfault), hs'⟩

/-- `squares` has a slot in each of its functions, and a call. -/
theorem squares_strict :
    squares.linkFrom 0 .core = .ok linkedSquares ∧ squaresStart.BelongsTo linkedSquares ∧
      answer .strict linkedSquares 2 squaresStart .run =
        answer .adaptive linkedSquares 2 squaresStart .run := by
  have hlink : squares.linkFrom 0 .core = .ok linkedSquares := rfl
  have hbelongs : squaresStart.BelongsTo linkedSquares :=
    (State.initial_fresh linkedSquares _ _ _).belongsTo
  exact ⟨hlink, hbelongs, (answer_strict_eq_adaptive hlink hbelongs 2 .run).1⟩

/-- A program that was not linked: it reads a local that is not declared. -/
def undeclared : LinkedProgram :=
  { source := "main"
    functions := #[]
    main :=
      { name := programName, source := "main", params := [], locals := []
        body := [.ret (some (.var 3))] }
    classes := [] }

-- here the two policies differ, so they agree above only because of the link
example :
    (answer .strict undeclared 1 (.initial undeclared .interpret .empty .still)
        .run).map (·.1) = some (.fault (.unknownSlot 3)) ∧
      (answer .adaptive undeclared 1
        (.initial undeclared .interpret .empty .still) .run).map (·.1) =
        some (.ok .nil) :=
  ⟨rfl, rfl⟩

end Machine

end AdaptiveScript
