import AdaptiveScript.Proofs.Machine.Simulation

/-! # The Path of a Run

  A run changes the state of a machine by single steps: a slot is assigned, an
  operator node is applied, a builtin is invoked, an object is made or written,
  a value is raised, a call is entered or left. An `Action` is one of these with
  everything that it depends on besides the state, and what it does is what the
  evaluator does in that step. Between its actions a run only looks at the
  state.

  Every run performs the actions of a path (`Performs`), and each of them belongs
  to a node of the program. The path and the outcome do not depend on where
  printed text goes or on what was printed before: only printing looks at the
  sink, and nothing looks at what it has kept (`Action.perform_withOutput`).
-/

namespace AdaptiveScript

/-! ### Where text goes -/

namespace Sink

/-- The sink after texts were printed. -/
def after (sink : Sink) (texts : List String) : Sink :=
  match sink with
  | .stdout => .stdout
  | .buffer kept => .buffer (kept ++ String.join texts)
  | .silent => .silent

/-- What reaches standard output of texts that are printed. -/
def written (sink : Sink) (texts : List String) : String :=
  match sink with
  | .stdout => String.join texts
  | .buffer _ => ""
  | .silent => ""

@[simp] theorem after_nil (sink : Sink) : sink.after [] = sink := by
  cases sink with
  | buffer kept =>
    show Sink.buffer (kept ++ String.join []) = .buffer kept
    rw [String.join_nil, String.append_empty]
  | _ => rfl

@[simp] theorem written_nil (sink : Sink) : sink.written [] = "" := by
  cases sink <;> rfl

theorem after_append (sink : Sink) (texts texts' : List String) :
    sink.after (texts ++ texts') = (sink.after texts).after texts' := by
  cases sink with
  | buffer kept =>
    show Sink.buffer (kept ++ String.join (texts ++ texts')) =
      .buffer (kept ++ String.join texts ++ String.join texts')
    rw [String.join_append, String.append_assoc]
  | _ => rfl

theorem written_append (sink : Sink) (texts texts' : List String) :
    sink.written (texts ++ texts') = sink.written texts ++ (sink.after texts).written texts' := by
  cases sink with
  | stdout => exact String.join_append
  | _ => rfl

/-- Printing a text is printing a list of one text. -/
theorem print_eq (sink : Sink) (text : String) :
    sink.print text = (sink.after [text], sink.written [text]) := by
  have hone : String.join [text] = text := by
    rw [String.join_cons, String.join_nil, String.append_empty]
  cases sink with
  | stdout =>
    show (Sink.stdout, text) = (.stdout, String.join [text])
    rw [hone]
  | buffer kept =>
    show (Sink.buffer (kept ++ text), "") = (.buffer (kept ++ String.join [text]), "")
    rw [hone]
  | silent => rfl

end Sink

namespace Machine

variable {p : Policy} {program : LinkedProgram}

/-! ### States up to their output -/

/-- The state with another sink, and with another text on standard output. -/
def State.withOutput (s : State) (sink : Sink) (stdout : String) : State :=
  { s with sink, stdout }

namespace State

variable (s : State) (sink : Sink) (stdout : String)

@[simp] theorem heap_withOutput : (s.withOutput sink stdout).heap = s.heap := rfl

@[simp] theorem stack_withOutput : (s.withOutput sink stdout).stack = s.stack := rfl

@[simp] theorem function_withOutput (key : FunctionKey) :
    (s.withOutput sink stdout).function key = s.function key := by
  cases key <;> rfl

theorem setFunction_withOutput (key : FunctionKey) (fs : FunctionState) :
    (s.withOutput sink stdout).setFunction key fs =
      (s.setFunction key fs).withOutput sink stdout := by
  cases key <;> rfl

theorem record_withOutput (e : Event) :
    (s.record e).withOutput sink stdout = (s.withOutput sink stdout).record e := rfl

theorem printAll_withOutput (texts : List String) :
    (s.withOutput sink stdout).printAll texts =
      (s.printAll texts).withOutput (sink.after texts) (stdout ++ sink.written texts) := by
  induction texts generalizing s sink stdout with
  | nil =>
    rw [Sink.after_nil, Sink.written_nil, String.append_empty]
    rfl
  | cons text texts ih =>
    have hprint : (s.withOutput sink stdout).print text =
        (s.print text).withOutput (sink.after [text]) (stdout ++ sink.written [text]) := by
      show State.record { s with sink := (sink.print text).1, stdout := stdout ++ (sink.print text).2 }
        (.printed text) = _
      rw [Sink.print_eq]
      rfl
    rw [← List.singleton_append, Sink.after_append, Sink.written_append, ← String.append_assoc]
    show ((s.withOutput sink stdout).print text).printAll texts = _
    rw [hprint, ih]
    rfl

end State

/-- A run whose outcome does not depend on the output, and which adds texts to
it and changes nothing else about it. -/
def Prints {α : Type} (texts : State → List String) (x : Run α) : Prop :=
  ∀ (s : State) (sink : Sink) (stdout : String), x (s.withOutput sink stdout) =
    ((x s).1, (x s).2.withOutput (sink.after (texts s)) (stdout ++ sink.written (texts s)))

namespace Prints

variable {α : Type} {key : FunctionKey}

/-- A run that does not look at the output. -/
theorem nothing {x : Run α} (h : ∀ s sink stdout,
    x (s.withOutput sink stdout) = ((x s).1, (x s).2.withOutput sink stdout)) :
    Prints (fun _ => []) x := by
  intro s sink stdout
  rw [Sink.after_nil, Sink.written_nil, String.append_empty]
  exact h s sink stdout

theorem assign (frame : Frame) (slot : Nat) (v : Value) :
    Prints (fun _ => []) (assignSlot p key frame slot v) := by
  apply nothing
  intro s sink stdout
  simp only [assignSlot, State.function_withOutput, State.setFunction_withOutput]
  cases p.assign (s.function key) frame slot v <;> rfl

theorem apply (op : Operator) (site : Nat) (v w : Value) :
    Prints (fun _ => []) (applyOperator p key op site v w) := by
  apply nothing
  intro s sink stdout
  rw [applyOperator_eq, applyOperator_eq, State.function_withOutput, State.heap_withOutput,
    State.setFunction_withOutput]
  cases (p.apply (s.function key) s.heap.className op site v w).1 <;> rfl

theorem builtin (entry : Builtin.Entry) (inst : Nat) (vs : List Value) (location : Location) :
    Prints (fun s => (builtinReply key entry inst vs s).printed)
      (invokeBuiltin key entry inst vs location) := by
  intro s sink stdout
  have hgiven : invocation key inst vs (s.withOutput sink stdout) = invocation key inst vs s := by
    simp only [invocation, State.heap_withOutput, State.function_withOutput]
    rfl
  have hafter : ∀ e reply, afterReply key inst e reply (s.withOutput sink stdout) =
      (afterReply key inst e reply s).withOutput (sink.after reply.printed)
        (stdout ++ sink.written reply.printed) := by
    intro e reply
    rw [afterReply, afterReply, State.function_withOutput, ← State.printAll_withOutput,
      State.record_withOutput, ← State.setFunction_withOutput]
    rfl
  rw [invokeBuiltin_eq, invokeBuiltin_eq, builtinReply, builtinReply, invokedEvent, invokedEvent,
    hgiven, hafter]
  cases (entry.invoke (invocation key inst vs s)).result <;> rfl

theorem make (cls : ClassRef) (fields : List (String × Value)) :
    Prints (fun _ => []) (newObject cls fields) :=
  nothing fun _ _ _ => rfl

theorem write (target : Value) (name : String) (v : Value) :
    Prints (fun _ => []) (writeField target name v) := by
  apply nothing
  cases target <;> exact fun _ _ _ => rfl

theorem raise (v : Value) (location : Location) :
    Prints (fun _ => []) (raiseValue v location : Run α) :=
  nothing fun _ _ _ => rfl

end Prints

/-! ### Actions -/

/-- A single step that changes the state of a machine. -/
inductive Action where
  /-- A slot is given a value, in an activation with the given frame. -/
  | assign (key : FunctionKey) (frame : Frame) (slot : Nat) (value : Value)
  /-- An operator node is applied. -/
  | apply (key : FunctionKey) (op : Operator) (site : Nat) (left right : Value)
  /-- A builtin is invoked. -/
  | invoke (key : FunctionKey) (entry : Builtin.Entry) (inst : Nat) (args : List Value)
      (location : Location)
  /-- An object is made. -/
  | make (cls : ClassRef) (fields : List (String × Value))
  /-- A field of an object is set. -/
  | write (target : Value) (name : String) (value : Value)
  /-- A value is raised. -/
  | raise (value : Value) (location : Location)
  /-- A call is entered. -/
  | enter (frame : CallFrame)
  /-- The innermost call is left. -/
  | leave

namespace Action

/-- The state after an action. -/
def perform (p : Policy) : Action → State → State
  | .assign key frame slot v, s => (assignSlot p key frame slot v s).2
  | .apply key op site v w, s => (applyOperator p key op site v w s).2
  | .invoke key entry inst vs location, s => (invokeBuiltin key entry inst vs location s).2
  | .make cls fields, s => (newObject cls fields s).2
  | .write target name v, s => (writeField target name v s).2
  | .raise v location, s => ((raiseValue v location : Run Unit) s).2
  | .enter frame, s =>
    match s.stack.push frame with
    | .ok stack => s.enter stack
    | .error _ => s
  | .leave, s => s.leave

/-- The state after the actions of a path. -/
def performAll (p : Policy) (path : List Action) (s : State) : State :=
  path.foldl (fun s a => a.perform p s) s

/-- The texts that an action prints. -/
def texts : Action → State → List String
  | .invoke key entry inst vs _, s => (builtinReply key entry inst vs s).printed
  | _, _ => []

/-- The texts that the actions of a path print, in order. -/
def textsAll (p : Policy) : List Action → State → List String
  | [], _ => []
  | a :: path, s => a.texts s ++ textsAll p path (a.perform p s)

theorem performAll_append (path path' : List Action) (s : State) :
    performAll p (path ++ path') s = performAll p path' (performAll p path s) :=
  List.foldl_append

/-- An action adds its texts to the output, and does the same for the rest
whatever the output is. -/
theorem perform_withOutput (a : Action) (s : State) (sink : Sink) (stdout : String) :
    a.perform p (s.withOutput sink stdout) =
      (a.perform p s).withOutput (sink.after (a.texts s)) (stdout ++ sink.written (a.texts s)) := by
  cases a with
  | assign key frame slot v => exact congrArg Prod.snd (Prints.assign frame slot v s sink stdout)
  | apply key op site v w => exact congrArg Prod.snd (Prints.apply op site v w s sink stdout)
  | invoke key entry inst vs location =>
    exact congrArg Prod.snd (Prints.builtin entry inst vs location s sink stdout)
  | make cls fields => exact congrArg Prod.snd (Prints.make cls fields s sink stdout)
  | write target name v => exact congrArg Prod.snd (Prints.write target name v s sink stdout)
  | raise v location => exact congrArg Prod.snd (Prints.raise v location s sink stdout)
  | enter frame =>
    simp only [texts, perform, Sink.after_nil, Sink.written_nil, String.append_empty,
      State.stack_withOutput]
    cases s.stack.push frame <;> rfl
  | leave =>
    simp only [texts, perform, Sink.after_nil, Sink.written_nil, String.append_empty]
    rfl

theorem performAll_withOutput (path : List Action) (s : State) (sink : Sink) (stdout : String) :
    performAll p path (s.withOutput sink stdout) =
      (performAll p path s).withOutput (sink.after (textsAll p path s))
        (stdout ++ sink.written (textsAll p path s)) := by
  induction path generalizing s sink stdout with
  | nil =>
    rw [textsAll, Sink.after_nil, Sink.written_nil, String.append_empty]
    rfl
  | cons a path ih =>
    rw [performAll, List.foldl_cons, perform_withOutput, textsAll, Sink.after_append,
      Sink.written_append, ← String.append_assoc]
    exact ih (a.perform p s) _ _

end Action

/-! ### Runs and their paths -/

/-- The action belongs to a node or a statement of the program. -/
def Action.Of (program : LinkedProgram) : Action → Prop
  | .assign key _ slot _ => ∃ f, program.at? key = some f ∧ Assigns f slot
  | .apply key op site _ _ => ∃ f left right, program.at? key = some f ∧
    .binary op left right site ∈ f.subnodes
  | .invoke key entry inst _ location => ∃ f args, program.at? key = some f ∧
    .call (.builtin entry inst) args location ∈ f.subnodes
  | .make cls _ => ∃ key f fields, program.at? key = some f ∧ .new cls fields ∈ f.subnodes
  | .write _ name _ => ∃ key f object value, program.at? key = some f ∧
    .setField object name value ∈ f.body
  | .raise _ location => ∃ key f value, program.at? key = some f ∧
    .raise value location ∈ f.body
  | .enter _ => True
  | .leave => True

/-- A run that performs actions of the program, the same ones with the same
outcome whatever the output is, and whose value is as described if it has
one. -/
structure Performs (p : Policy) (program : LinkedProgram) {α : Type} (P : α → Prop) (x : Run α) :
    Prop where
  value : ∀ {s a}, (x s).1 = .ok a → P a
  path : ∀ s, ∃ path : List Action, (∀ a ∈ path, a.Of program) ∧ ∀ sink stdout,
    x (s.withOutput sink stdout) =
      ((x s).1, Action.performAll p path (s.withOutput sink stdout))

namespace Performs

variable {α β : Type} {P : α → Prop} {Q : β → Prop}

theorem mono {P' : α → Prop} (hP : ∀ a, P a → P' a) {x : Run α} (h : Performs p program P x) :
    Performs p program P' x where
  value ha := hP _ (h.value ha)
  path := h.path

/-- A run that only looks at the state, and not at the output. -/
theorem look {x : Run α} (hvalue : ∀ {s a}, (x s).1 = .ok a → P a)
    (h : ∀ s sink stdout, x (s.withOutput sink stdout) = ((x s).1, s.withOutput sink stdout)) :
    Performs p program P x where
  value := hvalue
  path s := ⟨[], fun _ ha => absurd ha List.not_mem_nil, h s⟩

/-- A run that is a single action. -/
theorem action {x : Run α} (a : Action) (hof : a.Of program)
    (hvalue : ∀ {s a}, (x s).1 = .ok a → P a) (hprints : Prints a.texts x)
    (hperform : ∀ s, (x s).2 = a.perform p s) : Performs p program P x where
  value := hvalue
  path s := by
    refine ⟨[a], fun b hb => List.mem_singleton.mp hb ▸ hof, fun sink stdout => ?_⟩
    refine Prod.ext ?_ (hperform _)
    rw [hprints s sink stdout]

theorem pure {a : α} (h : P a) : Performs p program P (pure a : Run α) := by
  refine look ?_ fun _ _ _ => rfl
  intro s b hb
  cases hb
  exact h

theorem bind {x : Run α} {k : α → Run β} (hx : Performs p program P x)
    (hk : ∀ a, P a → Performs p program Q (k a)) : Performs p program Q (x >>= k) where
  value := by
    intro s b hb
    rw [Run.bind_apply] at hb
    rcases hout : x s with ⟨o, s'⟩
    rw [hout] at hb
    cases o with
    | ok a => exact (hk a (hx.value (congrArg Prod.fst hout))).value hb
    | _ => cases hb
  path := by
    intro s
    obtain ⟨path, hof, hpath⟩ := hx.path s
    -- with the output that the state has, nothing is replaced
    have hself : (x s).2 = Action.performAll p path s :=
      congrArg Prod.snd (hpath s.sink s.stdout)
    rcases hout : x s with ⟨o, s'⟩
    rw [hout] at hpath hself
    cases o with
    | ok a =>
      obtain ⟨path', hof', hpath'⟩ := (hk a (hx.value (congrArg Prod.fst hout))).path s'
      refine ⟨path ++ path', List.forall_mem_append.mpr ⟨hof, hof'⟩, fun sink stdout => ?_⟩
      rw [Run.bind_apply, hpath, Run.bind_apply, hout, Action.performAll_append,
        Action.performAll_withOutput, ← hself]
      exact hpath' _ _
    | _ =>
      refine ⟨path, hof, fun sink stdout => ?_⟩
      rw [Run.bind_apply, hpath, Run.bind_apply, hout]

/-! Endings. -/

theorem fail (e : EvalError) (here : Option Location) :
    Performs p program P (Run.fail e here : Run α) :=
  look (fun h => by cases h) fun _ _ _ => rfl

theorem faulty (f : Fault) : Performs p program P (Run.faulty f : Run α) :=
  look (fun h => by cases h) fun _ _ _ => rfl

theorem exhausted : Performs p program P (Run.exhausted : Run α) :=
  look (fun h => by cases h) fun _ _ _ => rfl

theorem unsupported (operation : String) (operands : List Value) :
    Performs p program P (Run.unsupported operation operands : Run α) :=
  look (fun h => by cases h) fun _ _ _ => rfl

/-! Single steps. -/

theorem newFrame (key : FunctionKey) :
    Performs p program (fun _ => True) (Machine.newFrame key) := by
  refine look (fun _ => trivial) fun s sink stdout => ?_
  simp only [Machine.newFrame, State.function_withOutput]

theorem read {key : FunctionKey} (frame : Frame) (slot : Nat) :
    Performs p program (fun _ => True) (readSlot p key frame slot) := by
  refine look (fun _ => trivial) fun s sink stdout => ?_
  simp only [readSlot, State.function_withOutput]
  cases p.read (s.function key) frame slot <;> rfl

theorem readField (v : Value) (name : String) :
    Performs p program (fun _ => True) (Machine.readField v name) := by
  rcases readField_cases v name with ⟨id, hread⟩ | hfail
  · rw [hread]
    exact look (fun _ => trivial) fun _ _ _ => rfl
  · rw [hfail]
    exact unsupported _ _

/-- A call is entered, and left again after what is done inside. -/
theorem within (frame : CallFrame) {x : Run α} (h : Performs p program P x) :
    Performs p program P (Run.within frame x) where
  value := by
    intro s a ha
    cases hpush : s.stack.push frame with
    | error e =>
      rw [within_refused hpush] at ha
      cases ha
    | ok stack =>
      rw [within_entered hpush] at ha
      exact h.value ha
  path := by
    intro s
    cases hpush : s.stack.push frame with
    | error e =>
      refine ⟨[], fun _ ha => absurd ha List.not_mem_nil, fun sink stdout => ?_⟩
      have hpush' : (s.withOutput sink stdout).stack.push frame = .error e := hpush
      rw [within_refused hpush', within_refused hpush]
      rfl
    | ok stack =>
      obtain ⟨path, hof, hpath⟩ := h.path (s.enter stack)
      refine ⟨.enter frame :: (path ++ [.leave]), ?_, fun sink stdout => ?_⟩
      · rw [List.forall_mem_cons, List.forall_mem_append, List.forall_mem_singleton]
        exact ⟨trivial, hof, trivial⟩
      · have hpush' : (s.withOutput sink stdout).stack.push frame = .ok stack := hpush
        have henter : (s.withOutput sink stdout).enter stack =
            (s.enter stack).withOutput sink stdout := rfl
        have hperform : (Action.enter frame).perform p (s.withOutput sink stdout) =
            (s.enter stack).withOutput sink stdout := by
          simp only [Action.perform, hpush', henter]
        rw [within_entered hpush', within_entered hpush, henter, hpath]
        refine Prod.ext rfl ?_
        show _ = Action.performAll p (path ++ [.leave]) ((Action.enter frame).perform p _)
        rw [hperform, Action.performAll_append]
        rfl

end Performs

/-- Runs inside activations perform actions of the program. -/
def paths (p : Policy) (program : LinkedProgram) : Law p program where
  holds _ {_} P x := Performs p program P x
  frame _ _ := True
  holds_pure h := .pure h
  holds_bind hx hk := .bind hx hk
  holds_mono hP hx := hx.mono hP
  newFrame _ := .newFrame _
  read _ _ _ := .read _ _
  assign v hf hslot _ :=
    .action (.assign _ _ _ v) ⟨_, hf, hslot⟩ (fun _ => trivial) (.assign _ _ v) fun _ => rfl
  apply v w hf hnode :=
    .action (.apply _ _ _ v w) ⟨_, _, _, hf, hnode⟩ (fun _ => trivial) (.apply _ _ v w) fun _ => rfl
  builtin vs hf hnode :=
    .action (.invoke _ _ _ vs _) ⟨_, _, hf, hnode⟩ (fun _ => trivial) (.builtin _ _ vs _)
      fun _ => rfl
  newObject vs hf hnode :=
    .action (.make _ vs) ⟨_, _, _, hf, hnode⟩ (fun _ => trivial) (.make _ vs) fun _ => rfl
  readField v _ _ := .readField v _
  writeField v w hf hstmt :=
    .action (.write v _ w) ⟨_, _, _, _, hf, hstmt⟩ (fun _ => trivial) (.write v _ w) fun _ => rfl
  raise v hf hstmt :=
    .action (.raise v _) ⟨_, _, _, hf, hstmt⟩ (fun h => by cases h) (.raise v _) fun _ => rfl
  unknown _ _ _ := .faulty _
  arity _ _ _ _ := .fail _ _
  within _ _ _ _ hx := .within _ hx
  exhausted := .exhausted

/-! ### Requests -/

theorem enter_performs (p : Policy) (fuel : Nat) {key : FunctionKey} {f : LinkedFunction}
    (hf : program.at? key = some f) (args : List Value) (location : Option Location) :
    Performs p program (fun _ => True) (enter p program fuel key f args location) := by
  rw [enter_eq]
  exact .within _ ((paths p program).inside_holds fuel hf args)

theorem callIndex_performs (p : Policy) (program : LinkedProgram) (fuel index : Nat)
    (args : List Value) :
    Performs p program (fun _ => True) (callIndex p program fuel index args) := by
  unfold callIndex callUser
  cases hg : program.functions[index]? with
  | none => exact .faulty _
  | some g =>
    have hat : program.at? (.user index) = some g := hg
    dsimp only
    split
    · exact enter_performs p fuel hat args none
    · exact .fail _ _

/-- A request performs actions of the program, the same ones whatever the output
is. -/
theorem answer_performs {fuel : Nat} {s s' : State} {request : Request} {o : Outcome Value}
    (h : answer p program fuel s request = some (o, s')) :
    ∃ path : List Action, (∀ a ∈ path, a.Of program) ∧ s' = Action.performAll p path s ∧
      ∀ sink stdout, answer p program fuel (s.withOutput sink stdout) request =
        some (o, Action.performAll p path (s.withOutput sink stdout)) := by
  -- what is asked for is a run of the machine, and the fuel does not depend on the output
  obtain ⟨x, hperforms, hanswer⟩ : ∃ x : Run Value, Performs p program (fun _ => True) x ∧
      ∀ sink stdout, answer p program fuel (s.withOutput sink stdout) request =
        some (x (s.withOutput sink stdout)) := by
    cases request with
    | run => exact ⟨_, enter_performs p (s.budget fuel) rfl [] none, fun _ _ => rfl⟩
    | call name args =>
      obtain ⟨index, hindex, -⟩ := Option.map_eq_some_iff.mp h
      refine ⟨_, callIndex_performs p program (s.budget fuel) index args, fun sink stdout => ?_⟩
      simp only [answer, hindex, Option.map_some]
      rfl
  have hself : x s = (o, s') := Option.some.inj ((hanswer s.sink s.stdout).symm.trans h)
  obtain ⟨path, hof, hpath⟩ := hperforms.path s
  rw [hself] at hpath
  refine ⟨path, hof, ?_, fun sink stdout => ?_⟩
  · exact congrArg Prod.snd (hself.symm.trans (hpath s.sink s.stdout))
  · rw [hanswer, hpath]

end Machine

end AdaptiveScript
