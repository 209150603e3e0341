import AdaptiveScript.Proofs.Machine.Balance

/-! # Overflows Report the Limit

  A machine that fails for lack of depth says which limit it has, and its
  backtrace shows all the calls that the limit allows (`answer_reports`).
  Only a call that the limit refuses makes such an error, and it is refused
  when as many calls are live as there may be; on its way out the error
  stays as it is. The law of runs that says so is `overflows`.

  Builtins can be declared by anyone, and nothing keeps one from answering
  with the error of the limit itself. The law takes for granted that those
  of the program do not (`LinkedProgram.ReportsNoOverflow`); the builtins of
  the core never do.
-/

namespace AdaptiveScript

/-! ### Builtins -/

/-- No call of the builtin ends in an error of the depth limit. -/
def Builtin.Entry.ReportsNoOverflow (entry : Builtin.Entry) : Prop :=
  ∀ i e, (entry.invoke i).result = .error e → ∀ depth, e.kind ≠ .stackOverflow depth

/-- No builtin that the program calls reports an overflow. -/
def LinkedProgram.ReportsNoOverflow (program : LinkedProgram) : Prop :=
  ∀ ⦃key f entry inst args location⦄, program.at? key = some f →
    .call (.builtin entry inst) args location ∈ f.subnodes → entry.ReportsNoOverflow

/-- The builtins of the core report none, so this is so for every program that
was linked with them. -/
theorem Program.linkFrom_reportsNoOverflow {firstClass : Nat} {p : Program}
    {linked : LinkedProgram} (h : p.linkFrom firstClass .core = .ok linked) :
    linked.ReportsNoOverflow := by
  intro key f entry inst args location hf hnode i e herror
  have hplaced : f.Placed .core := Program.linkFrom_placed h hf
  exact (Builtin.core_plain (hplaced.builtin_declared hnode) herror).ne_stackOverflow

namespace Machine

/-! ### The error of a refused call -/

/-- Attaching a path leaves the cause alone. -/
theorem kind_attach (stack : CallStack) (e : EvalError) (here : Option Location) :
    (stack.attach e here).kind = e.kind := by
  unfold CallStack.attach
  split <;> rfl

/-- The error of the limit `max` names it, and has a frame for each of the
calls that the limit allows; without any there is no backtrace. -/
structure ReportsLimit (max : Nat) (e : EvalError) : Prop where
  kind : e.kind = .stackOverflow max
  frames : e.backtrace.map List.length = if max = 0 then none else some max

theorem length_path (here : Option Location) (frames : List CallFrame) :
    (CallStack.path here frames).length = frames.length := by
  induction frames generalizing here with
  | nil => rfl
  | cons f outer ih =>
    rw [CallStack.path, List.length_cons, List.length_cons, ih]

/-- A call that is refused by a stack with just as many calls as it may have. -/
theorem overflow_reports (stack : CallStack) :
    ReportsLimit stack.frames.length (stack.attach (.stackOverflow stack.frames.length) none) where
  kind := kind_attach _ _ _
  frames := by
    by_cases hempty : stack.frames = []
    · rw [attach_empty hempty, hempty]
      rfl
    · have hlength : stack.frames.length ≠ 0 := fun h => hempty (List.length_eq_zero_iff.mp h)
      rw [attach_pathless (EvalError.stackOverflow_pathless _) hempty, if_neg hlength]
      show some (CallStack.path none stack.frames).length = _
      rw [length_path]

/-! ### Runs that report the limit -/

/-- A state whose live calls are within the limit. -/
def State.Fits (s : State) : Prop :=
  ∀ max, s.stack.maxDepth = some max → s.stack.frames.length ≤ max

/-- A run that never ends in an error of the depth limit. -/
def Quiet {α : Type} (x : Run α) : Prop :=
  ∀ s e depth, (x s).1 = .error e → e.kind ≠ .stackOverflow depth

/-- A run that keeps the stack, and whose overflows are those of the limit. -/
structure Reports {α : Type} (P : α → Prop) (x : Run α) : Prop where
  keeps : Keeps P x
  overflow : ∀ {s e depth}, s.Fits → (x s).1 = .error e → e.kind = .stackOverflow depth →
    s.stack.maxDepth = some depth ∧ ReportsLimit depth e

namespace Reports

variable {α β : Type} {P : α → Prop} {Q : β → Prop}

theorem of_quiet {x : Run α} (hkeeps : Keeps P x) (hquiet : Quiet x) : Reports P x where
  keeps := hkeeps
  overflow _ herror hkind := absurd hkind (hquiet _ _ _ herror)

theorem mono {P' : α → Prop} (hP : ∀ a, P a → P' a) {x : Run α} (h : Reports P x) :
    Reports P' x where
  keeps := h.keeps.mono hP
  overflow := h.overflow

theorem bind {x : Run α} {k : α → Run β} (hx : Reports P x) (hk : ∀ a, P a → Reports Q (k a)) :
    Reports Q (x >>= k) where
  keeps := hx.keeps.bind fun a ha => (hk a ha).keeps
  overflow := by
    intro s e depth hfits herror hkind
    rcases hx.keeps.bind_error herror with hfirst | ⟨a, s', ha, hstack, hsecond⟩
    · exact hx.overflow hfits hfirst hkind
    · have hfits' : s'.Fits := by
        unfold State.Fits
        rw [hstack]
        exact hfits
      have hlater := (hk a ha).overflow hfits' hsecond hkind
      rwa [hstack] at hlater

/-- Here the errors of the limit arise. -/
theorem within (frame : CallFrame) {x : Run α} (h : Reports P x) :
    Reports P (Run.within frame x) where
  keeps := h.keeps.within frame
  overflow := by
    intro s e depth hfits herror hkind
    cases hpush : s.stack.push frame with
    | error e' =>
      obtain ⟨max, hmax, hfull, he⟩ := push_error hpush
      have hlength : s.stack.frames.length = max := Nat.le_antisymm (hfits max hmax) hfull
      have hreports := overflow_reports s.stack
      rw [hlength, ← he] at hreports
      rw [within_refused hpush] at herror
      cases herror
      obtain rfl : max = depth := ErrorKind.stackOverflow.inj (hreports.kind.symm.trans hkind)
      exact ⟨hmax, hreports⟩
    | ok stack =>
      obtain ⟨hframes, hlimit, -⟩ := push_frames hpush
      have hfits' : (s.enter stack).Fits := by
        intro max hmax
        have hbelow := push_below hpush (hlimit ▸ hmax)
        show stack.frames.length ≤ max
        rw [hframes, List.length_cons]
        omega
      rw [within_entered hpush] at herror
      have hinside := h.overflow hfits' herror hkind
      rw [← hlimit]
      exact hinside

end Reports

/-! ### Steps that report nothing -/

namespace Quiet

variable {α : Type} {key : FunctionKey}

theorem of_ended {x : Run α} (h : ∀ s e, (x s).1 ≠ .error e) : Quiet x :=
  fun s e _ herror => absurd herror (h s e)

theorem fail {e : EvalError} (he : ∀ depth, e.kind ≠ .stackOverflow depth)
    (here : Option Location) : Quiet (Run.fail e here : Run α) := by
  intro s e' depth herror
  cases herror
  rw [kind_attach]
  exact he depth

theorem unsupported (operation : String) (operands : List Value) :
    Quiet (Run.unsupported operation operands : Run α) :=
  fun s => fail (fun _ h => by cases h) none s

theorem raise (v : Value) (location : Location) : Quiet (raiseValue v location : Run α) := by
  intro s e depth herror
  cases v <;> cases herror <;> exact fun h => by cases h

/-- The error of a result is the error of the run, up to its path. -/
theorem ofResult {here : Option Location} {result : Except EvalError α}
    (h : ∀ e, result = .error e → ∀ depth, e.kind ≠ .stackOverflow depth) :
    Quiet (Run.ofResult here result) := by
  cases result with
  | ok a => exact of_ended fun s e herror => by cases herror
  | error e => exact fail (h e rfl) here

theorem readField (v : Value) (name : String) : Quiet (Machine.readField v name) := by
  rcases readField_cases v name with ⟨id, hread⟩ | hfail
  · rw [hread]
    exact of_ended fun s e herror => by cases herror
  · rw [hfail]
    exact unsupported _ _

theorem writeField (v : Value) (name : String) (w : Value) :
    Quiet (Machine.writeField v name w) := by
  rcases writeField_cases v name w with ⟨id, hwrite⟩ | hfail
  · rw [hwrite]
    exact of_ended fun s e herror => by cases herror
  · rw [hfail]
    exact unsupported _ _

theorem apply (op : Operator) (site : Nat) (v w : Value) :
    Quiet (applyOperator .adaptive key op site v w) := by
  intro s e depth herror
  rw [applyOperator_eq] at herror
  exact ofResult (fun _ he => (Operator.evaluate_plain he).ne_stackOverflow) _ e depth herror

theorem builtin {entry : Builtin.Entry} (hentry : entry.ReportsNoOverflow) (inst : Nat)
    (vs : List Value) (location : Location) :
    Quiet (invokeBuiltin key entry inst vs location) := by
  intro s e depth herror
  rw [invokeBuiltin_eq] at herror
  exact ofResult (hentry _) _ e depth herror

end Quiet

/-! ### The law -/

/-- Runs inside activations report the limit when they overflow. -/
def overflows (program : LinkedProgram) (hbuiltins : program.ReportsNoOverflow) :
    Law .adaptive program where
  holds _ {_} P x := Reports P x
  frame _ _ := True
  holds_pure h := .of_quiet (.pure h) (.of_ended fun _ _ h => by cases h)
  holds_bind hx hk := .bind hx hk
  holds_mono hP hx := hx.mono hP
  newFrame _ := .of_quiet (.newFrame _) (.of_ended fun _ _ h => by cases h)
  read _ _ _ := .of_quiet (.read _ _) (.of_ended fun _ _ h => by cases h)
  assign v _ _ _ := .of_quiet (.assign _ _ v) (.of_ended fun _ _ h => by cases h)
  apply v w _ _ := .of_quiet (.apply _ _ v w) (.apply _ _ v w)
  builtin vs hf hnode := .of_quiet (.builtin _ _ vs _) (.builtin (hbuiltins hf hnode) _ vs _)
  newObject vs _ _ := .of_quiet (.newObject _ vs) (.of_ended fun _ _ h => by cases h)
  readField v _ _ := .of_quiet (.readField v _) (.readField v _)
  writeField v w _ _ := .of_quiet (.writeField v _ w) (.writeField v _ w)
  raise v _ _ := .of_quiet (.raise v _) (.raise v _)
  unknown _ _ _ := .of_quiet (.faulty _) (.of_ended fun _ _ h => by cases h)
  arity _ _ _ _ := .of_quiet (.fail _ _) (.fail (fun _ h => by cases h) _)
  within _ _ _ _ hx := .within _ hx
  exhausted := .of_quiet .exhausted (.of_ended fun _ _ h => by cases h)

section

variable {program : LinkedProgram}

theorem enter_reports (hbuiltins : program.ReportsNoOverflow) (fuel : Nat) {key : FunctionKey}
    {f : LinkedFunction} (hf : program.at? key = some f) (args : List Value)
    (location : Option Location) :
    Reports (fun _ => True) (enter .adaptive program fuel key f args location) := by
  rw [enter_eq]
  exact .within _ ((overflows program hbuiltins).inside_holds fuel hf args)

/-- An overflow that ends a request reports the limit. -/
theorem answer_reports (hbuiltins : program.ReportsNoOverflow) {fuel : Nat} {s t : State}
    (hfits : s.Fits) {request : Request} {e : EvalError}
    (h : answer .adaptive program fuel s request = some (.error e, t)) {depth : Nat}
    (hkind : e.kind = .stackOverflow depth) :
    s.stack.maxDepth = some depth ∧ ReportsLimit depth e := by
  obtain ⟨key, f, args, hf, hrun⟩ | ⟨fault, hfault⟩ | ⟨name, expected, got, hfail⟩ := answer_inv h
  · have herror := congrArg Prod.fst hrun
    exact (enter_reports hbuiltins _ hf args none).overflow hfits herror hkind
  · cases hfault
  · cases hfail
    rw [kind_attach] at hkind
    cases hkind

end

end Machine

end AdaptiveScript
