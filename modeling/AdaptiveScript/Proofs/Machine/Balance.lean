import AdaptiveScript.Proofs.Machine.CallPath

/-! # The Call Stack Is Balanced

  Whatever a machine evaluates, and however the evaluation ends, the call
  stack is afterwards what it was before. In between, the calls that were
  live at the beginning stay the outermost ones, and the depth exceeds
  neither the limit nor the depth of the beginning, whichever is greater
  (`evaluations_balanced`). The machine may start with any stack and any
  limit, also one that its stack exceeds already.

  Moments are counted by the trace. The steps of a run are bracketed
  (`Bracketed`): a call that is entered is left again, with all calls that
  were entered inside it left before. That is what each step preserves, and
  what the live calls at every moment are read off from.
-/

namespace AdaptiveScript

namespace Machine

/-! ### Bracketed steps -/

/-- The live calls after a step that changes them. -/
def Event.calls? : Event → Option (List CallFrame)
  | .entered stack => some stack
  | .left stack => some stack
  | _ => none

/-- The live calls after some steps, the latest first, which began with the
calls `outer`. -/
def liveAfter (outer : List CallFrame) : List Event → List CallFrame
  | [] => outer
  | e :: earlier => (Event.calls? e).getD (liveAfter outer earlier)

/-- Steps, the latest first, in which every call that is entered is left
again. Each of them begins below the limit. -/
inductive Bracketed (limit : Option Nat) : List CallFrame → List Event → Prop where
  | nil (outer : List CallFrame) : Bracketed limit outer []
  | step {outer : List CallFrame} {e : Event} {earlier : List Event} :
    Event.calls? e = none → Bracketed limit outer earlier → Bracketed limit outer (e :: earlier)
  | call {outer : List CallFrame} {f : CallFrame} {inner earlier : List Event} :
    (∀ max, limit = some max → outer.length < max) → Bracketed limit (f :: outer) inner →
    Bracketed limit outer earlier →
    Bracketed limit outer (.left outer :: (inner ++ .entered (f :: outer) :: earlier))

namespace Bracketed

variable {limit : Option Nat} {outer : List CallFrame} {steps earlier : List Event}

theorem append (h : Bracketed limit outer steps) (hearlier : Bracketed limit outer earlier) :
    Bracketed limit outer (steps ++ earlier) := by
  induction h with
  | nil outer => exact hearlier
  | step he _ ih => exact .step he (ih hearlier)
  | @call outer f inner steps hlimit hinner _ _ ih =>
    have hsteps := Bracketed.call hlimit hinner (ih hearlier)
    rwa [List.cons_append, List.append_assoc, List.cons_append]

end Bracketed

theorem liveAfter_append (outer : List CallFrame) (steps earlier : List Event) :
    liveAfter outer (steps ++ earlier) = liveAfter (liveAfter outer earlier) steps := by
  induction steps with
  | nil => rfl
  | cons e steps ih => rw [List.cons_append, liveAfter, liveAfter, ih]

/-- A moment of two stretches of steps lies in the earlier one, or in the later
one after all of the earlier. -/
theorem moment_append {moment steps earlier : List Event} (h : moment <:+ steps ++ earlier) :
    moment <:+ earlier ∨ ∃ later, later <:+ steps ∧ moment = later ++ earlier := by
  rcases List.suffix_or_suffix_of_suffix h (List.suffix_append steps earlier) with hin | hafter
  · exact .inl hin
  · obtain ⟨later, hmoment⟩ := hafter
    obtain ⟨rest, hrest⟩ := h
    rw [← hmoment, ← List.append_assoc] at hrest
    exact .inr ⟨later, ⟨rest, List.append_cancel_right hrest⟩, hmoment.symm⟩

/-- The live calls at a moment of a run that began with the calls `outer`:
these are the outermost ones, and there are not too many. -/
structure LiveAt (limit : Option Nat) (outer live : List CallFrame) : Prop where
  outermost : outer <:+ live
  depth : ∀ max, limit = some max → live.length ≤ Nat.max outer.length max

theorem LiveAt.refl (limit : Option Nat) (outer : List CallFrame) : LiveAt limit outer outer where
  outermost := List.suffix_refl _
  depth _ _ := Nat.le_max_left _ _

/-- Calls that are live inside a further call. -/
theorem LiveAt.of_call {limit : Option Nat} {outer live : List CallFrame} {f : CallFrame}
    (hlimit : ∀ max, limit = some max → outer.length < max)
    (h : LiveAt limit (f :: outer) live) : LiveAt limit outer live where
  outermost := (List.suffix_cons f outer).trans h.outermost
  depth := by
    intro max hmax
    have hroom := hlimit max hmax
    have hdepth := h.depth max hmax
    have hcons : Nat.max (f :: outer).length max = max := Nat.max_eq_right hroom
    have houter : Nat.max outer.length max = max := Nat.max_eq_right (Nat.le_of_lt hroom)
    rw [hcons] at hdepth
    rw [houter]
    exact hdepth

/-- What the brackets say about every moment. -/
theorem Bracketed.liveAt {limit : Option Nat} {outer : List CallFrame} {steps : List Event}
    (h : Bracketed limit outer steps) {moment : List Event} (hmoment : moment <:+ steps) :
    LiveAt limit outer (liveAfter outer moment) := by
  induction h generalizing moment with
  | nil outer =>
    rw [List.suffix_nil.mp hmoment]
    exact .refl _ _
  | @step outer e earlier he _ ih =>
    rcases List.suffix_cons_iff.mp hmoment with hlast | hbefore
    · rw [hlast, liveAfter, he]
      exact ih (List.suffix_refl _)
    · exact ih hbefore
  | @call outer f inner earlier hlimit _ _ ihinner ihearlier =>
    rcases List.suffix_cons_iff.mp hmoment with hlast | hbefore
    · -- the call has just been left
      rw [hlast]
      exact .refl _ _
    rcases moment_append hbefore with hentered | ⟨later, hlater, hinside⟩
    · rcases List.suffix_cons_iff.mp hentered with hjust | hearlier
      · -- the call has just been entered
        rw [hjust]
        exact .of_call hlimit (.refl _ _)
      · exact ihearlier hearlier
    · rw [hinside, liveAfter_append]
      exact .of_call hlimit (ihinner hlater)

/-! ### Runs that keep the stack -/

/-- A stretch of a run that leaves the stack as it was, with its steps
bracketed. -/
structure Brackets (s s' : State) : Prop where
  stack : s'.stack = s.stack
  steps : ∃ steps, s'.trace = steps ++ s.trace ∧
    Bracketed s.stack.maxDepth s.stack.frames steps

namespace Brackets

variable {s s' s'' : State}

/-- A step that enters and leaves nothing, and is not in the trace. -/
theorem silent (hstack : s'.stack = s.stack) (htrace : s'.trace = s.trace) : Brackets s s' where
  stack := hstack
  steps := ⟨[], htrace, .nil _⟩

theorem refl (s : State) : Brackets s s := silent rfl rfl

theorem trans (h : Brackets s s') (h' : Brackets s' s'') : Brackets s s'' where
  stack := h'.stack.trans h.stack
  steps := by
    obtain ⟨steps, htrace, hsteps⟩ := h.steps
    obtain ⟨steps', htrace', hsteps'⟩ := h'.steps
    rw [h.stack] at hsteps'
    refine ⟨steps' ++ steps, ?_, hsteps'.append hsteps⟩
    rw [htrace', htrace, List.append_assoc]

theorem suffix (h : Brackets s s') : s.trace <:+ s'.trace := by
  obtain ⟨steps, htrace, -⟩ := h.steps
  exact ⟨steps, htrace.symm⟩

/-- A step that is in the trace, but is not about calls. -/
theorem record (h : Brackets s s') {e : Event} (he : Event.calls? e = none) :
    Brackets s (s'.record e) where
  stack := h.stack
  steps := by
    obtain ⟨steps, htrace, hsteps⟩ := h.steps
    refine ⟨e :: steps, ?_, .step he hsteps⟩
    show e :: s'.trace = e :: (steps ++ s.trace)
    rw [htrace]

theorem setFunction (s : State) (key : FunctionKey) (fs : FunctionState) :
    Brackets s (s.setFunction key fs) :=
  silent (State.stack_setFunction _ _ _) (State.trace_setFunction _ _ _)

theorem print (s : State) (text : String) : Brackets s (s.print text) where
  stack := rfl
  steps := ⟨[.printed text], rfl, .step rfl (.nil _)⟩

theorem printAll (s : State) (texts : List String) : Brackets s (s.printAll texts) := by
  induction texts generalizing s with
  | nil => exact refl s
  | cons text texts ih => exact (print s text).trans (ih (s.print text))

/-- A call that is entered and left. -/
theorem call {frame : CallFrame} {stack : CallStack} (hpush : s.stack.push frame = .ok stack)
    (h : Brackets (s.enter stack) s') : Brackets s s'.leave := by
  obtain ⟨hframes, hlimit, hpop⟩ := push_frames hpush
  have hstack : s'.leave.stack = s.stack := by
    show s'.stack.pop = s.stack
    rw [h.stack, ← hpop]
    rfl
  obtain ⟨inner, htrace, hinner⟩ := h.steps
  replace hinner : Bracketed stack.maxDepth stack.frames inner := hinner
  rw [hframes, hlimit] at hinner
  have hroom : ∀ max, s.stack.maxDepth = some max → s.stack.frames.length < max :=
    fun max hmax => push_below hpush hmax
  refine ⟨hstack, _, ?_, .call hroom hinner (.nil _)⟩
  show .left s'.leave.stack.frames :: s'.trace = _
  rw [hstack, htrace]
  show .left s.stack.frames :: (inner ++ .entered stack.frames :: s.trace) = _
  rw [hframes, List.cons_append, List.append_assoc]
  rfl

end Brackets

/-- A run that keeps the stack however it ends, and whose value is as
described if it has one. -/
structure Keeps {α : Type} (P : α → Prop) (x : Run α) : Prop where
  brackets : ∀ s, Brackets s (x s).2
  value : ∀ {s a}, (x s).1 = .ok a → P a

namespace Keeps

variable {α β : Type} {P : α → Prop} {Q : β → Prop} {p : Policy} {key : FunctionKey}

theorem mono {P' : α → Prop} (hP : ∀ a, P a → P' a) {x : Run α} (h : Keeps P x) :
    Keeps P' x where
  brackets := h.brackets
  value ha := hP _ (h.value ha)

theorem of_brackets {x : Run α} (h : ∀ s, Brackets s (x s).2) : Keeps (fun _ => True) x where
  brackets := h
  value _ := trivial

/-- A run that ends without a value where it is. -/
theorem of_ended {x : Run α} (hstate : ∀ s, (x s).2 = s) (hvalue : ∀ s a, (x s).1 ≠ .ok a) :
    Keeps P x where
  brackets s := by rw [hstate]; exact .refl s
  value ha := absurd ha (hvalue _ _)

theorem pure {a : α} (h : P a) : Keeps P (pure a : Run α) where
  brackets s := .refl s
  value ha := by
    cases ha
    exact h

theorem bind {x : Run α} {k : α → Run β} (hx : Keeps P x) (hk : ∀ a, P a → Keeps Q (k a)) :
    Keeps Q (x >>= k) where
  brackets s := by
    have hfirst := hx.brackets s
    rw [Run.bind_apply]
    rcases hout : x s with ⟨o, s'⟩
    rw [hout] at hfirst
    cases o with
    | ok a => exact hfirst.trans ((hk a (hx.value (congrArg Prod.fst hout))).brackets s')
    | _ => exact hfirst
  value := by
    intro s b hb
    rw [Run.bind_apply] at hb
    rcases hout : x s with ⟨o, s'⟩
    rw [hout] at hb
    cases o with
    | ok a => exact (hk a (hx.value (congrArg Prod.fst hout))).value hb
    | _ => cases hb

/-- An error of a sequence is one of its first part, or of the second part, which
starts with the same stack. -/
theorem bind_error {x : Run α} {k : α → Run β} (hx : Keeps P x) {s : State} {e : EvalError}
    (h : ((x >>= k) s).1 = .error e) :
    (x s).1 = .error e ∨ ∃ a s', P a ∧ s'.stack = s.stack ∧ (k a s').1 = .error e := by
  have hstack := (hx.brackets s).stack
  rw [Run.bind_apply] at h
  rcases hout : x s with ⟨o, s'⟩
  rw [hout] at h hstack
  cases o with
  | ok a => exact .inr ⟨a, s', hx.value (congrArg Prod.fst hout), hstack, h⟩
  | error e' =>
    cases h
    exact .inl rfl
  | fault f => cases h
  | outOfFuel => cases h

/-! Single steps. -/

theorem fail (e : EvalError) (here : Option Location) : Keeps P (Run.fail e here : Run α) :=
  of_ended (fun _ => rfl) (fun _ _ h => by cases h)

theorem faulty (f : Fault) : Keeps P (Run.faulty f : Run α) :=
  of_ended (fun _ => rfl) (fun _ _ h => by cases h)

theorem exhausted : Keeps P (Run.exhausted : Run α) :=
  of_ended (fun _ => rfl) (fun _ _ h => by cases h)

theorem unsupported (operation : String) (operands : List Value) :
    Keeps P (Run.unsupported operation operands : Run α) :=
  of_ended (fun _ => rfl) (fun _ _ h => by cases h)

theorem raise (v : Value) (location : Location) : Keeps P (raiseValue v location : Run α) where
  brackets _ := .silent rfl rfl
  value h := by cases h

theorem read (frame : Frame) (slot : Nat) : Keeps (fun _ => True) (readSlot p key frame slot) := by
  apply of_brackets
  intro s
  unfold readSlot
  split <;> exact .refl s

theorem assign (frame : Frame) (slot : Nat) (v : Value) :
    Keeps (fun _ => True) (assignSlot p key frame slot v) := by
  apply of_brackets
  intro s
  unfold assignSlot
  split
  · exact (Brackets.setFunction s key _).record rfl
  · exact .refl s

theorem apply (op : Operator) (site : Nat) (v w : Value) :
    Keeps (fun _ => True) (applyOperator p key op site v w) := by
  apply of_brackets
  intro s
  rw [applyOperator_eq, ofResult_snd]
  exact (Brackets.setFunction s key _).record rfl

theorem builtin (entry : Builtin.Entry) (inst : Nat) (vs : List Value) (location : Location) :
    Keeps (fun _ => True) (invokeBuiltin key entry inst vs location) := by
  apply of_brackets
  intro s
  rw [invokeBuiltin_eq, ofResult_snd]
  have hticked : Brackets s { s with readings := s.readings + 1 } := .silent rfl rfl
  exact hticked.trans (((Brackets.setFunction _ key _).record rfl).trans (.printAll _ _))

theorem newFrame (key : FunctionKey) : Keeps (fun _ => True) (Machine.newFrame key) :=
  of_brackets fun s => .refl s

theorem newObject (cls : ClassRef) (fields : List (String × Value)) :
    Keeps (fun _ => True) (Machine.newObject cls fields) :=
  of_brackets fun _ => .silent rfl rfl

theorem readField (v : Value) (name : String) :
    Keeps (fun _ => True) (Machine.readField v name) := by
  rcases readField_cases v name with ⟨id, hread⟩ | hfail
  · rw [hread]
    exact of_brackets fun s => .refl s
  · rw [hfail]
    exact unsupported _ _

theorem writeField (v : Value) (name : String) (w : Value) :
    Keeps (fun _ => True) (Machine.writeField v name w) := by
  rcases writeField_cases v name w with ⟨id, hwrite⟩ | hfail
  · rw [hwrite]
    exact of_brackets fun _ => .silent rfl rfl
  · rw [hfail]
    exact unsupported _ _

theorem within (frame : CallFrame) {x : Run α} (h : Keeps P x) :
    Keeps P (Run.within frame x) where
  brackets s := by
    cases hpush : s.stack.push frame with
    | error e =>
      rw [within_refused hpush]
      exact .refl s
    | ok stack =>
      rw [within_entered hpush]
      exact .call hpush (h.brackets _)
  value := by
    intro s a ha
    cases hpush : s.stack.push frame with
    | error e =>
      rw [within_refused hpush] at ha
      cases ha
    | ok stack =>
      rw [within_entered hpush] at ha
      exact h.value ha

end Keeps

/-! ### Evaluations -/

section

variable {p : Policy} {program : LinkedProgram}

/-- Runs inside activations keep the stack, whatever the policy. -/
def balance (p : Policy) (program : LinkedProgram) : Law p program where
  holds _ {_} P x := Keeps P x
  frame _ _ := True
  holds_pure h := .pure h
  holds_bind hx hk := .bind hx hk
  holds_mono hP hx := hx.mono hP
  newFrame _ := .newFrame _
  read _ _ _ := .read _ _
  assign v _ _ _ := .assign _ _ v
  apply v w _ _ := .apply _ _ v w
  builtin vs _ _ := .builtin _ _ vs _
  newObject vs _ _ := .newObject _ vs
  readField v _ _ := .readField v _
  writeField v w _ _ := .writeField v _ w
  raise v _ _ := .raise v _
  unknown _ _ _ := .faulty _
  arity _ _ _ _ := .fail _ _
  within _ _ _ _ hx := .within _ hx
  exhausted := .exhausted

theorem enter_keeps (p : Policy) (fuel : Nat) {key : FunctionKey} {f : LinkedFunction}
    (hf : program.at? key = some f) (args : List Value) (location : Option Location) :
    Keeps (fun _ => True) (enter p program fuel key f args location) := by
  rw [enter_eq]
  exact .within _ ((balance p program).inside_holds fuel hf args)

/-- What a request comes to: a function is entered, or the program does not
have it, or the number of arguments is wrong. -/
theorem answer_inv {fuel : Nat} {s : State} {request : Request} {out : Outcome Value × State}
    (h : answer p program fuel s request = some out) :
    (∃ key f args, program.at? key = some f ∧
        enter p program (s.budget fuel) key f args none s = out) ∨
      (∃ f, Run.faulty f s = out) ∨
      ∃ name expected got, Run.fail (.arityMismatch name expected got) none s = out := by
  cases request with
  | run => exact .inl ⟨.main, program.main, [], rfl, Option.some.inj h⟩
  | call name args =>
    obtain ⟨index, -, hcall⟩ := Option.map_eq_some_iff.mp h
    unfold callIndex callUser at hcall
    cases hg : program.functions[index]? with
    | none =>
      simp only [hg] at hcall
      exact .inr (.inl ⟨_, hcall⟩)
    | some g =>
      have hat : program.at? (.user index) = some g := hg
      simp only [hg] at hcall
      split at hcall
      · exact .inl ⟨_, g, args, hat, hcall⟩
      · exact .inr (.inr ⟨_, _, _, hcall⟩)

theorem answer_brackets {fuel : Nat} {s s' : State} {request : Request} {o : Outcome Value}
    (h : answer p program fuel s request = some (o, s')) : Brackets s s' := by
  obtain ⟨key, f, args, hf, hrun⟩ | ⟨fault, hfault⟩ | ⟨name, expected, got, hfail⟩ := answer_inv h
  · have hbrackets := (enter_keeps p (s.budget fuel) hf args none).brackets s
    rw [hrun] at hbrackets
    exact hbrackets
  · cases hfault
    exact .refl s
  · cases hfail
    exact .refl s

end

/-- The stack after an evaluation is the stack before it, and at every moment
of the evaluation the calls of the beginning are the outermost ones, with no
more live calls than the limit allows or there were at the beginning. -/
structure Balanced (s s' : State) : Prop where
  stack : s'.stack = s.stack
  moments : ∃ steps, s'.trace = steps ++ s.trace ∧ ∀ moment, moment <:+ steps →
    LiveAt s.stack.maxDepth s.stack.frames (liveAfter s.stack.frames moment)

theorem Brackets.balanced {s s' : State} (h : Brackets s s') : Balanced s s' := by
  obtain ⟨steps, htrace, hsteps⟩ := h.steps
  exact ⟨h.stack, steps, htrace, fun _ hmoment => hsteps.liveAt hmoment⟩

/-- Requests, statements and expressions of a program are balanced, from every
state and however they end. -/
theorem evaluations_balanced (p : Policy) (program : LinkedProgram) (fuel : Nat) (s : State) :
    (∀ request o s', answer p program fuel s request = some (o, s') → Balanced s s') ∧
      ∀ key f, program.at? key = some f → ∀ frame,
        (∀ stmt ∈ f.body,
          Balanced s (exec p (callUser program (enter p program fuel)) key frame stmt s).2) ∧
        ∀ n ∈ f.subnodes,
          Balanced s (eval p (callUser program (enter p program fuel)) key frame n s).2 := by
  constructor
  · intro request o s' h
    exact (answer_brackets h).balanced
  · intro key f hf frame
    constructor
    · intro stmt hstmt
      have hkeeps := (balance p program).exec_holds fuel hf (φ := frame) trivial hstmt
      exact (hkeeps.brackets s).balanced
    · intro n hn
      have hkeeps := (balance p program).eval_holds fuel hf (φ := frame) trivial hn
      exact (hkeeps.brackets s).balanced

/-! ### A descent into the limit -/

/-- A program whose only function calls itself. -/
def descent : Program :=
  { source := "main"
    functions :=
      [ { name := "down", source := "main", params := [0], locals := ["n"]
          body := [.ret (some (.call "down" [.var 0] 0 ⟨2, 10⟩))]
          siteCount := 0, callCount := 1 } ]
    main :=
      { name := programName, source := "main", params := [], locals := []
        body := [.expr (.call "down" [.lit (.int 7)] 0 ⟨5, 1⟩)], siteCount := 0, callCount := 1 } }

/-- The recursive call of `descent`. -/
def descentCall : Node := .call (.user 0) [.var 0] ⟨2, 10⟩

/-- The function of `descent`, linked. -/
def linkedDown : LinkedFunction :=
  { name := "down", source := "main", params := [0], locals := ["n"]
    body := [.ret (some descentCall)] }

/-- `descent`, linked. -/
def linkedDescent : LinkedProgram :=
  { source := "main"
    functions := #[linkedDown]
    main :=
      { name := programName, source := "main", params := [], locals := []
        body := [.expr (.call (.user 0) [.const (.int 7)] ⟨5, 1⟩)] }
    classes := [] }

/-- A state in which `descent` has not run, and a call of someone else is
live. -/
def descentInside : State :=
  { State.initial linkedDescent .interpret .empty .still with
    stack := .ofFrames [⟨"host", "other", none⟩] (some 3) }

/-- What `descent` does when it calls itself there. -/
def descentCaller : Caller := callUser linkedDescent (enter .adaptive linkedDescent 9)

/-- Inside another call, `descent` and its statement and expression end in an
error, and are balanced all the same. -/
theorem descent_balanced :
    descent.linkFrom 0 .core = .ok linkedDescent ∧
      (∃ e s', answer .adaptive linkedDescent 9 descentInside .run = some (.error e, s') ∧
        e.kind = .stackOverflow 3 ∧ Balanced descentInside s') ∧
      linkedDescent.at? (.user 0) = some linkedDown ∧ .ret (some descentCall) ∈ linkedDown.body ∧
      descentCall ∈ linkedDown.subnodes ∧
      Balanced descentInside (exec .adaptive descentCaller (.user 0) (.ofSize 1)
        (.ret (some descentCall)) descentInside).2 ∧
      Balanced descentInside
        (eval .adaptive descentCaller (.user 0) (.ofSize 1) descentCall descentInside).2 := by
  have hlink : descent.linkFrom 0 .core = .ok linkedDescent := rfl
  have hat : linkedDescent.at? (.user 0) = some linkedDown := rfl
  have hstmt : .ret (some descentCall) ∈ linkedDown.body := List.mem_cons_self
  have hnode : descentCall ∈ linkedDown.subnodes := List.mem_cons_self
  have hbalanced := evaluations_balanced .adaptive linkedDescent 9 descentInside
  have hinside := hbalanced.2 (.user 0) linkedDown hat (.ofSize 1)
  have houtcome : (answer .adaptive linkedDescent 9 descentInside .run).map (·.1) =
      some (.error { kind := .stackOverflow 3,
                     backtrace := some [⟨"down", "main", none⟩,
                       ⟨programName, "main", some ⟨5, 1⟩⟩, ⟨"host", "other", none⟩] }) := by
    rfl
  refine ⟨hlink, ?_, hat, hstmt, hnode, hinside.1 _ hstmt, hinside.2 _ hnode⟩
  obtain ⟨⟨o, s'⟩, hanswer, ho⟩ := Option.map_eq_some_iff.mp houtcome
  cases ho
  exact ⟨_, s', hanswer, rfl, hbalanced.1 _ _ _ hanswer⟩

end Machine

end AdaptiveScript
