import AdaptiveScript.Proofs.Machine.Path

/-! # Printing and Evaluation

  Output does not influence evaluation. A program over the core builtins prints
  by calling `print` and in no other way, one text for each call. So a run with
  any sink makes the same steps and has the same outcome, and what it prints are
  the texts of the calls of `print` among its steps, in order: a buffer keeps
  them after what it has kept before, standard output receives them, and a
  silent sink drops them (`answer_any_output`).

  Which calls were made, and with what arguments, is read off the trace, where
  every call of a builtin leaves what it was given. The texts follow from these
  arguments (`Event.printText?`), and not from what was printed.
-/

namespace AdaptiveScript

namespace Builtin

/-- Of the core builtins only `print` prints: one text for a call. -/
theorem core_printed {entry : Entry} (hentry : entry ∈ core) (i : Invocation) :
    (entry.invoke i).printed = if entry.name = "print" then [printText i.names i.args] else [] := by
  -- all builtins but `print` leave their answer's list of texts empty
  have hquiet : (∀ j, (entry.run j).printed = []) → entry.name ≠ "print" →
      (entry.invoke i).printed =
        if entry.name = "print" then [printText i.names i.args] else [] := by
    intro hrun hname
    rw [if_neg hname, Entry.invoke]
    split
    · exact hrun i
    · rfl
  simp only [core, List.mem_cons, List.not_mem_nil, or_false] at hentry
  rcases hentry with rfl | rfl | rfl | rfl | rfl | rfl | rfl | rfl
  · exact hquiet (fun _ => rfl) (by decide)
  · rfl
  · exact hquiet (fun _ => rfl) (by decide)
  · refine hquiet (fun j => ?_) (by decide)
    show (abs j).printed = []
    unfold abs
    split <;> rfl
  · exact hquiet (fun _ => rfl) (by decide)
  · exact hquiet (fun _ => rfl) (by decide)
  · exact hquiet (fun _ => rfl) (by decide)
  · refine hquiet (fun j => ?_) (by decide)
    show (id j).printed = []
    unfold id
    split <;> rfl

/-- The arguments that are nil are left out. -/
theorem printText_eq (names : ClassNames) (args : List Value) :
    printText names args = String.intercalate " " (args.filterMap fun v =>
      match v with
      | .nil => none
      | v => some (v.display names)) := by
  rw [printText]
  congr 1
  induction args with
  | nil => rfl
  | cons v args ih =>
    cases v with
    | nil => exact ih
    | _ => exact congrArg _ ih

end Builtin

/-! ### The calls of `print` in a trace -/

/-- The text of a call of `print`: its arguments that are not nil, as they are
shown at the time of the call, with single spaces between them. -/
def Event.printText? : Event → Option String
  | .invoked _ _ builtin given =>
    if builtin = "print" then
      some (String.intercalate " " (given.args.filterMap fun v =>
        match v with
        | .nil => none
        | v => some (v.display given.names)))
    else none
  | _ => none

/-- The texts of the calls of `print` in a trace, the first one first. -/
def printTexts (trace : List Event) : List String := trace.reverse.filterMap Event.printText?

theorem printTexts_append (later earlier : List Event) :
    printTexts (later ++ earlier) = printTexts earlier ++ printTexts later := by
  rw [printTexts, List.reverse_append, List.filterMap_append]
  rfl

namespace Machine

variable {p : Policy} {program : LinkedProgram}

theorem State.trace_printAll (s : State) (texts : List String) :
    (s.printAll texts).trace = (texts.map Event.printed).reverse ++ s.trace := by
  induction texts generalizing s with
  | nil => rfl
  | cons text texts ih =>
    show ((s.print text).printAll texts).trace = _
    rw [ih, List.map_cons, List.reverse_cons, List.append_assoc]
    rfl

/-! ### The steps of a path -/

/-- A call of a builtin that is among the steps of a run is one of its actions,
and was given what the state held at that time. -/
def OnPath (p : Policy) (path : List Action) (s : State) : Event → Prop
  | .invoked key inst builtin given => ∃ before entry location after,
    path = before ++ .invoke key entry inst given.args location :: after ∧
      entry.name = builtin ∧ given = invocation key inst given.args (Action.performAll p before s)
  | _ => True

theorem OnPath.append_right {path : List Action} {s : State} {e : Event} (h : OnPath p path s e)
    (path' : List Action) : OnPath p (path ++ path') s e := by
  cases e with
  | invoked key inst builtin given =>
    obtain ⟨before, entry, location, after, rfl, hname, hgiven⟩ := h
    refine ⟨before, entry, location, after ++ path', ?_, hname, hgiven⟩
    rw [List.append_assoc, List.cons_append]
  | _ => trivial

theorem OnPath.cons {a : Action} {path : List Action} {s : State} {e : Event}
    (h : OnPath p path (a.perform p s) e) : OnPath p (a :: path) s e := by
  cases e with
  | invoked key inst builtin given =>
    obtain ⟨before, entry, location, after, rfl, hname, hgiven⟩ := h
    exact ⟨a :: before, entry, location, after, rfl, hname, hgiven⟩
  | _ => trivial

/-- The steps that a path adds to the trace of a state: the calls of builtins
are actions of the path, and those of `print` have the texts that the path
prints. -/
structure Traces (p : Policy) (path : List Action) (s s' : State) (texts : List String)
    (steps : List Event) : Prop where
  trace : s'.trace = steps ++ s.trace
  calls : ∀ e ∈ steps, OnPath p path s e
  texts : printTexts steps = texts

namespace Traces

variable {path : List Action} {s s' s'' : State} {texts texts' : List String}

/-- No step, or one that is not a call of a builtin. -/
theorem quiet {steps : List Event} (htrace : s'.trace = steps ++ s.trace)
    (hsteps : ∀ e ∈ steps, ∀ key inst builtin given, e ≠ .invoked key inst builtin given) :
    Traces p path s s' [] steps where
  trace := htrace
  calls e he := by
    cases e with
    | invoked key inst builtin given => exact absurd rfl (hsteps _ he key inst builtin given)
    | _ => trivial
  texts := by
    refine List.filterMap_eq_nil_iff.mpr fun e he => ?_
    rw [List.mem_reverse] at he
    cases e with
    | invoked key inst builtin given => exact absurd rfl (hsteps _ he key inst builtin given)
    | _ => rfl

theorem cons {a : Action} {earlier later : List Event}
    (h : Traces p [a] s (a.perform p s) texts earlier)
    (h' : Traces p path (a.perform p s) s' texts' later) :
    Traces p (a :: path) s s' (texts ++ texts') (later ++ earlier) where
  trace := by rw [h'.trace, h.trace, List.append_assoc]
  calls e he := by
    rcases List.mem_append.mp he with he | he
    · exact (h'.calls e he).cons
    · exact (h.calls e he).append_right path
  texts := by rw [printTexts_append, h.texts, h'.texts]

/-- A call of a core builtin. -/
theorem invoke {key : FunctionKey} {entry : Builtin.Entry} (hentry : entry ∈ Builtin.core)
    (inst : Nat) (vs : List Value) (location : Location) (s : State) :
    Traces p [.invoke key entry inst vs location] s
      ((Action.invoke key entry inst vs location).perform p s)
      (builtinReply key entry inst vs s).printed
      (((builtinReply key entry inst vs s).printed.map Event.printed).reverse ++
        [invokedEvent key entry inst vs s]) where
  trace := by
    rw [Action.perform, invokeBuiltin_eq, ofResult_snd, afterReply, State.trace_printAll,
      State.record, State.trace_setFunction, List.append_assoc, List.singleton_append]
  calls e he := by
    rcases List.mem_append.mp he with he | he
    · rw [List.mem_reverse, List.mem_map] at he
      obtain ⟨text, -, rfl⟩ := he
      trivial
    · rw [List.mem_singleton] at he
      subst he
      exact ⟨[], entry, location, [], rfl, rfl, rfl⟩
  texts := by
    have hprinted : ∀ texts : List String,
        printTexts (texts.map Event.printed).reverse = [] := by
      intro texts
      rw [printTexts, List.reverse_reverse, List.filterMap_map]
      exact List.filterMap_eq_nil_iff.mpr fun _ _ => rfl
    -- the text of the call is what `print` yields, and the others yield no text
    have hcall : printTexts [invokedEvent key entry inst vs s] =
        (builtinReply key entry inst vs s).printed := by
      rw [builtinReply, Builtin.core_printed hentry, Builtin.printText_eq]
      by_cases hname : entry.name = "print"
      · rw [if_pos hname]
        simp only [printTexts, invokedEvent, List.reverse_singleton, List.filterMap_cons,
          Event.printText?, if_pos hname, List.filterMap_nil]
      · rw [if_neg hname]
        simp only [printTexts, invokedEvent, List.reverse_singleton, List.filterMap_cons,
          Event.printText?, if_neg hname, List.filterMap_nil]
    rw [printTexts_append, hprinted, hcall, List.append_nil]

end Traces

namespace Action

/-- The steps of a single action. -/
theorem traces (hplaced : ∀ {key f}, program.at? key = some f → f.Placed .core) {a : Action}
    (ha : a.Of program) (s : State) :
    ∃ steps, Traces p [a] s (a.perform p s) (a.texts s) steps := by
  cases a with
  | assign key frame slot v =>
    cases hassign : p.assign (s.function key) frame slot v with
    | none =>
      refine ⟨[], .quiet ?_ (by simp)⟩
      simp only [perform, assignSlot, hassign, List.nil_append]
    | some out =>
      refine ⟨[.assigned key slot v], .quiet ?_ (by simp)⟩
      simp only [perform, assignSlot, hassign, State.record, State.trace_setFunction,
        List.singleton_append]
  | apply key op site v w =>
    refine ⟨[.applied key site v w], .quiet ?_ (by simp)⟩
    rw [perform, applyOperator_eq, ofResult_snd, State.record, State.trace_setFunction,
      List.singleton_append]
  | invoke key entry inst vs location =>
    obtain ⟨f, args, hf, hnode⟩ := ha
    exact ⟨_, .invoke ((hplaced hf).builtin_declared hnode) inst vs location s⟩
  | make cls fields => exact ⟨[], .quiet rfl (by simp)⟩
  | write target name v =>
    refine ⟨[], .quiet ?_ (by simp)⟩
    rcases writeField_cases target name v with ⟨id, hwrite⟩ | hfail
    · rw [perform, hwrite, List.nil_append]
    · rw [perform, hfail]
      rfl
  | raise v location => exact ⟨[], .quiet rfl (by simp)⟩
  | enter frame =>
    cases hpush : s.stack.push frame with
    | ok stack =>
      refine ⟨[.entered stack.frames], .quiet ?_ (by simp)⟩
      simp only [perform, hpush]
      rfl
    | error e =>
      refine ⟨[], .quiet ?_ (by simp)⟩
      simp only [perform, hpush, List.nil_append]
  | leave => exact ⟨[.left s.stack.pop.frames], .quiet rfl (by simp)⟩

/-- The steps of a path, by induction on it. -/
theorem traces_all (hplaced : ∀ {key f}, program.at? key = some f → f.Placed .core)
    {path : List Action} (hpath : ∀ a ∈ path, a.Of program) (s : State) :
    ∃ steps, Traces p path s (performAll p path s) (textsAll p path s) steps := by
  -- a trace has its latest step first, so the steps of the rest of the path come before
  induction path generalizing s with
  | nil => exact ⟨[], .quiet rfl (by simp)⟩
  | cons a path ih =>
    rw [List.forall_mem_cons] at hpath
    obtain ⟨earlier, hearlier⟩ := traces (p := p) hplaced hpath.1 s
    obtain ⟨later, hlater⟩ := ih hpath.2 (a.perform p s)
    exact ⟨later ++ earlier, hearlier.cons hlater⟩

end Action

/-! ### Requests with any output -/

/-- A request with any sink: it has the same outcome and leads to the same state
but for the output, to which the texts are added. -/
structure AnyOutput (p : Policy) (program : LinkedProgram) (fuel : Nat) (s : State)
    (request : Request) (o : Outcome Value) (s' : State) (texts : List String) : Prop where
  buffer : ∀ kept stdout,
    answer p program fuel (s.withOutput (.buffer kept) stdout) request =
      some (o, s'.withOutput (.buffer (kept ++ String.join texts)) stdout)
  stdout : ∀ stdout,
    answer p program fuel (s.withOutput .stdout stdout) request =
      some (o, s'.withOutput .stdout (stdout ++ String.join texts))
  silent : ∀ stdout,
    answer p program fuel (s.withOutput .silent stdout) request =
      some (o, s'.withOutput .silent stdout)

/-- A request to a program over the core builtins makes the same steps with any
sink, and prints the texts of the calls of `print` among them. The steps are
those of a path of actions that belong to nodes of the program, and each call of
a builtin among them is recorded with the arguments that it was given. The runs
that are compared share the readings of the clock, the addresses of objects and
the hasher. -/
theorem answer_any_output {firstClass : Nat} {source : Program}
    (hlink : source.linkFrom firstClass .core = .ok program) {fuel : Nat} {s s' : State}
    {request : Request} {o : Outcome Value} (h : answer p program fuel s request = some (o, s')) :
    ∃ (path : List Action) (steps : List Event),
      (∀ a ∈ path, a.Of program) ∧ s' = Action.performAll p path s ∧
      s'.trace = steps ++ s.trace ∧ (∀ e ∈ steps, OnPath p path s e) ∧
      AnyOutput p program fuel s request o s' (printTexts steps) := by
  obtain ⟨path, hof, hself, hpath⟩ := answer_performs h
  obtain ⟨steps, htrace, hcalls, htexts⟩ :=
    Action.traces_all (p := p) (Program.linkFrom_placed hlink) hof s
  rw [← hself] at htrace
  have hany : ∀ sink stdout, answer p program fuel (s.withOutput sink stdout) request =
      some (o, s'.withOutput (sink.after (printTexts steps))
        (stdout ++ sink.written (printTexts steps))) := by
    intro sink stdout
    rw [hpath, Action.performAll_withOutput, ← hself, htexts]
  refine ⟨path, steps, hof, hself, htrace, hcalls, ?_, ?_, ?_⟩
  · intro kept stdout
    rw [hany, Sink.written, String.append_empty]
    rfl
  · intro stdout
    exact hany .stdout stdout
  · intro stdout
    rw [hany, Sink.written, String.append_empty]
    rfl

/-! ### A run that prints and fails -/

/-- A program that prints in an argument of a call of `print`, and fails before
it could print once more. -/
def interrupted : Program :=
  { source := "main"
    functions := []
    main :=
      { name := programName, source := "main", params := [], locals := []
        body :=
          [ .expr (.call "print" [.lit (.str "a"), .call "print" [.lit (.str "b")] 1 ⟨1, 12⟩,
              .lit (.int 3)] 0 ⟨1, 1⟩),
            .raise (.lit (.str "stop")) ⟨2, 1⟩,
            .expr (.call "print" [.lit (.str "never")] 2 ⟨3, 1⟩) ]
        siteCount := 0, callCount := 3 } }

/-- The declaration of `print`. -/
def printEntry : Builtin.Entry :=
  { name := "print", variadic := true, arity := 0, run := Builtin.print }

/-- `interrupted`, linked. -/
def linkedInterrupted : LinkedProgram :=
  { source := "main"
    functions := #[]
    main :=
      { name := programName, source := "main", params := [], locals := []
        body :=
          [ .expr (.call (.builtin printEntry 1) [.const (.str "a"),
              .call (.builtin printEntry 0) [.const (.str "b")] ⟨1, 12⟩, .const (.int 3)] ⟨1, 1⟩),
            .raise (.const (.str "stop")) ⟨2, 1⟩,
            .expr (.call (.builtin printEntry 2) [.const (.str "never")] ⟨3, 1⟩) ] }
    classes := [] }

/-- The state in which `interrupted` starts, as a test. -/
def interruptedStart : State :=
  .initial linkedInterrupted .testRun .empty .still

/-- The two calls that were made have a text each: that of the inner call comes
first, and its result, which is nil, is left out of the outer one. The texts of
before the error are kept. -/
theorem interrupted_any_output :
    interrupted.linkFrom 0 .core = .ok linkedInterrupted ∧
      ∃ e s', answer .adaptive linkedInterrupted 0 interruptedStart .run = some (.error e, s') ∧
        printTexts s'.trace = ["b", "a 3"] ∧
        AnyOutput .adaptive linkedInterrupted 0 interruptedStart .run (.error e) s'
          ["b", "a 3"] := by
  have hlink : interrupted.linkFrom 0 .core = .ok linkedInterrupted := rfl
  obtain ⟨e, s', hanswer⟩ : ∃ e s', answer .adaptive linkedInterrupted 0 interruptedStart .run =
      some (.error e, s') := ⟨_, _, rfl⟩
  obtain ⟨path, steps, -, -, htrace, -, hany⟩ := answer_any_output hlink hanswer
  -- the machine starts with an empty trace
  have hsteps : s'.trace = steps := htrace.trans (List.append_nil steps)
  have htexts : (answer .adaptive linkedInterrupted 0 interruptedStart .run).map
      (printTexts ·.2.trace) = some ["b", "a 3"] := by
    decide +kernel
  rw [hanswer] at htexts
  replace htexts : printTexts s'.trace = ["b", "a 3"] := Option.some.inj htexts
  rw [← hsteps, htexts] at hany
  exact ⟨hlink, e, s', hanswer, htexts, hany⟩

end Machine

end AdaptiveScript
