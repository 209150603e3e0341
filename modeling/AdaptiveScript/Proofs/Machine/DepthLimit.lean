import AdaptiveScript.Proofs.Machine.Overflow

/-! # The Depth Limit Only Cuts Off

  A request is answered under a depth limit `m`, and again from the same
  state under a greater limit or none. Unless the first answer is the error
  of the limit, the two answers are the same, and so are the states after
  them. If it is, the error names the limit and the calls that it allowed,
  and the second run, if it ends otherwise, had more than `m` calls live at
  some moment (`answer_under_limits`). What the error names supposes that no
  builtin answers with an error of its own of that kind; one that is declared
  beside the core may do so, and name any limit (`refusing_names_other_limit`).

  The two runs go in lockstep until the first one is refused a call. The
  second one enters that call, with which more than `m` calls are live, and
  whatever it does from there on, its trace keeps the moment. Whether a call
  is refused depends on the depth, and so does the fuel that is left; the
  relation between the runs is therefore a family, with one member for every
  depth (`cuttingOff`), and the induction goes from the limit outwards
  (`enter_cutsOff`).
-/

namespace AdaptiveScript

namespace Machine

/-! ### Changing the limit -/

/-- The state with another depth limit. -/
def State.withLimit (s : State) (limit : Option Nat) : State :=
  { s with stack := { s.stack with maxDepth := limit } }

section

variable {s : State} {limit : Option Nat}

theorem State.function_withLimit (key : FunctionKey) :
    (s.withLimit limit).function key = s.function key := by
  cases key <;> rfl

theorem State.setFunction_withLimit (key : FunctionKey) (fs : FunctionState) :
    (s.withLimit limit).setFunction key fs = (s.setFunction key fs).withLimit limit := by
  cases key <;> rfl

theorem State.record_withLimit (e : Event) :
    (s.record e).withLimit limit = (s.withLimit limit).record e := rfl

theorem State.printAll_withLimit (texts : List String) :
    (s.withLimit limit).printAll texts = (s.printAll texts).withLimit limit := by
  induction texts generalizing s with
  | nil => rfl
  | cons text texts ih =>
    have hprint : (s.withLimit limit).print text = (s.print text).withLimit limit := rfl
    show ((s.withLimit limit).print text).printAll texts =
      ((s.print text).printAll texts).withLimit limit
    rw [hprint, ih]

theorem State.enter_withLimit (s : State) (frames : List CallFrame) (limit limit' : Option Nat) :
    (s.withLimit limit').enter (.ofFrames frames limit') =
      (s.enter (.ofFrames frames limit)).withLimit limit' := rfl

theorem State.leave_withLimit (s : State) (limit : Option Nat) :
    (s.withLimit limit).leave = s.leave.withLimit limit := rfl

theorem ofResult_withLimit {α : Type} (s : State) (limit : Option Nat) (here : Option Location)
    (result : Except EvalError α) :
    Run.ofResult here result (s.withLimit limit) =
      ((Run.ofResult here result s).1, (Run.ofResult here result s).2.withLimit limit) := by
  cases result <;> rfl

end

/-- A call goes in where there is room for it. -/
theorem push_of_room (stack : CallStack)
    (h : ∀ max, stack.maxDepth = some max → stack.frames.length < max) (frame : CallFrame) :
    stack.push frame = .ok (.ofFrames (frame :: stack.frames) stack.maxDepth) := by
  obtain ⟨frames, maxDepth, depth, hdepth⟩ := stack
  subst hdepth
  have hroom : CallStack.isFull ⟨frames, maxDepth, frames.length, rfl⟩ = false := by
    unfold CallStack.isFull
    cases maxDepth with
    | none => rfl
    | some max =>
      have hlt : frames.length < max := h max rfl
      exact decide_eq_false (by show ¬ max ≤ frames.length; omega)
  unfold CallStack.push
  rw [hroom]
  rfl

/-- Where there is no room, the error names the limit. -/
theorem push_full {stack : CallStack} (frame : CallFrame) {max : Nat}
    (hmax : stack.maxDepth = some max) (h : max ≤ stack.frames.length) :
    ∃ e, stack.push frame = .error e ∧ e.kind = .stackOverflow max := by
  cases hpush : stack.push frame with
  | ok stack' =>
    have hbelow := push_below hpush hmax
    omega
  | error e =>
    obtain ⟨max', hmax', -, he⟩ := push_error hpush
    rw [hmax] at hmax'
    cases hmax'
    exact ⟨e, rfl, by rw [he, kind_attach]; rfl⟩

/-! ### Steps that do not look at the limit -/

/-- A run that does not look at the depth limit, and does not run out of
fuel. -/
structure LimitFree {α : Type} (x : Run α) : Prop where
  commutes : ∀ s limit, x (s.withLimit limit) = ((x s).1, (x s).2.withLimit limit)
  ends : ∀ s, (x s).1 ≠ .outOfFuel

namespace LimitFree

variable {α : Type} {p : Policy} {key : FunctionKey}

theorem ofResult_ne (here : Option Location) (result : Except EvalError α) (s : State) :
    (Run.ofResult here result s).1 ≠ .outOfFuel := by
  cases result <;> exact fun h => by cases h

theorem faulty (f : Fault) : LimitFree (Run.faulty f : Run α) where
  commutes _ _ := rfl
  ends _ h := by cases h

theorem fail (e : EvalError) (here : Option Location) : LimitFree (Run.fail e here : Run α) where
  commutes _ _ := rfl
  ends _ h := by cases h

theorem unsupported (operation : String) (operands : List Value) :
    LimitFree (Run.unsupported operation operands : Run α) where
  commutes _ _ := rfl
  ends _ h := by cases h

theorem newFrame (key : FunctionKey) : LimitFree (Machine.newFrame key) where
  commutes s limit := by
    unfold Machine.newFrame
    rw [State.function_withLimit]
  ends _ h := by cases h

theorem read (frame : Frame) (slot : Nat) : LimitFree (readSlot p key frame slot) where
  commutes s limit := by
    unfold readSlot
    rw [State.function_withLimit]
    split <;> rfl
  ends s := by
    unfold readSlot
    split <;> exact fun h => by cases h

theorem assign (frame : Frame) (slot : Nat) (v : Value) :
    LimitFree (assignSlot p key frame slot v) where
  commutes s limit := by
    unfold assignSlot
    rw [State.function_withLimit]
    split
    · rw [State.setFunction_withLimit]
      rfl
    · rfl
  ends s := by
    unfold assignSlot
    split <;> exact fun h => by cases h

theorem apply (op : Operator) (site : Nat) (v w : Value) :
    LimitFree (applyOperator p key op site v w) where
  commutes s limit := by
    rw [applyOperator_eq, applyOperator_eq, State.function_withLimit, State.setFunction_withLimit]
    exact ofResult_withLimit ((s.setFunction key _).record (.applied key site v w)) limit none _
  ends s := ofResult_ne _ _ _

theorem builtin (entry : Builtin.Entry) (inst : Nat) (vs : List Value) (location : Location) :
    LimitFree (invokeBuiltin key entry inst vs location) where
  commutes s limit := by
    have hgiven : invocation key inst vs (s.withLimit limit) = invocation key inst vs s := by
      simp only [invocation, State.function_withLimit]
      rfl
    have hafter : ∀ e reply, afterReply key inst e reply (s.withLimit limit) =
        (afterReply key inst e reply s).withLimit limit := by
      intro e reply
      unfold afterReply
      rw [State.function_withLimit, ← State.printAll_withLimit, State.record_withLimit,
        ← State.setFunction_withLimit]
      rfl
    rw [invokeBuiltin_eq, invokeBuiltin_eq, builtinReply, builtinReply, invokedEvent, invokedEvent,
      hgiven, hafter]
    exact ofResult_withLimit _ limit _ _
  ends s := ofResult_ne _ _ _

theorem newObject (cls : ClassRef) (fields : List (String × Value)) :
    LimitFree (Machine.newObject cls fields) where
  commutes _ _ := rfl
  ends _ h := by cases h

theorem readField (v : Value) (name : String) : LimitFree (Machine.readField v name) := by
  rcases readField_cases v name with ⟨id, hread⟩ | hfail
  · rw [hread]
    exact ⟨fun _ _ => rfl, fun _ h => by cases h⟩
  · rw [hfail]
    exact unsupported _ _

theorem writeField (v : Value) (name : String) (w : Value) :
    LimitFree (Machine.writeField v name w) := by
  rcases writeField_cases v name w with ⟨id, hwrite⟩ | hfail
  · rw [hwrite]
    exact ⟨fun _ _ => rfl, fun _ h => by cases h⟩
  · rw [hfail]
    exact unsupported _ _

end LimitFree

/-! ### Two runs in lockstep -/

/-- Between the states a call was entered with which more than `m` calls were
live. -/
def Exceeds (m : Nat) (t t' : State) : Prop :=
  ∃ steps calls, t'.trace = steps ++ t.trace ∧ .entered calls ∈ steps ∧ m < calls.length

/-- A longer stretch of a run has the same moments, and more. -/
theorem Exceeds.widen {m : Nat} {t₀ t t' t₁ : State} (h : Exceeds m t t')
    (hbefore : t₀.trace <:+ t.trace) (hafter : t'.trace <:+ t₁.trace) : Exceeds m t₀ t₁ := by
  obtain ⟨steps, calls, hsteps, hentered, hdepth⟩ := h
  obtain ⟨earlier, hearlier⟩ := hbefore
  obtain ⟨later, hlater⟩ := hafter
  refine ⟨later ++ steps ++ earlier, calls, ?_, ?_, hdepth⟩
  · rw [← hlater, hsteps, ← hearlier, List.append_assoc, List.append_assoc]
  · exact List.mem_append_left _ (List.mem_append_right _ hentered)

/-- How two runs from the same state end, the first one under the limit `m`
and the second one under `limit`: alike, unless the first one was refused a
call that the second one entered, or the second one had not enough fuel. -/
inductive Cut (m : Nat) (limit : Option Nat) (enough : Prop) {α β : Type} (R : α → β → Prop)
    (s : State) : Outcome α × State → Outcome β × State → Prop where
  | ok {a : α} {b : β} {s' : State} : R a b → s'.stack = s.stack →
    Cut m limit enough R s (.ok a, s') (.ok b, s'.withLimit limit)
  | error (e : EvalError) {s' : State} :
    Cut m limit enough R s (.error e, s') (.error e, s'.withLimit limit)
  | fault (f : Fault) {s' : State} :
    Cut m limit enough R s (.fault f, s') (.fault f, s'.withLimit limit)
  | cut {e : EvalError} {s' : State} {out : Outcome β × State} :
    e.kind = .stackOverflow m → Exceeds m s out.2 → Cut m limit enough R s (.error e, s') out
  | starved {out : Outcome α × State} {t' : State} : ¬ enough →
    Cut m limit enough R s out (.outOfFuel, t')

/-- The two runs end alike. -/
theorem Cut.same {m : Nat} {limit : Option Nat} {enough : Prop} {α : Type} {s s' : State}
    {o : Outcome α} (hends : o ≠ .outOfFuel) (hstack : s'.stack = s.stack) :
    Cut m limit enough Eq s (o, s') (o, s'.withLimit limit) := by
  cases o with
  | ok a => exact .ok rfl hstack
  | error e => exact .error e
  | fault f => exact .fault f
  | outOfFuel => exact absurd rfl hends

/-- How they end, seen from an earlier state with the same live calls. -/
theorem Cut.earlier {m : Nat} {limit : Option Nat} {enough : Prop} {α β : Type} {R : α → β → Prop}
    {s s' : State} {out : Outcome α × State} {out' : Outcome β × State}
    (h : Cut m limit enough R s' out out') (hstack : s'.stack = s.stack)
    (hgrows : s.trace <:+ s'.trace) : Cut m limit enough R s out out' := by
  cases h with
  | ok hab hkept => exact .ok hab (hkept.trans hstack)
  | error e => exact .error e
  | fault f => exact .fault f
  | cut hkind hexceeds => exact .cut hkind (hexceeds.widen hgrows (List.suffix_refl _))
  | starved hfuel => exact .starved hfuel

/-- Runs that are cut off in this way when they begin with `depth` live calls.
What the second run does after the first one has ended is not known, except
that it keeps the stack, and with it the moments that it had. -/
structure CutsOff (m : Nat) (limit : Option Nat) (enough : Prop) (depth : Nat) {α β : Type}
    (R : α → β → Prop) (x : Run α) (y : Run β) : Prop where
  own : Keeps (fun b => ∃ a, R a b) y
  ends : ∀ {s : State}, s.stack.maxDepth = some m → s.stack.frames.length = depth →
    Cut m limit enough R s (x s) (y (s.withLimit limit))

namespace CutsOff

variable {m depth : Nat} {limit : Option Nat} {enough : Prop} {α β γ δ : Type}
  {R : α → β → Prop} {R' : γ → δ → Prop}

theorem pure {a : α} {b : β} (h : R a b) :
    CutsOff m limit enough depth R (pure a : Run α) (pure b : Run β) where
  own := .pure ⟨a, h⟩
  ends _ _ := .ok h rfl

theorem bind {x : Run α} {y : Run β} {k : α → Run γ} {l : β → Run δ}
    (hx : CutsOff m limit enough depth R x y)
    (hk : ∀ a b, R a b → CutsOff m limit enough depth R' (k a) (l b)) :
    CutsOff m limit enough depth R' (x >>= k) (y >>= l) where
  own := hx.own.bind fun b ⟨a, hab⟩ => (hk a b hab).own
  ends := by
    intro s hmax hdepth
    have hfirst := hx.ends hmax hdepth
    have hgrows := (hx.own.brackets (s.withLimit limit)).suffix
    rw [Run.bind_apply, Run.bind_apply]
    rcases hxs : x s with ⟨o, s'⟩
    rcases hyt : y (s.withLimit limit) with ⟨o', t'⟩
    rw [hxs, hyt] at hfirst
    rw [hyt] at hgrows
    cases hfirst with
    | @ok a b _ hab hstack =>
      have hmax' : s'.stack.maxDepth = some m := by rw [hstack]; exact hmax
      have hdepth' : s'.stack.frames.length = depth := by rw [hstack]; exact hdepth
      exact ((hk a b hab).ends hmax' hdepth').earlier hstack hgrows
    | error e => exact .error e
    | fault f => exact .fault f
    | cut hkind hexceeds =>
      cases o' with
      | ok b =>
        -- the second run goes on alone
        obtain ⟨a, hab⟩ := hx.own.value (congrArg Prod.fst hyt)
        have hlater := ((hk a b hab).own.brackets t').suffix
        exact .cut hkind (hexceeds.widen (List.suffix_refl _) hlater)
      | _ => exact .cut hkind hexceeds
    | starved hfuel => exact .starved hfuel

/-- A step that does not look at the limit. -/
theorem same {x : Run α} (hkeeps : Keeps (fun _ => True) x) (hfree : LimitFree x) :
    CutsOff m limit enough depth Eq x x where
  own := hkeeps.mono fun b _ => ⟨b, rfl⟩
  ends := by
    intro s _ _
    rw [hfree.commutes]
    exact .same (hfree.ends s) (hkeeps.brackets s).stack

theorem raise (v : Value) (location : Location) :
    CutsOff m limit enough depth R (raiseValue v location : Run α)
      (raiseValue v location : Run β) where
  own := .raise v location
  ends _ _ := by cases v <;> exact .error _

/-- The second run has no fuel for what it would have to do. -/
theorem exhausted (h : ¬ enough) (x : Run α) :
    CutsOff m limit enough depth R x (Run.exhausted : Run β) where
  own := .exhausted
  ends _ _ := .starved h

/-- A call for which both limits have room. -/
theorem within (hdepth : depth < m) (hlimit : ∀ max, limit = some max → m < max)
    (frame : CallFrame) {x : Run α} {y : Run β}
    (h : CutsOff m limit enough (depth + 1) R x y) :
    CutsOff m limit enough depth R (Run.within frame x) (Run.within frame y) where
  own := h.own.within frame
  ends := by
    intro s hmax hlength
    have hroom : ∀ max, s.stack.maxDepth = some max → s.stack.frames.length < max := by
      intro max hmax'
      rw [hmax] at hmax'
      cases hmax'
      omega
    have hroom' : ∀ max, limit = some max → s.stack.frames.length < max := by
      intro max hmax'
      have := hlimit max hmax'
      omega
    have hpush := push_of_room s.stack hroom frame
    have hpush' : (s.withLimit limit).stack.push frame =
        .ok (.ofFrames (frame :: s.stack.frames) limit) :=
      push_of_room (s.withLimit limit).stack hroom' frame
    rw [hmax] at hpush
    rw [within_entered hpush, within_entered hpush', State.enter_withLimit s _ (some m)]
    have hinside := h.ends (s := s.enter (.ofFrames (frame :: s.stack.frames) (some m))) rfl
      (by rw [← hlength]; rfl)
    have hentered : s.trace <:+ (s.enter (.ofFrames (frame :: s.stack.frames) (some m))).trace :=
      List.suffix_cons _ _
    generalize x _ = out at hinside ⊢
    generalize y _ = out' at hinside ⊢
    cases hinside with
    | @ok a b s' hab hstack =>
      have hleft : s'.leave.stack = s.stack := by
        show s'.stack.pop = s.stack
        rw [hstack]
        exact (push_frames hpush).2.2
      rw [State.leave_withLimit]
      exact .ok hab hleft
    | error e => exact .error e
    | fault f => exact .fault f
    | cut hkind hexceeds => exact .cut hkind (hexceeds.widen hentered (List.suffix_cons _ _))
    | starved hfuel => exact .starved hfuel

/-- A call that the limit refuses to the first run: the second one enters it. -/
theorem refused (hlimit : ∀ max, limit = some max → m < max) (frame : CallFrame) (x : Run α)
    {y : Run β} (hown : Keeps (fun b => ∃ a, R a b) y) :
    CutsOff m limit enough m R (Run.within frame x) (Run.within frame y) where
  own := hown.within frame
  ends := by
    intro s hmax hlength
    have hroom' : ∀ max, limit = some max → s.stack.frames.length < max := by
      intro max hmax'
      rw [hlength]
      exact hlimit max hmax'
    have hpush' : (s.withLimit limit).stack.push frame =
        .ok (.ofFrames (frame :: s.stack.frames) limit) :=
      push_of_room (s.withLimit limit).stack hroom' frame
    obtain ⟨e, hpush, hkind⟩ := push_full frame hmax (Nat.le_of_eq hlength.symm)
    rw [within_refused hpush, within_entered hpush']
    have hentered : Exceeds m s
        ((s.withLimit limit).enter (.ofFrames (frame :: s.stack.frames) limit)) := by
      refine ⟨[.entered (frame :: s.stack.frames)], _, rfl, List.mem_cons_self, ?_⟩
      rw [List.length_cons, hlength]
      omega
    have hinside := (hown.brackets
      ((s.withLimit limit).enter (.ofFrames (frame :: s.stack.frames) limit))).suffix
    exact .cut hkind
      (hentered.widen (List.suffix_refl _) (hinside.trans (List.suffix_cons _ _)))

end CutsOff

/-! ### Evaluations under two limits -/

section

variable {p : Policy} {program : LinkedProgram} {m depth : Nat} {limit : Option Nat}
  {enough : Prop}

/-- Runs inside activations, with `depth` calls live, are cut off. -/
def cuttingOff (p : Policy) (program : LinkedProgram) (m : Nat) (limit : Option Nat)
    (enough : Prop) (depth : Nat) : Steps p p program where
  rel _ {_ _} R x y := CutsOff m limit enough depth R x y
  frame _ φ ψ := φ = ψ
  rel_pure h := .pure h
  rel_bind hx hk := .bind hx hk
  newFrame _ := .same (.newFrame _) (.newFrame _)
  read _ _ hframe := hframe ▸ .same (.read _ _) (.read _ _)
  assign v _ _ hframe := hframe ▸ .same (.assign _ _ v) (.assign _ _ v)
  apply v w _ _ := .same (.apply _ _ v w) (.apply _ _ v w)
  builtin vs _ _ := .same (.builtin _ _ vs _) (.builtin _ _ vs _)
  newObject vs _ _ := .same (.newObject _ vs) (.newObject _ vs)
  readField v _ _ := .same (.readField v _) (.readField v _)
  writeField v w _ _ := .same (.writeField v _ w) (.writeField v _ w)
  raise v _ _ := .raise v _
  unknown _ _ _ := .same (.faulty _) (.faulty _)
  arity _ _ _ _ := .same (.fail _ _) (.fail _ _)

/-- Calls are cut off if entering functions is. -/
theorem callUser_cutsOff {enter enter' : Enter}
    (h : ∀ index g, program.functions[index]? = some g → ∀ args location,
      CutsOff m limit enough depth Eq (enter (.user index) g args location)
        (enter' (.user index) g args location))
    (index : Nat) (args : List Value) (location : Option Location) :
    CutsOff m limit enough depth Eq (callUser program enter index args location)
      (callUser program enter' index args location) := by
  unfold callUser
  cases hg : program.functions[index]? with
  | none => exact .same (.faulty _) (.faulty _)
  | some g =>
    by_cases harity : args.length = g.arity
    · simp only [if_pos harity]
      exact h index g hg args location
    · simp only [if_neg harity]
      exact .same (.fail _ _) (.fail _ _)

/-- Entering a function with as much fuel as the limit has room, and with any
fuel under the other limit. -/
theorem enter_cutsOff (hlimit : ∀ max, limit = some max → m < max) {fuel fuel' : Nat}
    (hdepth : depth + fuel = m) (hfuel : enough → fuel ≤ fuel') {key : FunctionKey}
    {f : LinkedFunction} (hf : program.at? key = some f) (args : List Value)
    (location : Option Location) :
    CutsOff m limit enough depth Eq (enter p program fuel key f args location)
      (enter p program fuel' key f args location) := by
  -- the induction is on the room that is left, so it ends where a call is refused
  induction fuel generalizing fuel' depth key f args location with
  | zero =>
    obtain rfl : depth = m := hdepth
    have hinside := (balance p program).inside_holds fuel' hf args
    rw [enter_eq, enter_eq]
    exact .refused hlimit _ _ (hinside.mono fun v _ => ⟨v, rfl⟩)
  | succ fuel ih =>
    have hroom : depth < m := by omega
    rw [enter_eq, enter_eq]
    apply CutsOff.within hroom hlimit
    cases fuel' with
    | zero =>
      have hstarved : ¬ enough := fun h => by
        have := hfuel h
        omega
      exact .exhausted hstarved _
    | succ fuel' =>
      have hdepth' : depth + 1 + fuel = m := by omega
      have hfuel' : enough → fuel ≤ fuel' := fun h => by
        have := hfuel h
        omega
      apply (cuttingOff p program m limit enough (depth + 1)).activate_rel hf
      intro key f index args location vs _ _ _
      exact callUser_cutsOff (fun index g hg => ih hdepth' hfuel' hg) index vs (some location)

end

/-! ### Requests under two limits -/

section

variable {p : Policy} {program : LinkedProgram} {s : State} {m fuel : Nat} {limit : Option Nat}
  {request : Request} {o : Outcome Value} {t : State}

theorem budget_withLimit_some (hempty : s.stack.frames = []) (m fuel : Nat) :
    (s.withLimit (some m)).budget fuel = m := by
  show m - s.stack.depth = m
  rw [s.stack.depth_eq, hempty]
  rfl

/-- Under the second limit there is fuel for all that happens under the first
one. -/
theorem le_budget (hempty : s.stack.frames = []) (hlimit : ∀ max, limit = some max → m < max)
    (fuel : Nat) (henough : limit = none → m ≤ fuel) : m ≤ (s.withLimit limit).budget fuel := by
  cases limit with
  | none => exact henough rfl
  | some max =>
    rw [budget_withLimit_some hempty]
    exact Nat.le_of_lt (hlimit max rfl)

/-- A request under two limits. -/
theorem answer_cut (hempty : s.stack.frames = []) (hlimit : ∀ max, limit = some max → m < max)
    (h : answer p program fuel (s.withLimit (some m)) request = some (o, t)) (fuel' : Nat) :
    ∃ out, answer p program fuel' (s.withLimit limit) request = some out ∧
      Cut m limit (limit = none → m ≤ fuel') Eq (s.withLimit (some m)) (o, t) out := by
  have hnone : (s.withLimit (some m)).stack.frames.length = 0 := by
    show s.stack.frames.length = 0
    rw [hempty]
    rfl
  have hfuel := le_budget hempty hlimit fuel'
  have henter : ∀ {key f}, program.at? key = some f → ∀ args location,
      CutsOff m limit (limit = none → m ≤ fuel') 0 Eq (enter p program m key f args location)
        (enter p program ((s.withLimit limit).budget fuel') key f args location) :=
    fun hf => enter_cutsOff hlimit (Nat.zero_add m) hfuel hf
  cases request with
  | run =>
    have hmain : program.at? .main = some program.main := rfl
    have hrun : enter p program ((s.withLimit (some m)).budget fuel) .main program.main [] none
        (s.withLimit (some m)) = (o, t) := Option.some.inj h
    rw [budget_withLimit_some hempty] at hrun
    refine ⟨_, rfl, ?_⟩
    rw [← hrun]
    exact (henter hmain [] none).ends rfl hnone
  | call name args =>
    obtain ⟨index, hindex, hcall⟩ := Option.map_eq_some_iff.mp h
    have hrun : callUser program (enter p program ((s.withLimit (some m)).budget fuel)) index args
        none (s.withLimit (some m)) = (o, t) := hcall
    rw [budget_withLimit_some hempty] at hrun
    refine ⟨_, Option.map_eq_some_iff.mpr ⟨index, hindex, rfl⟩, ?_⟩
    rw [← hrun]
    exact (callUser_cutsOff (fun index g hg => henter hg) index args none).ends rfl hnone

end

/-! ### Two limits -/

/-- An outcome that is an error of the depth limit. -/
def Outcome.IsOverflow {α : Type} (o : Outcome α) : Prop :=
  ∃ e depth, o = .error e ∧ e.kind = .stackOverflow depth

/-- What a request that ended under the limit `m` with the outcome `o` and in
the state `t` does under `limit`, from the same state. -/
structure OnlyCutOff (program : LinkedProgram) (s : State) (m : Nat) (limit : Option Nat)
    (request : Request) (o : Outcome Value) (t : State) : Prop where
  /-- A limited machine does not run out of fuel. -/
  ends : o ≠ .outOfFuel
  /-- What is not cut off ends alike. An unlimited machine has to be given as
  much fuel as the limit allows calls. -/
  same : ¬ o.IsOverflow → ∀ fuel, (limit = none → m ≤ fuel) →
    answer .adaptive program fuel (s.withLimit limit) request = some (o, t.withLimit limit)
  /-- What is cut off reports the limit, unless it is a builtin that
  overflows. -/
  report : program.ReportsNoOverflow → ∀ e depth, o = .error e → e.kind = .stackOverflow depth →
    ReportsLimit m e
  /-- What is cut off can only end in another way with more than `m` calls
  live at some moment. -/
  deeper : o.IsOverflow → ∀ fuel o' t',
    answer .adaptive program fuel (s.withLimit limit) request = some (o', t') →
    o' ≠ .outOfFuel → ¬ o'.IsOverflow → Exceeds m s t'

section

variable {p : Policy} {program : LinkedProgram} {s t : State} {m fuel : Nat} {limit : Option Nat}
  {request : Request} {o : Outcome Value}

theorem withLimit_self (h : t.stack.maxDepth = limit) : t.withLimit limit = t := by
  subst h
  rfl

/-- A limited machine does not look at the fuel that it is given. -/
theorem answer_withLimit_some (fuel fuel' : Nat) :
    answer p program fuel (s.withLimit (some m)) request =
      answer p program fuel' (s.withLimit (some m)) request := by
  cases request <;> rfl

/-- Whether there is an answer depends on the program only. -/
theorem answer_eq_none_iff :
    answer p program fuel s request = none ↔
      ∃ name args, request = .call name args ∧ program.index? name = none := by
  cases request with
  | run =>
    constructor
    · intro h
      cases h
    · rintro ⟨_, _, hcall, _⟩
      cases hcall
  | call name args =>
    show (program.index? name).map _ = none ↔ _
    rw [Option.map_eq_none_iff]
    constructor
    · intro h
      exact ⟨name, args, rfl, h⟩
    · rintro ⟨_, _, hcall, h⟩
      cases hcall
      exact h

/-- A limited machine does not run out of fuel. -/
theorem answer_ends (hempty : s.stack.frames = [])
    (h : answer p program fuel (s.withLimit (some m)) request = some (o, t)) :
    o ≠ .outOfFuel := by
  intro hout
  subst hout
  -- nor does one without a limit that has as much fuel as the limit allows calls
  have hlimit : ∀ max, none = some max → m < max := fun _ hnone => by cases hnone
  obtain ⟨out, -, hcut⟩ := answer_cut hempty hlimit h m
  cases hcut with
  | starved hstarved => exact hstarved fun _ => Nat.le_refl m

/-- `answer_cut` for a limit that may be the same. -/
theorem answer_cut_of_le (hempty : s.stack.frames = [])
    (hlimit : ∀ max, limit = some max → m ≤ max)
    (h : answer p program fuel (s.withLimit (some m)) request = some (o, t)) (fuel' : Nat) :
    ∃ out, answer p program fuel' (s.withLimit limit) request = some out ∧
      Cut m limit (limit = none → m ≤ fuel') Eq (s.withLimit (some m)) (o, t) out := by
  by_cases hsame : limit = some m
  · subst hsame
    have hstack : t.stack = (s.withLimit (some m)).stack := (answer_brackets h).stack
    have ht : t.withLimit (some m) = t := withLimit_self (congrArg CallStack.maxDepth hstack)
    have hcut : Cut m (some m) (some m = none → m ≤ fuel') Eq (s.withLimit (some m)) (o, t)
        (o, t.withLimit (some m)) := .same (answer_ends hempty h) hstack
    rw [ht] at hcut
    exact ⟨(o, t), (answer_withLimit_some fuel' fuel).trans h, hcut⟩
  · have hstrict : ∀ max, limit = some max → m < max := by
      intro max hmax
      have hle := hlimit max hmax
      have hne : m ≠ max := fun heq => hsame (heq ▸ hmax)
      omega
    exact answer_cut hempty hstrict h fuel'

theorem fits_withLimit (hempty : s.stack.frames = []) : (s.withLimit limit).Fits := by
  intro max _
  show s.stack.frames.length ≤ max
  rw [hempty]
  exact Nat.zero_le max

end

/-- Of two limits the lower one cuts off, and changes nothing else. The runs that
are compared share the readings of the clock, the addresses of objects and the
hasher. That an overflow names the limit is asked of programs whose builtins
report none themselves, like those of the core
(`Program.linkFrom_reportsNoOverflow`); all else holds of every program, with
builtins that are pure, as all implementations are. -/
theorem answer_under_limits (program : LinkedProgram) {s : State} (hempty : s.stack.frames = [])
    {m : Nat} {limit : Option Nat} (hlimit : ∀ max, limit = some max → m ≤ max) (fuel : Nat)
    (request : Request) :
    (answer .adaptive program fuel (s.withLimit (some m)) request = none → ∀ fuel',
      answer .adaptive program fuel' (s.withLimit limit) request = none) ∧
    ∀ o t, answer .adaptive program fuel (s.withLimit (some m)) request = some (o, t) →
      OnlyCutOff program s m limit request o t := by
  constructor
  · intro h fuel'
    exact answer_eq_none_iff.mpr (answer_eq_none_iff.mp h)
  intro o t h
  refine ⟨answer_ends hempty h, ?_, ?_, ?_⟩
  · intro hother fuel' henough
    obtain ⟨out, hout, hcut⟩ := answer_cut_of_le hempty hlimit h fuel'
    cases hcut with
    | ok hab _ => rw [hout, hab]
    | error e => exact hout
    | fault f => exact hout
    | cut hkind _ => exact absurd ⟨_, _, rfl, hkind⟩ hother
    | starved hstarved => exact absurd henough hstarved
  · intro hbuiltins e depth ho hkind
    subst ho
    obtain ⟨hmax, hreports⟩ := answer_reports hbuiltins (fits_withLimit hempty) h hkind
    obtain rfl : m = depth := Option.some.inj hmax
    exact hreports
  · rintro ⟨e, depth, ho, hkind⟩ fuel' o' t' h' hends hother
    subst ho
    obtain ⟨out, hout, hcut⟩ := answer_cut_of_le hempty hlimit h fuel'
    obtain rfl : out = (o', t') := Option.some.inj (hout.symm.trans h')
    cases hcut with
    | error e => exact absurd ⟨e, depth, rfl, hkind⟩ hother
    | cut _ hexceeds => exact hexceeds
    | starved _ => exact absurd rfl hends

/-! ### Two limits for one program -/

/-- The error of `alarm` when nothing cuts it off. -/
def alarmError : EvalError :=
  { kind := .raised none "bad", value := some (.str "bad"), backtrace := some alarmPath }

/-- `alarm` raises with three calls live: a limit of two cuts it off, and a
limit of three does not. -/
theorem alarm_under_limits :
    alarm.linkFrom 0 .core = .ok linkedAlarm ∧ alarmStart.stack.frames = [] ∧
      (∃ e t t', answer .adaptive linkedAlarm 0 (alarmStart.withLimit (some 2)) .run =
          some (.error e, t) ∧ ReportsLimit 2 e ∧
        answer .adaptive linkedAlarm 3 (alarmStart.withLimit none) .run =
          some (.error alarmError, t') ∧ Exceeds 2 alarmStart t') ∧
      ∃ t, answer .adaptive linkedAlarm 0 (alarmStart.withLimit (some 3)) .run =
          some (.error alarmError, t) ∧
        answer .adaptive linkedAlarm 3 (alarmStart.withLimit none) .run =
          some (.error alarmError, t.withLimit none) := by
  have hlink : alarm.linkFrom 0 .core = .ok linkedAlarm := rfl
  have hempty : alarmStart.stack.frames = [] := rfl
  have hlimit : ∀ m max : Nat, none = some max → m ≤ max := fun _ _ hnone => by cases hnone
  have hother : ¬ (Outcome.error alarmError : Outcome Value).IsOverflow := by
    rintro ⟨e, depth, he, hkind⟩
    cases he
    cases hkind
  have htwo : (answer .adaptive linkedAlarm 0 (alarmStart.withLimit (some 2)) .run).map (·.1) =
      some (.error { kind := .stackOverflow 2,
                     backtrace := some [⟨"relay", "main", none⟩,
                       ⟨programName, "main", some ⟨9, 1⟩⟩] }) := by
    rfl
  have hthree : (answer .adaptive linkedAlarm 0 (alarmStart.withLimit (some 3)) .run).map (·.1) =
      some (.error alarmError) := by
    rfl
  have hnone : (answer .adaptive linkedAlarm 3 (alarmStart.withLimit none) .run).map (·.1) =
      some (.error alarmError) := by
    rfl
  refine ⟨hlink, hempty, ?_, ?_⟩
  · obtain ⟨⟨o, t⟩, hanswer, ho⟩ := Option.map_eq_some_iff.mp htwo
    obtain ⟨⟨o', t'⟩, hanswer', ho'⟩ := Option.map_eq_some_iff.mp hnone
    cases ho
    cases ho'
    have hcut := (answer_under_limits linkedAlarm hempty (hlimit 2) 0 .run).2 _ t hanswer
    have hbuiltins := Program.linkFrom_reportsNoOverflow hlink
    refine ⟨_, t, t', hanswer, hcut.report hbuiltins _ 2 rfl rfl, hanswer', ?_⟩
    exact hcut.deeper ⟨_, 2, rfl, rfl⟩ 3 _ t' hanswer' (fun h => by cases h) hother
  · obtain ⟨⟨o, t⟩, hanswer, ho⟩ := Option.map_eq_some_iff.mp hthree
    cases ho
    have hcut := (answer_under_limits linkedAlarm hempty (hlimit 3) 0 .run).2 _ t hanswer
    exact ⟨t, hanswer, hcut.same hother 3 fun _ => Nat.le_refl 3⟩

/-! ### A builtin that speaks for the limit -/

/-- A builtin that answers with the error of a limit of seven. -/
def refuseEntry : Builtin.Entry :=
  { name := "refuse", variadic := true, arity := 0
    run := fun _ => { result := .error (.stackOverflow 7) } }

/-- A program that calls `refuse`. -/
def refusing : Program :=
  { source := "main"
    functions := []
    main :=
      { name := programName, source := "main", params := [], locals := []
        body := [.expr (.call "refuse" [] 0 ⟨1, 1⟩)]
        siteCount := 0, callCount := 1 } }

/-- `refusing`, linked. -/
def linkedRefusing : LinkedProgram :=
  { source := "main"
    functions := #[]
    main :=
      { name := programName, source := "main", params := [], locals := []
        body := [.expr (.call (.builtin refuseEntry 0) [] ⟨1, 1⟩)] }
    classes := [] }

/-- The state in which `refusing` starts. -/
def refusingStart : State := .initial linkedRefusing .interpret .empty .still

/-- Without the condition on builtins an overflow need not be one of the limit.
The machine passes on what a builtin answers, so the error of `refuse` names a
limit of seven also where the limit is one. -/
theorem refusing_names_other_limit :
    Registry.ofSources [Builtin.core, [refuseEntry]] = .ok ⟨Builtin.core ++ [refuseEntry]⟩ ∧
      refusing.linkFrom 0 ⟨Builtin.core ++ [refuseEntry]⟩ = .ok linkedRefusing ∧
      refusingStart.stack.frames = [] ∧
      ∃ e t, answer .adaptive linkedRefusing 0 (refusingStart.withLimit (some 1)) .run =
          some (.error e, t) ∧
        e.kind = .stackOverflow 7 ∧ ¬ ReportsLimit 1 e := by
  refine ⟨rfl, rfl, rfl, _, _, rfl, rfl, fun hreports => ?_⟩
  have hseven : ErrorKind.stackOverflow 7 = .stackOverflow 1 := hreports.kind
  cases hseven

end Machine

end AdaptiveScript
