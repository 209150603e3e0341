import AdaptiveScript.Proofs.Machine.Invariant
import AdaptiveScript.Proofs.Machine.Tables

/-! # Adaptive State Only Generalizes

  The sites and slots of a program live on from one request to the next.
  Whatever the requests are and however they end, that state moves in one
  direction: masks gain bits, of which only the one of the first strategy is
  ever used and none at a division, and the kinds of slots go up their order.
  And it moves only where execution goes: a request leaves alone the functions
  that the one it enters does not reach by its calls
  (`session_only_generalizes`).

  A step changes the state of the function that executes it, so what an
  activation may change are the functions that its own function reaches; a
  call narrows these down to those that the callee reaches. That the masks
  are as described is not a matter of single steps. It follows from the trace:
  in every state that a program comes to, the site of a node is as the operands
  that the node has met say (`Agree`), and a trace only grows.
-/

namespace AdaptiveScript

/-- The second function can be reached from the first one by calls. -/
def LinkedProgram.Reaches (program : LinkedProgram) : FunctionKey → FunctionKey → Prop :=
  Relation.ReflTransGen program.Calls

/-- An assignment does not move the kind of any slot down. -/
theorem SlotTable.kind_le_assign (t : SlotTable) (frame : Frame) (slot : Nat) (v : Value)
    (i : Nat) : t.kind i ≤ (t.assign frame slot v).1.kind i := by
  rw [assign_fst]
  exact kind_le_generalize t v

namespace Machine

/-! ### How states develop -/

/-- What is left of `Agree` on the adaptive side. -/
theorem Agree.left {program : LinkedProgram} {s t : State} (h : Agree program s t) :
    Agree program s s where
  heap := rfl
  stack := rfl
  sink := rfl
  stdout := rfl
  surroundings := rfl
  readings := rfl
  trace := rfl
  functions := h.functions
  plain := h.functions
  fits hf :=
    have hfs := h.fits hf
    { hfs with memories := rfl, plainSlots := hfs.slots }

/-- A state that comes after another one, with changes only to the functions
that are active. -/
structure Develops (program : LinkedProgram) (active : FunctionKey → Prop) (s s' : State) :
    Prop where
  grows : s.trace <:+ s'.trace
  idle : ∀ key, ¬ active key → s'.function key = s.function key
  kinds : ∀ key slot, (s.function key).slots.kind slot ≤ (s'.function key).slots.kind slot
  sound : Agree program s s → Agree program s' s'

namespace Develops

variable {program : LinkedProgram} {active : FunctionKey → Prop} {s s' s'' : State}
  {key : FunctionKey} {f : LinkedFunction}

theorem refl (s : State) : Develops program active s s :=
  ⟨List.suffix_refl _, fun _ _ => rfl, fun _ _ => le_refl _, fun h => h⟩

theorem trans (h : Develops program active s s') (h' : Develops program active s' s'') :
    Develops program active s s'' where
  grows := h.grows.trans h'.grows
  idle key hkey := (h'.idle key hkey).trans (h.idle key hkey)
  kinds key slot := (h.kinds key slot).trans (h'.kinds key slot)
  sound hs := h'.sound (h.sound hs)

theorem mono {active' : FunctionKey → Prop} (hactive : ∀ key, active key → active' key)
    (h : Develops program active s s') : Develops program active' s s' :=
  { h with idle := fun key hkey => h.idle key fun hold => hkey (hactive key hold) }

/-- A step that changes no function. -/
theorem of_same (hsame : SameFunctions s s') (hgrows : s.trace <:+ s'.trace)
    (hsound : Agree program s s → Agree program s' s') : Develops program active s s' where
  grows := hgrows
  idle key _ := hsame.function key
  kinds key slot := by rw [hsame.function key]
  sound := hsound

theorem setHeap (s : State) (heap : Heap) : Develops program active s { s with heap } :=
  of_same ⟨rfl, rfl⟩ (List.suffix_refl _) fun h => h.setHeap heap

theorem enter (s : State) (stack : CallStack) : Develops program active s (s.enter stack) :=
  of_same ⟨rfl, rfl⟩ (List.suffix_cons _ _) fun h => h.enter stack

theorem leave (s : State) : Develops program active s s.leave :=
  of_same ⟨rfl, rfl⟩ (List.suffix_cons _ _) fun h => h.leave

/-- A step that replaces the state of an active function. -/
theorem replace (hactive : active key) {fs : FunctionState}
    (hkinds : ∀ slot, (s.function key).slots.kind slot ≤ fs.slots.kind slot)
    (hsame : SameFunctions (s.setFunction key fs) s') (hgrows : s.trace <:+ s'.trace)
    (hsound : Agree program s s → Agree program s' s') : Develops program active s s' where
  grows := hgrows
  idle := by
    intro other hother
    have hne : other ≠ key := fun h => hother (h ▸ hactive)
    rw [hsame.function, State.function_setFunction_ne s fs hne]
  kinds := by
    intro other slot
    rw [hsame.function]
    by_cases hkey : other = key
    · subst hkey
      rcases State.function_setFunction_cases s other fs with hnew | hold
      · rw [hnew]
        exact hkinds slot
      · rw [hold]
    · rw [State.function_setFunction_ne s fs hkey]
  sound := hsound

/-- The same for a step that is recorded. -/
theorem step (hactive : active key) {fs : FunctionState} (e : Event)
    (hkinds : ∀ slot, (s.function key).slots.kind slot ≤ fs.slots.kind slot)
    (hsound : Agree program s s → Agree program ((s.setFunction key fs).record e)
      ((s.setFunction key fs).record e)) :
    Develops program active s ((s.setFunction key fs).record e) := by
  have hsame : SameFunctions (s.setFunction key fs) ((s.setFunction key fs).record e) :=
    ⟨rfl, rfl⟩
  refine replace hactive hkinds hsame ?_ hsound
  show s.trace <:+ e :: (s.setFunction key fs).trace
  rw [State.trace_setFunction]
  exact List.suffix_cons _ _

theorem assign (hf : program.at? key = some f) (hactive : active key) (frame : Frame) (slot : Nat)
    (v : Value) :
    Develops program active s (assignSlot .adaptive key frame slot v s).2 := by
  apply step hactive (.assigned key slot v) (SlotTable.kind_le_assign _ frame slot v)
  intro h
  exact (h.step hf ((h.fits hf).assign frame slot v) (by simp)).left

theorem apply (hf : program.at? key = some f) (hactive : active key) {op : Operator} {site : Nat}
    (hop : f.operators[site]? = some op) (v w : Value) :
    Develops program active s (applyOperator .adaptive key op site v w s).2 := by
  rw [Refines.applyOperator_adaptive, ofResult_snd]
  refine step hactive (.applied key site v w) (fun _ => le_refl _) fun h => ?_
  have hstep := h.step hf ((h.fits hf).apply hop s.heap.className v w)
    fun other hne _ _ _ he => hne (Event.applied.inj he).1.symm
  exact hstep.left

theorem builtin (hf : program.at? key = some f) (hactive : active key) (entry : Builtin.Entry)
    (inst : Nat) (vs : List Value) (location : Location) :
    Develops program active s (invokeBuiltin key entry inst vs location s).2 := by
  rw [invokeBuiltin_eq, ofResult_snd]
  have hkinds : ∀ slot, (s.function key).slots.kind slot ≤ ((s.function key).setMemory inst
      (builtinReply key entry inst vs s).memory).slots.kind slot := fun _ => le_refl _
  apply replace hactive hkinds
  · exact sameFunctions_afterReply key inst _ _ s
  · exact (Extends.afterReply key inst _ _ s).trace
  · intro h
    exact (h.afterReply hf inst (by simp [invokedEvent]) _).left

end Develops

/-! ### Evaluations -/

/-- Along a run the state develops, and nothing is said of the values. -/
def developments (program : LinkedProgram) : Assertions where
  state _ := True
  later key s s' := Develops program (program.Reaches key) s s'
  value _ _ := True
  frame _ _ _ := True
  error key s s' _ := Develops program (program.Reaches key) s s'

theorem developments_ends {program : LinkedProgram} {key : FunctionKey} {α : Type}
    {P : State → α → Prop} {s : State} {out : Outcome α × State}
    (h : Develops program (program.Reaches key) s out.2) (hP : ∀ s a, P s a) :
    (developments program).Ends key P s out := by
  obtain ⟨o, s'⟩ := out
  cases o with
  | ok a => exact .ok trivial h (hP s' a)
  | error e => exact .error trivial h
  | fault fault => exact .fault fault trivial h
  | outOfFuel => exact .outOfFuel trivial h

section

variable {program : LinkedProgram} {registry : Registry}

/-- What the calls of a callee reach, the caller reaches. -/
theorem Develops.of_callee {key callee : FunctionKey} {s s' : State}
    (hcalls : program.Calls key callee) (h : Develops program (program.Reaches callee) s s') :
    Develops program (program.Reaches key) s s' :=
  h.mono fun _ hreaches => .head hcalls hreaches

theorem readSlot_snd (p : Policy) (key : FunctionKey) (frame : Frame) (slot : Nat) (s : State) :
    (readSlot p key frame slot s).2 = s := by
  unfold readSlot
  split <;> rfl

/-- The adaptive machine develops the state of a program whose operator nodes
hold their places. -/
def development (hplaced : ∀ {key f}, program.at? key = some f → f.Placed registry) :
    Invariant .adaptive program where
  toAssertions := developments program
  later_refl _ s := .refl s
  later_trans h h' := h.trans h'
  value_later _ _ := trivial
  frame_later _ _ := trivial
  error_later h h' := h.trans h'
  nil _ := trivial
  list _ := trivial
  const _ _ := trivial
  newFrame _ _ := trivial
  read {key f slot φ s} _ _ _ _ := by
    refine developments_ends ?_ fun _ _ => trivial
    rw [readSlot_snd]
    exact .refl s
  assign {key f slot φ v s} hf _ _ _ _ :=
    developments_ends (.assign hf .refl φ slot v) fun _ _ => trivial
  apply {key f op l r site v w s} hf hnode _ _ _ :=
    developments_ends (.apply hf .refl ((hplaced hf).operator_at hnode) v w) fun _ _ => trivial
  builtin {key f entry inst args location vs s} hf _ _ _ :=
    developments_ends (.builtin hf .refl entry inst vs location) fun _ _ => trivial
  newObject _ _ _ _ _ := developments_ends (.setHeap _ _) fun _ _ => trivial
  readField {key f object name v s} _ _ _ _ := by
    refine developments_ends ?_ fun _ _ => trivial
    rcases readField_cases v name with ⟨id, hread⟩ | hfail
    · rw [hread]
      exact .refl s
    · rw [hfail]
      exact .refl s
  writeField {key f object name value v w s} _ _ _ _ _ := by
    refine developments_ends ?_ fun _ _ => trivial
    rcases writeField_cases v name w with ⟨id, hwrite⟩ | hfail
    · rw [hwrite]
      exact .setHeap s _
    · rw [hfail]
      exact .refl s
  raise _ _ _ _ := .error trivial (.setHeap _ _)
  arity {key s} _ _ _ _ := .refl s
  refused {key s frame e} _ _ := .refl s
  entered key _ _ := ⟨trivial, .enter _ _⟩
  left key _ := ⟨trivial, .leave _⟩
  error_left h := h.trans (.leave _)
  later_callee hcalls h := h.of_callee hcalls
  error_callee hcalls h := h.of_callee hcalls

theorem develops_of_ends {key : FunctionKey} {α : Type} {P : State → α → Prop} {s : State}
    {out : Outcome α × State} (h : (developments program).Ends key P s out) :
    Develops program (program.Reaches key) s out.2 := by
  cases h with
  | ok _ hlater _ => exact hlater
  | error _ herror => exact herror
  | fault _ _ hlater => exact hlater
  | outOfFuel _ hlater => exact hlater

/-- Entering a function, from any state. -/
theorem enter_develops (hplaced : ∀ {key f}, program.at? key = some f → f.Placed registry)
    (fuel : Nat) {key : FunctionKey} {f : LinkedFunction} (hf : program.at? key = some f)
    (args : List Value) (location : Option Location) (s : State) :
    Develops program (program.Reaches key) s
      (enter .adaptive program fuel key f args location s).2 :=
  develops_of_ends ((development hplaced).enter_ends fuel hf trivial fun _ _ => trivial)

/-! ### Sessions -/

/-- The functions that requests can reach. -/
def Active (program : LinkedProgram) (requests : List (Request × Nat)) (key : FunctionKey) :
    Prop :=
  ∃ request ∈ requests, ∃ entered, enteredKey? program request.1 = some entered ∧
    program.Reaches entered key

theorem respond_develops (hplaced : ∀ {key f}, program.at? key = some f → f.Placed registry)
    (request : Request × Nat) (s : State) :
    Develops program (Active program [request]) s (respond .adaptive program s request).2 := by
  unfold respond
  cases hanswer : answer .adaptive program request.2 s request.1 with
  | none => exact .refl s
  | some out =>
    obtain ⟨key, hkey, hends⟩ := (development hplaced).answer_ends trivial
      (fun _ _ => trivial) hanswer
    apply (develops_of_ends hends).mono
    intro other hreaches
    exact ⟨request, List.mem_singleton_self request, key, hkey, hreaches⟩

theorem session_develops (hplaced : ∀ {key f}, program.at? key = some f → f.Placed registry)
    (requests : List (Request × Nat)) (s : State) :
    Develops program (Active program requests) s (session .adaptive program s requests).2 := by
  induction requests generalizing s with
  | nil => exact .refl s
  | cons request requests ih =>
    rw [session_cons]
    have hfirst := respond_develops hplaced request s
    have hrest := ih (respond .adaptive program s request).2
    refine (hfirst.mono ?_).trans (hrest.mono ?_)
    · rintro key ⟨first, hmem, hreaches⟩
      rw [List.mem_singleton.mp hmem] at hreaches
      exact ⟨request, List.mem_cons_self, hreaches⟩
    · rintro key ⟨later, hmem, hreaches⟩
      exact ⟨later, List.mem_cons_of_mem _ hmem, hreaches⟩

end

/-! ### Masks -/

/-- A node that has widened stays so when the trace grows. -/
theorem widenedIn_mono {op : Operator} {key : FunctionKey} {site : Nat} {trace trace' : List Event}
    (hgrows : trace <:+ trace') (h : widenedIn op key site trace = true) :
    widenedIn op key site trace' = true := by
  obtain ⟨e, he, hwidens⟩ := List.any_eq_true.mp h
  exact List.any_eq_true.mpr ⟨e, hgrows.subset he, hwidens⟩

/-- The state of the sites and slots has become more general, and has changed
for active functions only. -/
structure Generalizes (program : LinkedProgram) (active : FunctionKey → Prop) (s s' : State) :
    Prop where
  /-- Masks gain bits. -/
  masks : ∀ {key f} {site : Nat} {op}, program.at? key = some f → f.operators[site]? = some op →
    ∀ j, ((s.function key).site site).isExcluded j = true →
      ((s'.function key).site site).isExcluded j = true
  /-- Masks have no bit but that of the first strategy. -/
  first : ∀ {key f} {site : Nat} {op}, program.at? key = some f → f.operators[site]? = some op →
    ∀ j, ((s'.function key).site site).isExcluded j = true → j = 0
  /-- Masks of divisions are empty. -/
  division : ∀ {key f} {site : Nat}, program.at? key = some f →
    f.operators[site]? = some .div → ((s'.function key).site site).excluded = 0
  /-- Kinds go up. -/
  kinds : ∀ key slot, (s.function key).slots.kind slot ≤ (s'.function key).slots.kind slot
  /-- The sites, slots and memories of other functions are as they were. -/
  idle : ∀ key, ¬ active key → s'.function key = s.function key

/-- A site without an excluded strategy has an empty mask. -/
theorem excluded_eq_zero {site : Site} (h : ∀ j, site.isExcluded j = false) :
    site.excluded = 0 := by
  apply BitVec.eq_of_getLsbD_eq
  intro j _
  have hj := h j
  simpa [Site.isExcluded] using hj

theorem Develops.generalizes {program : LinkedProgram} {active : FunctionKey → Prop} {s s' : State}
    (h : Develops program active s s') (hs : Agree program s s) :
    Generalizes program active s s' where
  masks := by
    intro key f site op hf hop j hj
    obtain ⟨hwide, hzero⟩ := (((hs.fits hf).adapted hop).excluded j).mp hj
    have hadapted := ((h.sound hs).fits hf).adapted hop
    exact (hadapted.excluded j).mpr ⟨widenedIn_mono h.grows hwide, hzero⟩
  first := by
    intro key f site op hf hop j hj
    exact (((((h.sound hs).fits hf).adapted hop).excluded j).mp hj).2
  division := by
    intro key f site hf hop
    have hadapted := ((h.sound hs).fits hf).adapted hop
    apply excluded_eq_zero
    intro j
    by_contra hj
    obtain ⟨hwide, -⟩ := (hadapted.excluded j).mp (Bool.not_eq_false _ ▸ hj)
    rw [hadapted.division rfl] at hwide
    cases hwide
  kinds := h.kinds
  idle := h.idle

/-- From the freshly linked state on, requests only generalize the state of
the sites and slots, and only that of functions which the entered ones reach.
This is so of the requests `later` after any requests `earlier`, and however
each of them ends; and a function that is entered, from whatever state, leaves
alone those that it does not reach. -/
theorem session_only_generalizes {firstClass : Nat} {p : Program} {registry : Registry}
    {program : LinkedProgram} (hlink : p.linkFrom firstClass registry = .ok program) {s : State}
    (hfresh : s.Fresh program) (earlier later : List (Request × Nat)) :
    Generalizes program (Active program later) (session .adaptive program s earlier).2
        (session .adaptive program (session .adaptive program s earlier).2 later).2 ∧
      ∀ key f, program.at? key = some f → ∀ fuel args location t other,
        ¬ program.Reaches key other →
        (enter .adaptive program fuel key f args location t).2.function other =
          t.function other := by
  have hplaced : ∀ {key f}, program.at? key = some f → f.Placed registry :=
    fun hf => Program.linkFrom_placed hlink hf
  constructor
  · have hreached := (session_develops hplaced earlier s).sound (.fresh hfresh)
    exact (session_develops hplaced later _).generalizes hreached
  · intro key f hf fuel args location t other hother
    exact (enter_develops hplaced fuel hf args location t).idle other hother

/-- A call of `square` from outside, whose square does not fit. -/
def bigSquare : List (Request × Nat) := [(.call "square" [.int 4611686018427387904], 1)]

/-- What `squares` comes to by running. -/
def squaresRun : State := (session .adaptive linkedSquares squaresStart [(.run, 2)]).2

/-- What it comes to by the call after that. -/
def squaresWidened : State := (session .adaptive linkedSquares squaresRun bigSquare).2

/-- After `squares` has run, the call widens the node of `square` and leaves the
top-level body alone, which has a node and a slot of its own. -/
theorem squares_generalize :
    squares.linkFrom 0 .core = .ok linkedSquares ∧ squaresStart.Fresh linkedSquares ∧
      Generalizes linkedSquares (Active linkedSquares bigSquare) squaresRun squaresWidened ∧
      ((squaresRun.function (.user 0)).site 0).isExcluded 0 = false ∧
      ((squaresWidened.function (.user 0)).site 0).isExcluded 0 = true ∧
      squaresWidened.main = squaresRun.main := by
  have hlink : squares.linkFrom 0 .core = .ok linkedSquares := rfl
  have hfresh : squaresStart.Fresh linkedSquares := State.initial_fresh _ _ _ _
  have hgeneralizes := (session_only_generalizes hlink hfresh [(.run, 2)] bigSquare).1
  have hidle : ¬ Active linkedSquares bigSquare .main := by
    have hkey : enteredKey? linkedSquares (.call "square" [.int 4611686018427387904]) =
        some (.user 0) := by decide +kernel
    rintro ⟨request, hmem, entered, hentered, hreaches⟩
    rw [List.mem_singleton.mp hmem, hkey] at hentered
    cases hentered
    -- no call reaches the top-level body
    rcases Relation.ReflTransGen.cases_tail hreaches with hself | ⟨caller, -, hcalls⟩
    · cases hself
    · obtain ⟨_, _, _, _, _, _, hmain⟩ := hcalls
      cases hmain
  exact ⟨hlink, hfresh, hgeneralizes, by decide +kernel, by decide +kernel,
    hgeneralizes.idle .main hidle⟩

end Machine

end AdaptiveScript
