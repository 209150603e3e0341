import AdaptiveScript.Proofs.Specialization.History
import Mathlib.Order.Bounds.Defs
import Mathlib.Tactic.IntervalCases

/-! # A Dispatch in Closed Form

  A dispatch asks the strategy at the cursor, and then scans the table while
  it changes the mask that it reads. What comes out can be told beforehand,
  from what the strategies say about the operands at the site as it is
  (`Site.Says`):

  - if the strategy at the cursor has a result, then that, and the site stays
    as it is;
  - else, if any strategy has a result, then that of the first one, which
    becomes the cursor. The mask gains the strategies before it that retire,
    the one at the cursor if it retires, and those that the first one
    replaces;
  - else nothing, and the mask gains all strategies that retire.

  A strategy that declines has no part in it. These are the equations of
  `Site.dispatch_closed_form`. `Dispatched` describes an outcome bit by bit;
  since it holds of one outcome only (`Dispatched.unique`), each equation is
  proved by showing that its right-hand side is so described.
-/

namespace AdaptiveScript

/-! ### Masks of properties -/

namespace Mask

/-- The mask of the strategies at some indices. -/
def ofIndices (indices : List Nat) : Mask := indices.foldr (fun i m => bit i ||| m) 0

theorem getLsbD_ofIndices (indices : List Nat) (j : Nat) :
    (ofIndices indices).getLsbD j = true ↔ j < maxStrategies ∧ j ∈ indices := by
  induction indices with
  | nil => simp [ofIndices]
  | cons i indices ih =>
    have hcons : ofIndices (i :: indices) = bit i ||| ofIndices indices := rfl
    rw [hcons, BitVec.getLsbD_or, Bool.or_eq_true, ih, getLsbD_bit]
    by_cases hij : i = j
    · subst hij
      simp only [decide_true, Bool.and_true, decide_eq_true_eq, List.mem_cons_self, and_true]
      exact or_iff_left_of_imp And.left
    · simp [hij, Ne.symm hij]

/-- The mask of the strategies with a property. -/
def ofPred (p : Nat → Prop) [DecidablePred p] : Mask :=
  ofIndices ((List.range maxStrategies).filter fun i => p i)

theorem getLsbD_ofPred (p : Nat → Prop) [DecidablePred p] (j : Nat) :
    (ofPred p).getLsbD j = true ↔ j < maxStrategies ∧ p j := by
  unfold ofPred
  rw [getLsbD_ofIndices, List.mem_filter, List.mem_range]
  simp

end Mask

namespace Site

variable {α β : Type} {table : List (Strategy α β)} {args : α} {s : Site}

/-! ### What a strategy would say -/

/-- The strategy at an index can be asked about some operands: the index has a
bit in the mask and is not excluded, and the guard accepts the operands. -/
structure Applicable (table : List (Strategy α β)) (args : α) (s : Site) (index : Nat)
    (strategy : Strategy α β) : Prop where
  bounded : index < maxStrategies
  entry : table[index]? = some strategy
  notExcluded : s.isExcluded index = false
  accepted : strategy.guard args = true

/-- There is an applicable strategy at an index, and it says `attempt`. -/
def Says (table : List (Strategy α β)) (args : α) (s : Site) (index : Nat)
    (attempt : Attempt β) : Prop :=
  ∃ strategy, Applicable table args s index strategy ∧ strategy.body args = attempt

theorem consult_take_iff {index : Nat} {attempt : Attempt β} :
    s.consult (table.take maxStrategies) args index = some attempt ↔
      Says table args s index attempt := by
  constructor
  · intro h
    obtain ⟨strategy, hentry, hopen, hguard, hbody⟩ := consult_eq_some h
    obtain ⟨hindex, hwhole⟩ := entry_of_take hentry
    exact ⟨strategy, ⟨hindex, hwhole, hopen, hguard⟩, hbody⟩
  · rintro ⟨strategy, h, hbody⟩
    have hentry : (table.take maxStrategies)[index]? = some strategy := by
      rw [List.getElem?_take_of_lt h.bounded, h.entry]
    rw [consult_of_some args s hentry]
    simp [h.notExcluded, h.accepted, hbody]

instance (table : List (Strategy α β)) (args : α) (s : Site) (index : Nat) :
    Decidable (Says table args s index .retire) :=
  match h : s.consult (table.take maxStrategies) args index with
  | some .retire => isTrue (consult_take_iff.mp h)
  | none => isFalse fun hsays => by simp [consult_take_iff.mpr hsays] at h
  | some (.done _) => isFalse fun hsays => by simp [consult_take_iff.mpr hsays] at h
  | some .decline => isFalse fun hsays => by simp [consult_take_iff.mpr hsays] at h

/-- A strategy says one thing only. -/
theorem Says.unique {index : Nat} {attempt attempt' : Attempt β}
    (h : Says table args s index attempt) (h' : Says table args s index attempt') :
    attempt = attempt' := by
  have hsome := consult_take_iff.mpr h
  rw [consult_take_iff.mpr h'] at hsome
  exact (Option.some.inj hsome).symm

theorem Says.lt {index : Nat} {attempt : Attempt β} (h : Says table args s index attempt) :
    index < maxStrategies := by
  obtain ⟨_, happlicable, _⟩ := h
  exact happlicable.bounded

/-! ### The three outcomes -/

/-- A dispatch is the only outcome that is described as one. -/
theorem Dispatched.dispatch_eq (hcursor : ∀ c, s.cursor = some c → c < 32)
    {out : Option β × Site} (h : Dispatched (table.take maxStrategies) args s out) :
    s.dispatch table args = out :=
  (dispatch_dispatched table args s hcursor).unique h (fun _ _ => Iff.rfl) (fun _ => Iff.rfl)
    fun _ _ _ => rfl

theorem dispatch_remembered (hcursor : ∀ c, s.cursor = some c → c < 32) {c : Nat} {result : β}
    (hc : s.cursor = some c) (hdone : Says table args s c (.done result)) :
    s.dispatch table args = (some result, s) :=
  Dispatched.dispatch_eq hcursor (.remembered hc (consult_take_iff.mpr hdone))

theorem dispatch_first (hcursor : ∀ c, s.cursor = some c → c < 32)
    (hforgotten : ∀ c r, s.cursor = some c → ¬ Says table args s c (.done r)) {index : Nat}
    {strategy : Strategy α β} {result : β}
    (hleast : IsLeast {j | ∃ r, Says table args s j (.done r)} index)
    (happlicable : Applicable table args s index strategy)
    (hbody : strategy.body args = .done result) :
    s.dispatch table args =
      (some result,
        { cursor := some index
          excluded := s.excluded |||
            Mask.ofPred (fun j => (j < index ∨ s.cursor = some j) ∧ Says table args s j .retire) |||
            strategy.replaces }) := by
  apply Dispatched.dispatch_eq hcursor
  have hentry : (table.take maxStrategies)[index]? = some strategy := by
    rw [List.getElem?_take_of_lt happlicable.bounded, happlicable.entry]
  refine .found ?_ ⟨Nat.zero_le _, ?_, ?_⟩ hentry rfl ?_
  · intro c r hc
    rw [Ne, consult_take_iff]
    exact hforgotten c r hc
  · exact consult_take_iff.mpr ⟨strategy, happlicable, hbody⟩
  · intro j _ hj r hanswer
    have hle : index ≤ j := hleast.2 ⟨r, consult_take_iff.mp hanswer⟩
    omega
  · intro j
    rw [consult_take_iff]
    unfold isExcluded
    rw [BitVec.getLsbD_or, BitVec.getLsbD_or, Bool.or_eq_true, Bool.or_eq_true,
      Mask.getLsbD_ofPred, or_assoc]
    refine or_congr_right (or_congr_left ⟨And.right, ?_⟩)
    intro h
    exact ⟨h.2.lt, h⟩

theorem dispatch_silent (hcursor : ∀ c, s.cursor = some c → c < 32)
    (hsilent : ∀ j r, ¬ Says table args s j (.done r)) :
    s.dispatch table args =
      (none,
        { cursor := s.cursor
          excluded := s.excluded ||| Mask.ofPred fun j => Says table args s j .retire }) := by
  apply Dispatched.dispatch_eq hcursor
  refine .missed ?_ rfl ?_
  · intro j _ r
    rw [Ne, consult_take_iff]
    exact hsilent j r
  · intro j
    rw [consult_take_iff]
    unfold isExcluded
    rw [BitVec.getLsbD_or, Bool.or_eq_true, Mask.getLsbD_ofPred]
    refine or_congr_right ⟨And.right, ?_⟩
    intro h
    exact ⟨h.lt, h⟩

/-! ### Declining -/

/-- Putting another strategy in one place changes what is said in that place
only. -/
theorem says_set_ne {index j : Nat} {other : Strategy α β} {attempt : Attempt β} (h : index ≠ j) :
    Says (table.set index other) args s j attempt ↔ Says table args s j attempt := by
  have hentry : (table.set index other)[j]? = table[j]? := List.getElem?_set_ne h
  constructor
  · rintro ⟨strategy, ha, hbody⟩
    exact ⟨strategy, ⟨ha.bounded, hentry ▸ ha.entry, ha.notExcluded, ha.accepted⟩, hbody⟩
  · rintro ⟨strategy, ha, hbody⟩
    exact ⟨strategy, ⟨ha.bounded, hentry.trans ha.entry, ha.notExcluded, ha.accepted⟩, hbody⟩

/-- A strategy that declines might as well be any other one that does not take
the operands. -/
theorem dispatch_declined (hcursor : ∀ c, s.cursor = some c → c < 32) {index : Nat}
    (hdecline : Says table args s index .decline) {other : Strategy α β}
    (hother : other.guard args = true → other.body args = .decline) :
    s.dispatch (table.set index other) args = s.dispatch table args := by
  -- at the index neither table has anything but `decline` to say
  have hnew : ∀ {attempt}, Says (table.set index other) args s index attempt →
      attempt = .decline := by
    rintro attempt ⟨strategy, ha, hbody⟩
    obtain ⟨_, hold, _⟩ := hdecline
    have hlt : index < table.length := (List.getElem?_eq_some_iff.mp hold.entry).1
    have hentry := ha.entry
    rw [List.getElem?_set_self hlt] at hentry
    cases hentry
    rw [← hbody]
    exact hother ha.accepted
  have hsame : ∀ {j attempt}, attempt ≠ .decline →
      (Says (table.set index other) args s j attempt ↔ Says table args s j attempt) := by
    intro j attempt hattempt
    by_cases hj : index = j
    · subst hj
      constructor
      · intro h
        exact absurd (hnew h) hattempt
      · intro h
        exact absurd (h.unique hdecline) hattempt
    · exact says_set_ne hj
  symm
  apply (dispatch_dispatched table args s hcursor).unique
    (dispatch_dispatched (table.set index other) args s hcursor)
  · intro j r
    rw [consult_take_iff, consult_take_iff]
    exact hsame (by simp)
  · intro j
    rw [consult_take_iff, consult_take_iff]
    exact hsame (by simp)
  · intro j r hanswer
    have hsays := consult_take_iff.mp hanswer
    have hne : index ≠ j := by
      intro hj
      subst hj
      cases hsays.unique hdecline
    rw [List.getElem?_take_of_lt hsays.lt, List.getElem?_take_of_lt hsays.lt]
    exact List.getElem?_set_ne hne

/-! ### All of it -/

/-- The outcome of a dispatch, whatever the table, the operands and the state of
the site. -/
theorem dispatch_closed_form (table : List (Strategy α β)) (args : α) (s : Site)
    (hcursor : ∀ c, s.cursor = some c → c < 32) :
    (∀ c result, s.cursor = some c → Says table args s c (.done result) →
      s.dispatch table args = (some result, s)) ∧
    ((∀ c r, s.cursor = some c → ¬ Says table args s c (.done r)) →
      (∀ index strategy result, IsLeast {j | ∃ r, Says table args s j (.done r)} index →
        Applicable table args s index strategy → strategy.body args = .done result →
        s.dispatch table args =
          (some result,
            { cursor := some index
              excluded := s.excluded |||
                Mask.ofPred (fun j =>
                  (j < index ∨ s.cursor = some j) ∧ Says table args s j .retire) |||
                strategy.replaces })) ∧
      ((∀ j r, ¬ Says table args s j (.done r)) →
        s.dispatch table args =
          (none,
            { cursor := s.cursor
              excluded := s.excluded ||| Mask.ofPred fun j => Says table args s j .retire }))) ∧
    ∀ index other, Says table args s index .decline →
      (other.guard args = true → other.body args = .decline) →
      s.dispatch (table.set index other) args = s.dispatch table args := by
  refine ⟨?_, ?_, ?_⟩
  · intro c result hc hdone
    exact dispatch_remembered hcursor hc hdone
  · intro hforgotten
    constructor
    · intro index strategy result hleast happlicable hbody
      exact dispatch_first hcursor hforgotten hleast happlicable hbody
    · intro hsilent
      exact dispatch_silent hcursor hsilent
  · intro index other hdecline hother
    exact dispatch_declined hcursor hdecline hother

/-- A strategy that says the same about every number. -/
def constantly (attempt : Attempt Nat) (replaces : Mask) : Strategy Nat Nat :=
  { name := "constantly", guard := fun _ => true, body := fun _ => attempt, replaces }

/-- The first strategy retires and the second one declines; the third one has a
result, and the fourth one, at the cursor, retires too. -/
def disputed : List (Strategy Nat Nat) :=
  [constantly .retire 0, constantly .decline (Mask.bit 6), constantly (.done 7) (Mask.bit 5),
    constantly .retire 0]

/-- The strategy at the cursor is tried before the third one has its result, so
both that retire are excluded, and what the third one replaces is too. -/
theorem dispatch_disputed :
    let s : Site := { cursor := some 3 }
    (∀ c, s.cursor = some c → c < 32) ∧
      s.dispatch disputed 0 = (some 7, { cursor := some 2, excluded := 0b101001#32 }) := by
  intro s
  have hcursor : ∀ c, s.cursor = some c → c < 32 := by
    intro c hc
    cases hc
    decide
  have hdone : ∀ j r, Says disputed 0 s j (.done r) → j = 2 := by
    rintro j r ⟨strategy, ha, hbody⟩
    have hlt : j < 4 := (List.getElem?_eq_some_iff.mp ha.entry).1
    have hentry := ha.entry
    interval_cases j <;> cases hentry <;> first | rfl | cases hbody
  have hthird : Applicable disputed 0 s 2 (constantly (.done 7) (Mask.bit 5)) :=
    ⟨by decide, rfl, by decide, rfl⟩
  have hleast : IsLeast {j | ∃ r, Says disputed 0 s j (.done r)} 2 := by
    refine ⟨⟨7, _, hthird, rfl⟩, ?_⟩
    rintro j ⟨r, h⟩
    exact (hdone j r h).ge
  refine ⟨hcursor, ?_⟩
  rw [((dispatch_closed_form disputed 0 s hcursor).2.1 ?_).1 2 _ 7 hleast hthird rfl]
  · decide
  · intro c r hc hsays
    cases hc
    cases hdone 3 r hsays

end Site

end AdaptiveScript
