import AdaptiveScript.Proofs.Slot.History
import Mathlib.Order.Bounds.Basic

/-! # The Kind of a Slot

  The kind of a slot is a register that all activations write to. Each of them
  sees the kind that the others have left and joins it with that of its own
  value, so it has to be shown that the order of the assignments leaves no
  trace.

  It does not, because a join is a least upper bound: after every history the
  kind of a slot is the least one above the kind that the slot started with and
  the kinds of all values that it was given (`kind_run_isLUB`). It makes no
  difference which frames the values went to, whether these frames have a cell
  for the slot, in what order and how often they came, or what other slots were
  given meanwhile (`kind_least_upper_bound`).
-/

namespace AdaptiveScript

namespace SlotTable

variable (t : SlotTable) (slot : Nat) (v : Value)

/-- What one assignment does to the kinds: its own slot moves up to hold the
value, and the others stay. -/
theorem kind_assign (f : Frame) :
    t.kind slot ≤ (t.assign f slot v).1.kind slot ∧
      .natural v ≤ (t.assign f slot v).1.kind slot ∧
      ∀ i, i ≠ slot → (t.assign f slot v).1.kind i = t.kind i := by
  rw [assign_fst]
  refine ⟨kind_le_generalize t v, ?_, ?_⟩
  · rw [kind_generalize_self]
    exact le_sup_right (a := t.kind slot)
  · intro i hi
    exact kind_generalize_ne t v hi

end SlotTable

namespace Activations

/-! ### The values of a slot -/

/-- The values that a slot has been given, by any frame. -/
def given (t : SlotTable) (slot : Nat) : List Step → List Value
  | [] => []
  | .create _ :: earlier => given t slot earlier
  | .copy _ :: earlier => given t slot earlier
  | .assign frame slot' v :: earlier =>
    if frame < (run t earlier).frames.length ∧ slot' = slot then v :: given t slot earlier
    else given t slot earlier

/-- The kinds of these values. -/
def kindsGiven (t : SlotTable) (slot : Nat) (history : List Step) : Set SlotKind :=
  {k | ∃ v ∈ given t slot history, SlotKind.natural v = k}

/-- One assignment adds the kind of its value. -/
theorem kindsGiven_assign {t : SlotTable} {slot frame : Nat} {v : Value} {earlier : List Step}
    (h : frame < (run t earlier).frames.length) :
    kindsGiven t slot (.assign frame slot v :: earlier) =
      insert (SlotKind.natural v) (kindsGiven t slot earlier) := by
  ext k
  simp [kindsGiven, given, h, eq_comm]

/-- An assignment that misses the slot, or a frame that does not exist, adds
nothing. -/
theorem kindsGiven_other {t : SlotTable} {slot slot' frame : Nat} {v : Value} {earlier : List Step}
    (h : ¬ (frame < (run t earlier).frames.length ∧ slot' = slot)) :
    kindsGiven t slot (.assign frame slot' v :: earlier) = kindsGiven t slot earlier := by
  simp only [kindsGiven, given, if_neg h]

/-! ### The kind after a history -/

theorem kind_step_assign {a : Activations} {frame : Nat} (h : frame < a.frames.length) (slot : Nat)
    (v : Value) : (a.step (.assign frame slot v)).kind slot = a.kind slot ⊔ .natural v := by
  unfold kind
  rw [table_assign (List.getElem?_eq_getElem h), SlotTable.kind_generalize_self]
  rfl

theorem kind_step_other {a : Activations} {frame slot slot' : Nat} {v : Value}
    (h : ¬ (frame < a.frames.length ∧ slot' = slot)) :
    (a.step (.assign frame slot' v)).kind slot = a.kind slot := by
  by_cases hframe : frame < a.frames.length
  · have hslot : slot ≠ slot' := fun heq => h ⟨hframe, heq.symm⟩
    unfold kind
    rw [table_assign (List.getElem?_eq_getElem hframe), SlotTable.kind_generalize_ne _ _ hslot]
  · have hnone : a.frames[frame]? = none := List.getElem?_eq_none (by omega)
    simp [step, hnone]

/-- The run lemma: a step joins the kind of at most one more value. -/
theorem kind_run_isLUB (t : SlotTable) (slot : Nat) (history : List Step) :
    IsLUB (insert (t.kind slot) (kindsGiven t slot history)) ((run t history).kind slot) := by
  induction history with
  | nil =>
    have hnone : kindsGiven t slot [] = ∅ := by simp [kindsGiven, given]
    rw [hnone, insert_empty_eq]
    exact isLUB_singleton
  | cons e earlier ih =>
    cases e with
    | create size => exact ih
    | copy source =>
      unfold kind
      rw [run, table_copy]
      exact ih
    | assign frame slot' v =>
      by_cases h : frame < (run t earlier).frames.length ∧ slot' = slot
      · obtain ⟨hframe, rfl⟩ := h
        rw [kindsGiven_assign hframe, Set.insert_comm, run, kind_step_assign hframe, sup_comm]
        exact ih.insert _
      · rw [kindsGiven_other h, run, kind_step_other h]
        exact ih

/-- After every history, the kind of a slot is the least upper bound of the kind
that it started with and the kinds of the values that it was given, so a slot
that was untyped has the least kind above all these values. Histories that give
it values of the same kinds, in whatever order, number and frames, leave it the
same kind. A further assignment, whatever the frame, moves the kind up to hold
the value, and leaves the other slots alone. -/
theorem kind_least_upper_bound (t : SlotTable) (slot : Nat) (history : List Step) :
    IsLUB (insert (t.kind slot) (kindsGiven t slot history)) ((run t history).kind slot) ∧
      (t.kind slot = .untyped →
        IsLUB (kindsGiven t slot history) ((run t history).kind slot)) ∧
      (∀ history', kindsGiven t slot history' = kindsGiven t slot history →
        (run t history').kind slot = (run t history).kind slot) ∧
      ∀ (f : Frame) (v : Value),
        let after := ((run t history).table.assign f slot v).1
        (run t history).kind slot ≤ after.kind slot ∧ .natural v ≤ after.kind slot ∧
          ∀ i, i ≠ slot → after.kind i = (run t history).kind i := by
  have hlub := kind_run_isLUB t slot history
  refine ⟨hlub, ?_, ?_, ?_⟩
  · intro huntyped
    -- the least kind of all adds nothing to the bounds
    constructor
    · intro k hk
      exact hlub.1 (Set.mem_insert_of_mem _ hk)
    · intro k hk
      apply hlub.2
      rw [upperBounds_insert, huntyped]
      exact ⟨.inl rfl, hk⟩
  · intro history' hsame
    have hlub' := kind_run_isLUB t slot history'
    rw [hsame] at hlub'
    exact hlub'.unique hlub
  · intro f v
    exact SlotTable.kind_assign _ slot v f

/-- An integer and then a float, the float in a frame without cells. -/
def integerFirst : List Step :=
  [.assign 1 0 (.float 0.5), .assign 0 1 .nil, .assign 0 0 (.int 3), .create (some 0), .create none]

/-- The float first, and the integer twice. -/
def floatFirst : List Step :=
  [.assign 0 0 (.int 4), .assign 0 0 (.int 3), .assign 1 0 (.float 0.5), .create (some 0), .create none]

/-- Either way the slot becomes a float slot. -/
theorem kind_integerFirst_floatFirst :
    let t := SlotTable.ofNames ["x", "y"]
    t.kind 0 = .untyped ∧ IsLUB (kindsGiven t 0 integerFirst) .float ∧
      (run t floatFirst).kind 0 = .float := by
  intro t
  have hkind : (run t integerFirst).kind 0 = .float := by decide
  have hsame : kindsGiven t 0 floatFirst = kindsGiven t 0 integerFirst := by
    ext k
    cases k <;> simp [kindsGiven, given, floatFirst, integerFirst, run, step, SlotKind.natural]
  obtain ⟨-, hlub, horder, -⟩ := kind_least_upper_bound t 0 integerFirst
  rw [hkind] at hlub horder
  exact ⟨by decide, hlub (by decide), horder floatFirst hsame⟩

end Activations

end AdaptiveScript
