import AdaptiveScript.Proofs.Value.Widening
import AdaptiveScript.Slot
import Mathlib.Order.Lattice

/-! # Slots Through a History

  All activations of a function share its slot table, so an assignment in
  one of them changes the kind under which the cells of all others are read.
  A history lists what has happened to the activations of a table: frames
  were made, frames were copied, and slots were given values, in any order
  and by any of them.

  Two laws hold after every history.

  - The kind of a slot bounds what its cells hold, in every frame
    (`cells_represent_kinds`). An assignment only moves kinds up, and a cell
    that fits a kind fits every kind above it.
  - A read shows the value that was assigned last, as that value reads at
    the two kinds that matter: the slot's kind right after the assignment and
    its kind now (`read_last_assigned`). The cell itself remembers the first
    of them, because it is the encoding of the value under it (`cell_run`).
-/

namespace AdaptiveScript

/-! ### The order of kinds -/

namespace SlotKind

/-- A kind is below those that its slots can widen to. -/
instance : LE SlotKind where
  le a b := a = .untyped ∨ a = b ∨ (a = .integer ∧ b = .float) ∨ b = .generic

instance (a b : SlotKind) : Decidable (a ≤ b) :=
  inferInstanceAs (Decidable (a = .untyped ∨ a = b ∨ (a = .integer ∧ b = .float) ∨ b = .generic))

instance : PartialOrder SlotKind where
  le_refl a := .inr (.inl rfl)
  le_trans a b c := by cases a <;> cases b <;> cases c <;> decide
  le_antisymm a b := by cases a <;> cases b <;> decide

/-- What a slot becomes is the least kind above its own and the value's. -/
instance : SemilatticeSup SlotKind where
  sup := join
  le_sup_left a b := by cases a <;> cases b <;> decide
  le_sup_right a b := by cases a <;> cases b <;> decide
  sup_le a b c := by cases a <;> cases b <;> cases c <;> decide

end SlotKind

/-! ### Assignments -/

namespace SlotTable

variable (t : SlotTable) {slot i : Nat} (v : Value)

theorem size_generalize : (t.generalize slot v).size = t.size := by
  simp [generalize, size]

/-- A slot that is not declared counts as generic. -/
theorem kind_of_size_le (h : t.size ≤ slot) : t.kind slot = .generic := by
  have hnone : t.descriptor? slot = none := Array.getElem?_eq_none h
  simp only [kind, hnone]

theorem kind_generalize_self :
    (t.generalize slot v).kind slot = (t.kind slot).join (.natural v) := by
  by_cases h : slot < t.size
  · have hd : t.descriptor? slot = some (t.descriptors[slot]) := Array.getElem?_eq_getElem h
    simp only [kind, descriptor?_generalize_self, hd, Option.map_some, SlotDescriptor.generalize]
  · have hsize : (t.generalize slot v).size ≤ slot := by
      rw [size_generalize]
      exact Nat.le_of_not_lt h
    rw [kind_of_size_le _ hsize, kind_of_size_le _ (Nat.le_of_not_lt h)]
    cases v <;> rfl

theorem kind_generalize_ne (h : i ≠ slot) : (t.generalize slot v).kind i = t.kind i := by
  simp only [kind, descriptor?_generalize_ne t v h]

/-- Kinds only move up. -/
theorem kind_le_generalize : t.kind i ≤ (t.generalize slot v).kind i := by
  by_cases hi : i = slot
  · subst hi
    rw [kind_generalize_self]
    exact le_sup_left (a := t.kind i)
  · rw [kind_generalize_ne t v hi]

/-- An assignment widens the kind of its slot, whether the frame has a cell
for it or not. -/
theorem assign_fst (frame : Frame) : (t.assign frame slot v).1 = t.generalize slot v := by
  unfold assign
  split
  case h_1 hnone =>
    have hsize : t.descriptors.size ≤ slot := Array.getElem?_eq_none_iff.mp hnone
    simp [generalize, Array.modify, Array.modifyM, Nat.not_lt.mpr hsize]
  case h_2 => rfl

theorem size_assign (frame : Frame) : (t.assign frame slot v).1.size = t.size := by
  rw [assign_fst, size_generalize]

theorem cell?_assign_self (frame : Frame) (h : slot < t.size) :
    (t.assign frame slot v).2.cell? slot =
      (frame.cell? slot).map fun _ => .encode ((t.generalize slot v).kind slot) v := by
  have hd : t.descriptor? slot = some (t.descriptors[slot]) := Array.getElem?_eq_getElem h
  have hkind : (t.generalize slot v).kind slot = (t.descriptors[slot].generalize v).kind := by
    simp only [kind, descriptor?_generalize_self, hd, Option.map_some]
  simp only [assign, hd, hkind, Frame.cell?_setCell_self]

theorem cell?_assign_ne (frame : Frame) (h : i ≠ slot) :
    (t.assign frame slot v).2.cell? i = frame.cell? i := by
  unfold assign
  split
  · rfl
  · exact Frame.cell?_setCell_ne _ _ h

end SlotTable

/-! ### Histories -/

/-- A slot table and the frames of the activations that share it, in the
order in which they were made. -/
structure Activations where
  table : SlotTable
  frames : List Frame

namespace Activations

/-- What can happen to the activations of a table. -/
inductive Step where
  /-- A frame of empty cells is made: of so many, or else of one for every slot. -/
  | create (size : Option Nat)
  /-- A frame is made as a copy of another one. -/
  | copy (source : Nat)
  /-- A slot of a frame is given a value. -/
  | assign (frame slot : Nat) (v : Value)

/-- A new frame, of the given size or else as the table has it. -/
def newFrame (a : Activations) : Option Nat → Frame
  | some size => .ofSize size
  | none => a.table.newFrame

/-- The activations after a step; a step on a frame that does not exist does
nothing. -/
def step (a : Activations) : Step → Activations
  | .create size => { a with frames := a.frames ++ [a.newFrame size] }
  | .copy source =>
    match a.frames[source]? with
    | some f => { a with frames := a.frames ++ [f] }
    | none => a
  | .assign frame slot v =>
    match a.frames[frame]? with
    | some f =>
      let (table, f) := a.table.assign f slot v
      { table, frames := a.frames.set frame f }
    | none => a

/-- The activations after a history, whose latest step comes first. The table
may have been used before, but no frame has been made. -/
def run (t : SlotTable) : List Step → Activations
  | [] => { table := t, frames := [] }
  | e :: earlier => (run t earlier).step e

/-- The kind of a slot. -/
def kind (a : Activations) (slot : Nat) : SlotKind := a.table.kind slot

/-- Reads a slot of a frame. -/
def read (a : Activations) (f : Frame) (slot : Nat) : Value := a.table.read f slot

/-- The latest assignment to a slot of a frame: its value, and the history up
to it and with it. A copy has the assignments of its source up to the
copying. -/
def lastAssigned (t : SlotTable) (slot : Nat) : List Step → Nat → Option (Value × List Step)
  | [], _ => none
  | .create _ :: earlier, frame =>
    if frame = (run t earlier).frames.length then none else lastAssigned t slot earlier frame
  | .copy source :: earlier, frame =>
    if frame = (run t earlier).frames.length then lastAssigned t slot earlier source
    else lastAssigned t slot earlier frame
  | .assign target slot' v :: earlier, frame =>
    if target = frame ∧ slot' = slot then some (v, .assign target slot' v :: earlier)
    else lastAssigned t slot earlier frame

/-! ### Single steps

    Where the table and a frame after a step come from. -/

section

variable {a : Activations} {f : Frame} {frame slot target source : Nat} {size : Option Nat}
  {v : Value}

theorem table_copy (a : Activations) (source : Nat) : (a.step (.copy source)).table = a.table := by
  simp only [step]
  split <;> rfl

theorem table_assign (h : a.frames[frame]? = some f) :
    (a.step (.assign frame slot v)).table = a.table.generalize slot v := by
  simp only [step, h, SlotTable.assign_fst]

/-- A frame of a list to which one was added is the added one or an old one. -/
theorem frame_append {frames : List Frame} {new : Frame}
    (h : (frames ++ [new])[frame]? = some f) :
    (frame = frames.length ∧ f = new) ∨
      (frame ≠ frames.length ∧ frames[frame]? = some f) := by
  rw [List.getElem?_append] at h
  by_cases hlt : frame < frames.length
  · rw [if_pos hlt] at h
    exact .inr ⟨by omega, h⟩
  · rw [if_neg hlt, List.getElem?_singleton] at h
    split at h
    · exact .inl ⟨by omega, (Option.some.inj h).symm⟩
    · cases h

/-- All cells of a new frame are empty. -/
theorem frame_create (h : (a.step (.create size)).frames[frame]? = some f) :
    (frame = a.frames.length ∧ ∀ {slot c}, f.cell? slot = some c → c = .empty) ∨
      (frame ≠ a.frames.length ∧ a.frames[frame]? = some f) := by
  obtain ⟨n, hn⟩ : ∃ n, a.newFrame size = .ofSize n := by
    cases size with
    | some n => exact ⟨n, rfl⟩
    | none => exact ⟨a.table.size, rfl⟩
  rcases frame_append h with ⟨hnew, rfl⟩ | hold
  · refine .inl ⟨hnew, fun {slot c} hc => ?_⟩
    rw [hn, Frame.cell?_ofSize] at hc
    split at hc
    · exact (Option.some.inj hc).symm
    · cases hc
  · exact .inr hold

theorem frame_copy (h : (a.step (.copy source)).frames[frame]? = some f) :
    (frame = a.frames.length ∧ a.frames[source]? = some f) ∨
      (frame ≠ a.frames.length ∧ a.frames[frame]? = some f) := by
  cases hsource : a.frames[source]? with
  | none =>
    have hold : a.frames[frame]? = some f := by simpa only [step, hsource] using h
    have hlt : frame < a.frames.length := (List.getElem?_eq_some_iff.mp hold).1
    exact .inr ⟨by omega, hold⟩
  | some g =>
    have happend : (a.frames ++ [g])[frame]? = some f := by simpa only [step, hsource] using h
    rcases frame_append happend with ⟨hnew, hg⟩ | hold
    · exact .inl ⟨hnew, by rw [hg]⟩
    · exact .inr hold

/-- After an assignment, a frame is what the assignment made of it. -/
theorem frame_assign (h : (a.step (.assign target slot v)).frames[frame]? = some f) :
    ∃ g, a.frames[frame]? = some g ∧
      f = if target = frame then (a.table.assign g slot v).2 else g := by
  cases htarget : a.frames[target]? with
  | none =>
    have hold : a.frames[frame]? = some f := by simpa only [step, htarget] using h
    have hne : target ≠ frame := by
      intro heq
      rw [heq, hold] at htarget
      cases htarget
    exact ⟨f, hold, by rw [if_neg hne]⟩
  | some g =>
    have hset : (a.frames.set target (a.table.assign g slot v).2)[frame]? = some f := by
      simpa only [step, htarget] using h
    by_cases heq : target = frame
    · subst heq
      have hlt : target < a.frames.length := (List.getElem?_eq_some_iff.mp htarget).1
      rw [List.getElem?_set_self hlt] at hset
      exact ⟨g, htarget, by rw [if_pos rfl]; exact (Option.some.inj hset).symm⟩
    · rw [List.getElem?_set_ne heq] at hset
      exact ⟨f, hset, by rw [if_neg heq]⟩

/-- After an assignment, the cell of a declared slot is the one that was
written or an old one. -/
theorem cell_assign {written : Nat} {c : Cell}
    (hf : (a.step (.assign target written v)).frames[frame]? = some f)
    (hslot : slot < a.table.size) (hc : f.cell? slot = some c) :
    ∃ g, a.frames[frame]? = some g ∧
      ((target = frame ∧ written = slot ∧ c = .encode ((a.table.generalize slot v).kind slot) v) ∨
        (¬ (target = frame ∧ written = slot) ∧ g.cell? slot = some c)) := by
  obtain ⟨g, hg, hfg⟩ := frame_assign hf
  refine ⟨g, hg, ?_⟩
  by_cases hframe : target = frame
  · rw [hfg, if_pos hframe] at hc
    by_cases hwritten : written = slot
    · subst hwritten
      rw [SlotTable.cell?_assign_self _ _ _ hslot, Option.map_eq_some_iff] at hc
      obtain ⟨-, -, hc⟩ := hc
      exact .inl ⟨hframe, rfl, hc.symm⟩
    · rw [SlotTable.cell?_assign_ne _ _ _ (Ne.symm hwritten)] at hc
      exact .inr ⟨fun h => hwritten h.2, hc⟩
  · rw [hfg, if_neg hframe] at hc
    exact .inr ⟨fun h => hframe h.1, hc⟩

theorem size_step (a : Activations) (e : Step) : (a.step e).table.size = a.table.size := by
  cases e with
  | create size => rfl
  | copy source => rw [table_copy]
  | assign frame slot v =>
    simp only [step]
    split
    · exact SlotTable.size_assign _ _ _
    · rfl

end

theorem size_run (t : SlotTable) (history : List Step) : (run t history).table.size = t.size := by
  induction history with
  | nil => rfl
  | cons e earlier ih => rw [run, size_step, ih]

/-! ### What the cells hold -/

/-- The cell of a slot after a history, given the latest assignment: empty
without one, else the value in the representation of the kind that the slot
had right after it, which is one that can hold the value. -/
inductive Stored (t : SlotTable) (slot : Nat) : Option (Value × List Step) → Cell → Prop where
  | empty : Stored t slot none .empty
  | encoded {v : Value} {upTo : List Step} : .natural v ≤ (run t upTo).kind slot →
    Stored t slot (some (v, upTo)) (.encode ((run t upTo).kind slot) v)

/-- A cell holds what was assigned last, as it was encoded then. -/
theorem cell_run (t : SlotTable) {slot : Nat} (hslot : slot < t.size) (history : List Step)
    {frame : Nat} {f : Frame} {c : Cell} (hf : (run t history).frames[frame]? = some f)
    (hc : f.cell? slot = some c) : Stored t slot (lastAssigned t slot history frame) c := by
  -- a copy continues the history of another frame, so the induction is for all frames
  induction history generalizing frame f c with
  | nil => simp [run] at hf
  | cons e earlier ih =>
    have hsize : slot < (run t earlier).table.size := by rw [size_run]; exact hslot
    cases e with
    | create size =>
      rcases frame_create hf with ⟨hnew, hempty⟩ | ⟨hold, hf'⟩
      · rw [lastAssigned, if_pos hnew, hempty hc]
        exact .empty
      · rw [lastAssigned, if_neg hold]
        exact ih hf' hc
    | copy source =>
      rcases frame_copy hf with ⟨hnew, hsource⟩ | ⟨hold, hf'⟩
      · rw [lastAssigned, if_pos hnew]
        exact ih hsource hc
      · rw [lastAssigned, if_neg hold]
        exact ih hf' hc
    | assign target written v =>
      obtain ⟨g, hg, ⟨htarget, hwritten, hc⟩ | ⟨hother, hold⟩⟩ := cell_assign hf hsize hc
      · -- the cell was written just now, under the kind that the step left
        rw [lastAssigned, if_pos ⟨htarget, hwritten⟩]
        subst htarget hwritten
        have hkind : (run t (.assign target written v :: earlier)).kind written =
            ((run t earlier).table.generalize written v).kind written := by
          rw [kind, run, table_assign hg]
        rw [hc, ← hkind]
        apply Stored.encoded
        rw [hkind, SlotTable.kind_generalize_self]
        exact le_sup_right (a := (run t earlier).table.kind written)
      · rw [lastAssigned, if_neg hother]
        exact ih hg hold

/-! ### What a read shows -/

/-- What a read shows of an assigned value, given the slot's kind right after
the assignment and its kind at the time of the read. -/
inductive Shown (written now : SlotKind) : Value → Value → Prop where
  /-- Only integers are ever shown as something else. -/
  | other {v : Value} : (∀ n, v ≠ .int n) → Shown written now v v
  /-- An integer given to a float slot is a float for good. -/
  | widened (n : Int64) : written = .float →
    Shown written now (.int n) (.float (nearestFloat n))
  /-- An integer given to a generic slot stays what it is. -/
  | boxed (n : Int64) : written = .generic → Shown written now (.int n) (.int n)
  /-- An integer given to an integer slot is a float while the slot is a
  float slot. -/
  | float (n : Int64) : written = .integer → now = .float →
    Shown written now (.int n) (.float (nearestFloat n))
  | int (n : Int64) : written = .integer → now ≠ .float → Shown written now (.int n) (.int n)

/-- Decoding shows what was encoded. -/
theorem shown_encode {written : SlotKind} {v : Value} (h : .natural v ≤ written)
    (now : SlotKind) : Shown written now v (Cell.decode now (.encode written v)) := by
  cases v with
  | int n =>
    cases written with
    | untyped => exact absurd h (show ¬ SlotKind.integer ≤ .untyped by decide)
    | boolean => exact absurd h (show ¬ SlotKind.integer ≤ .boolean by decide)
    | integer =>
      by_cases hnow : now = .float
      · have hdecode : Cell.decode now (.encode .integer (.int n)) =
            .float (nearestFloat n) := by
          simp only [Cell.encode, Cell.decode, if_pos hnow, widen_eq_nearestFloat]
        rw [hdecode]
        exact .float n rfl hnow
      · have hdecode : Cell.decode now (.encode .integer (.int n)) = .int n := by
          simp only [Cell.encode, Cell.decode, if_neg hnow]
        rw [hdecode]
        exact .int n rfl hnow
    | float =>
      have hdecode : Cell.decode now (.encode .float (.int n)) = .float (nearestFloat n) :=
        congrArg Value.float (widen_eq_nearestFloat n)
      rw [hdecode]
      exact .widened n rfl
    | generic => exact .boxed n rfl
  | _ => cases written <;> exact .other (by simp)

/-- What is shown of a value depends on the kind at the time of the read only
for an integer that was given to an integer slot. -/
theorem Shown.unique {written now now' : SlotKind} {v shown shown' : Value}
    (h : Shown written now v shown) (h' : Shown written now' v shown')
    (hnow : (∀ n, v ≠ .int n) ∨ written ≠ .integer ∨ now' = now) : shown' = shown := by
  cases h with
  | other hv =>
    cases h' with
    | other => rfl
    | _ n => exact absurd rfl (hv n)
  | _ n => cases h' <;> simp_all

theorem read_eq_decode (a : Activations) {f : Frame} {slot : Nat} {c : Cell}
    (hc : f.cell? slot = some c) : a.read f slot = c.decode (a.kind slot) := by
  simp only [read, SlotTable.read, hc, kind]

section

variable {t : SlotTable} {slot frame : Nat} {history : List Step} {f : Frame}

theorem read_unassigned (hslot : slot < t.size) (hf : (run t history).frames[frame]? = some f)
    (hcell : (f.cell? slot).isSome) (hnone : lastAssigned t slot history frame = none) :
    (run t history).read f slot = .nil := by
  obtain ⟨c, hc⟩ := Option.isSome_iff_exists.mp hcell
  have hstored := cell_run t hslot history hf hc
  rw [hnone] at hstored
  rw [read_eq_decode _ hc]
  cases hstored
  rfl

theorem read_assigned (hslot : slot < t.size) (hf : (run t history).frames[frame]? = some f)
    (hcell : (f.cell? slot).isSome) {v : Value} {upTo : List Step}
    (hlast : lastAssigned t slot history frame = some (v, upTo)) :
    Shown ((run t upTo).kind slot) ((run t history).kind slot) v
      ((run t history).read f slot) := by
  obtain ⟨c, hc⟩ := Option.isSome_iff_exists.mp hcell
  have hstored := cell_run t hslot history hf hc
  rw [hlast] at hstored
  rw [read_eq_decode _ hc]
  cases hstored with
  | encoded hnatural => exact shown_encode hnatural _

end

/-- After every history, a read shows the value that was assigned last: nil
if there was none, and else as the slot's kinds right after the assignment
and now say. Reads that go back to the same assignment, in whatever frames
and after whatever else has happened, agree unless the value is an integer
that was given to an integer slot, and the slot's kind differs. -/
theorem read_last_assigned (t : SlotTable) {slot : Nat} (hslot : slot < t.size)
    (history : List Step) {frame : Nat} {f : Frame}
    (hf : (run t history).frames[frame]? = some f) (hcell : (f.cell? slot).isSome) :
    (lastAssigned t slot history frame = none → (run t history).read f slot = .nil) ∧
      ∀ v upTo, lastAssigned t slot history frame = some (v, upTo) →
        Shown ((run t upTo).kind slot) ((run t history).kind slot) v
            ((run t history).read f slot) ∧
          ∀ history' frame' f', (run t history').frames[frame']? = some f' →
            (f'.cell? slot).isSome → lastAssigned t slot history' frame' = some (v, upTo) →
            ((∀ n, v ≠ .int n) ∨ (run t upTo).kind slot ≠ .integer ∨
              (run t history').kind slot = (run t history).kind slot) →
            (run t history').read f' slot = (run t history).read f slot := by
  refine ⟨read_unassigned hslot hf hcell, ?_⟩
  intro v upTo hlast
  have hshown := read_assigned hslot hf hcell hlast
  refine ⟨hshown, ?_⟩
  intro history' frame' f' hf' hcell' hlast' hnow
  exact hshown.unique (read_assigned hslot hf' hcell' hlast') hnow

/-- Two activations: the second one makes the slot of the first one's integer
a float slot. -/
def widenedElsewhere : List Step :=
  [.assign 1 0 (.float 0.5), .assign 0 0 (.int 3), .create none, .create none]

/-- The first activation reads its 3 as the float 3, and as an integer again once
the slot is generic. -/
theorem read_widenedElsewhere :
    let t := SlotTable.ofNames ["x"]
    let later := .assign 1 0 .nil :: widenedElsewhere
    let f : Frame := ⟨#[.int 3]⟩
    0 < t.size ∧ (run t widenedElsewhere).frames[0]? = some f ∧ (run t later).frames[0]? = some f ∧
      (run t widenedElsewhere).read f 0 = .float (.ofBits 0x4008000000000000) ∧
      (run t later).read f 0 = .int 3 := by
  intro t later f
  have hslot : 0 < t.size := by decide
  have hf : (run t widenedElsewhere).frames[0]? = some f := rfl
  have hf' : (run t later).frames[0]? = some f := rfl
  have hthree : nearestFloat 3 = .ofBits 0x4008000000000000 := by decide +kernel
  have hfloat : Shown .integer .float (.int 3) ((run t widenedElsewhere).read f 0) :=
    ((read_last_assigned t hslot widenedElsewhere hf rfl).2 _ _ rfl).1
  have hint : Shown .integer .generic (.int 3) ((run t later).read f 0) :=
    ((read_last_assigned t hslot later hf' rfl).2 _ _ rfl).1
  refine ⟨hslot, hf, hf', ?_, ?_⟩
  · rw [← hthree]
    exact (hfloat.unique (.float 3 rfl rfl) (.inr (.inr rfl))).symm
  · exact (hint.unique (.int 3 rfl (by decide)) (.inr (.inr rfl))).symm

/-! ### What a kind says about the cells -/

end Activations

namespace Cell

/-- The narrowest kind that can hold the content of a cell. -/
def natural : Cell → SlotKind
  | .empty => .untyped
  | .bool _ => .boolean
  | .int _ => .integer
  | .float _ => .float
  | .boxed v => .natural v

/-- A cell that a slot of the kind can have. -/
structure Represents (kind : SlotKind) (c : Cell) : Prop where
  content : c.natural ≤ kind
  boxed : ∀ v, c = .boxed v → kind = .generic

/-- The cells that a slot can have, by its kind. -/
def Allowed : SlotKind → Cell → Prop
  | .untyped, c => c = .empty
  | .boolean, c => c = .empty ∨ ∃ b, c = .bool b
  | .integer, c => c = .empty ∨ ∃ n, c = .int n
  | .float, c => c = .empty ∨ (∃ n, c = .int n) ∨ ∃ x, c = .float x
  | .generic, _ => True

namespace Represents

variable {kind kind' : SlotKind} {c : Cell}

theorem empty (kind : SlotKind) : Represents kind .empty where
  content := .inl rfl
  boxed := by simp

/-- A cell survives the widening of its slot. -/
theorem mono (h : Represents kind c) (hle : kind ≤ kind') : Represents kind' c where
  content := h.content.trans hle
  boxed := by
    intro v hc
    have hgeneric : SlotKind.generic ≤ kind' := h.boxed v hc ▸ hle
    revert hgeneric
    cases kind' <;> decide

/-- A value in the representation of a kind that can hold it. -/
theorem encode {v : Value} (h : .natural v ≤ kind) : Represents kind (.encode kind v) := by
  rcases h with huntyped | hown | ⟨hint, hfloat⟩ | hgeneric
  · cases v <;> cases huntyped
  · -- the value's own kind: unboxed, unless that kind is generic
    subst hown
    cases v <;> exact ⟨le_refl _, by simp [Cell.encode, SlotKind.natural]⟩
  · -- an integer in a float slot
    subst hfloat
    cases v <;> cases hint
    exact ⟨le_refl _, by simp [Cell.encode]⟩
  · subst hgeneric
    have hboxed : Cell.encode .generic v = .boxed v := by cases v <;> rfl
    rw [hboxed]
    exact ⟨.inr (.inr (.inr rfl)), fun _ _ => rfl⟩

theorem allowed (h : Represents kind c) : Allowed kind c := by
  have hcontent := h.content
  cases c with
  | boxed v =>
    rw [h.boxed v rfl]
    trivial
  | empty =>
    cases kind <;> simp [Allowed]
  | bool b =>
    revert hcontent
    cases kind <;> simp [Allowed, natural] <;> decide
  | int n =>
    revert hcontent
    cases kind <;> simp [Allowed, natural] <;> decide
  | float x =>
    revert hcontent
    cases kind <;> simp [Allowed, natural] <;> decide

end Represents

end Cell

/-- The values that a slot can show, by its kind. -/
def Value.Typed : SlotKind → Value → Prop
  | .untyped, v => v = .nil
  | .boolean, v => v = .nil ∨ ∃ b, v = .bool b
  | .integer, v => v = .nil ∨ ∃ n, v = .int n
  | .float, v => v = .nil ∨ ∃ x, v = .float x
  | .generic, _ => True

theorem Value.typed_nil (kind : SlotKind) : Typed kind .nil := by
  cases kind <;> simp [Typed]

theorem Cell.Allowed.decode {kind : SlotKind} {c : Cell} (h : c.Allowed kind) :
    (c.decode kind).Typed kind := by
  cases kind with
  | untyped => rw [h]; rfl
  | boolean => rcases h with rfl | ⟨b, rfl⟩ <;> simp [Cell.decode, Value.Typed]
  | integer => rcases h with rfl | ⟨n, rfl⟩ <;> simp [Cell.decode, Value.Typed]
  | float => rcases h with rfl | ⟨n, rfl⟩ | ⟨x, rfl⟩ <;> simp [Cell.decode, Value.Typed]
  | generic => trivial

namespace Activations

/-- In every frame, the cell of a declared slot is one that the slot's kind
allows. -/
def Sound (a : Activations) : Prop :=
  ∀ {frame slot : Nat} {f : Frame} {c : Cell}, a.frames[frame]? = some f →
    slot < a.table.size → f.cell? slot = some c → c.Represents (a.kind slot)

/-- A step keeps all cells of all frames in order, also those that it does
not touch. -/
theorem Sound.step {a : Activations} (h : a.Sound) (e : Step) : (a.step e).Sound := by
  intro frame slot f c hf hslot hc
  rw [size_step] at hslot
  cases e with
  | create size =>
    rcases frame_create hf with ⟨-, hempty⟩ | ⟨-, hold⟩
    · rw [hempty hc]
      exact .empty _
    · exact h hold hslot hc
  | copy source =>
    have hkind : (a.step (.copy source)).kind slot = a.kind slot := by
      rw [kind, table_copy, kind]
    rw [hkind]
    rcases frame_copy hf with ⟨-, hsource⟩ | ⟨-, hold⟩
    · exact h hsource hslot hc
    · exact h hold hslot hc
  | assign target written v =>
    obtain ⟨g, hg, hcell⟩ := cell_assign hf hslot hc
    cases htarget : a.frames[target]? with
    | none =>
      have hstep : a.step (.assign target written v) = a := by
        simp only [Activations.step, htarget]
      rw [hstep] at hf ⊢
      exact h hf hslot hc
    | some g' =>
      have hkind : (a.step (.assign target written v)).kind slot =
          (a.table.generalize written v).kind slot := by
        rw [kind, table_assign htarget]
      rw [hkind]
      rcases hcell with ⟨-, hwritten, hc⟩ | ⟨-, hold⟩
      · rw [hc, hwritten]
        apply Cell.Represents.encode
        rw [SlotTable.kind_generalize_self]
        exact le_sup_right (a := a.table.kind slot)
      · -- the cell is an old one, but its slot may have widened
        exact (h hg hslot hold).mono (SlotTable.kind_le_generalize _ _)

theorem sound_run (t : SlotTable) (history : List Step) : (run t history).Sound := by
  induction history with
  | nil =>
    intro frame slot f c hf
    simp [run] at hf
  | cons e earlier ih => exact ih.step e

/-- After every history, the kind of a declared slot says what its cells are,
in every frame: a cell is boxed only if the slot is generic, and the kind of
its content is below the slot's. So a slot that is a boolean, an integer or
a float slot shows nil or values of that type. -/
theorem cells_represent_kinds (t : SlotTable) (history : List Step) {f : Frame}
    (hf : f ∈ (run t history).frames) {slot : Nat} (hslot : slot < t.size) :
    (∀ c, f.cell? slot = some c →
      c.Allowed ((run t history).kind slot) ∧
        (∀ v, c = .boxed v → (run t history).kind slot = .generic) ∧
        c.natural ≤ (run t history).kind slot) ∧
      ((run t history).read f slot).Typed ((run t history).kind slot) := by
  obtain ⟨frame, hframe⟩ := List.getElem?_of_mem hf
  have hsize : slot < (run t history).table.size := by rw [size_run]; exact hslot
  have hcells : ∀ c, f.cell? slot = some c → c.Represents ((run t history).kind slot) :=
    fun c hc => sound_run t history hframe hsize hc
  constructor
  · intro c hc
    have hrep := hcells c hc
    exact ⟨hrep.allowed, hrep.boxed, hrep.content⟩
  · cases hc : f.cell? slot with
    | none =>
      have hnil : (run t history).read f slot = .nil := by
        simp only [read, SlotTable.read, hc]
      rw [hnil]
      exact Value.typed_nil _
    | some c =>
      rw [read_eq_decode _ hc]
      exact (hcells c hc).allowed.decode

/-- The integer cell of the first activation stays one in the float slot. -/
theorem cells_widenedElsewhere :
    let t := SlotTable.ofNames ["x"]
    let f : Frame := ⟨#[.int 3]⟩
    f ∈ (run t widenedElsewhere).frames ∧ 0 < t.size ∧
      (run t widenedElsewhere).kind 0 = .float ∧
      (Cell.int 3).Allowed .float ∧ ((run t widenedElsewhere).read f 0).Typed .float := by
  intro t f
  have hf : f ∈ (run t widenedElsewhere).frames := List.mem_cons_self
  have hslot : 0 < t.size := by decide
  have hcells := cells_represent_kinds t widenedElsewhere hf hslot
  exact ⟨hf, hslot, rfl, (hcells.1 (.int 3) rfl).1, hcells.2⟩

end Activations

end AdaptiveScript
