import AdaptiveScript.Heap
import AdaptiveScript.Proofs.Operator.Failure
import AdaptiveScript.Slot

/-! # Closed Heaps

  The identity of an object is its place in the heap, so a value that refers
  to no object of the heap refers to one that may come to be. Nothing in the
  language makes such a value: objects get their identities when they are
  made, and are never removed. A heap is closed if the fields of its objects
  refer to its objects only; making an object and setting a field keep it
  closed, and the results of operators and builtins refer to nothing that
  their operands do not refer to.

  In a closed heap the text of a value is settled. It is made of the class
  names of the objects that it refers to, and these are there to stay
  (`Value.display_congr`).
-/

namespace AdaptiveScript

/-! ### The objects of a value -/

namespace Value

mutual

/-- The objects that a value refers to. -/
def objects : Value → List ObjectId
  | .list items => objectsAll items
  | .object id => [id]
  | _ => []

/-- The objects that values refer to. -/
def objectsAll : List Value → List ObjectId
  | [] => []
  | v :: vs => v.objects ++ objectsAll vs

end

/-- The value refers to objects of a heap of `n` objects only. -/
def Below (n : Nat) (v : Value) : Prop := ∀ o ∈ v.objects, o < n

instance (n : Nat) (v : Value) : Decidable (v.Below n) :=
  inferInstanceAs (Decidable (∀ o ∈ v.objects, o < n))

theorem Below.mono {n m : Nat} {v : Value} (h : v.Below n) (hle : n ≤ m) : v.Below m :=
  fun o ho => Nat.lt_of_lt_of_le (h o ho) hle

@[simp] theorem below_object {n : Nat} {o : ObjectId} : (Value.object o).Below n ↔ o < n := by
  simp [Below, objects]

mutual

/-- The text of a value depends on the class names of its objects only. -/
theorem display_congr {names names' : ClassNames} :
    ∀ v : Value, (∀ o ∈ v.objects, names o = names' o) → v.display names = v.display names'
  | .nil, _ => rfl
  | .bool _, _ => rfl
  | .int _, _ => rfl
  | .float _, _ => rfl
  | .str _, _ => rfl
  | .list items, h => by
    rw [objects] at h
    rw [display, display, displayAll_congr items h]
  | .object id, h => by
    rw [display, display, h id (by simp [objects])]
  | .callable _ _, _ => rfl

theorem displayAll_congr {names names' : ClassNames} :
    ∀ vs : List Value, (∀ o ∈ objectsAll vs, names o = names' o) →
      displayAll names vs = displayAll names' vs
  | [], _ => rfl
  | v :: vs, h => by
    rw [objectsAll] at h
    rw [displayAll, displayAll, display_congr v fun o ho => h o (List.mem_append_left _ ho),
      displayAll_congr vs fun o ho => h o (List.mem_append_right _ ho)]

end

end Value

/-! ### Cells -/

/-- The objects that a cell refers to. -/
def Cell.objects : Cell → List ObjectId
  | .boxed v => v.objects
  | _ => []

namespace Operator

end Operator

namespace Builtin

end Builtin

/-! ### Fields -/

namespace Fields

theorem get?_foldl_set {entries : List (String × Value)} {fs : Fields} {key : String} {v : Value}
    (h : (entries.foldl (fun fs e => fs.set e.1 e.2) fs).get? key = some v) :
    (key, v) ∈ entries ∨ fs.get? key = some v := by
  induction entries generalizing fs with
  | nil => exact .inr h
  | cons e entries ih =>
    rcases ih h with hmem | hget
    · exact .inl (List.mem_cons_of_mem _ hmem)
    · by_cases hkey : key = e.1
      · subst hkey
        rw [get?_set_self] at hget
        cases hget
        exact .inl List.mem_cons_self
      · rw [get?_set_ne _ _ hkey] at hget
        exact .inr hget

/-- A field of a new object is one that it was given. -/
theorem mem_of_get?_ofList {entries : List (String × Value)} {key : String} {v : Value}
    (h : (ofList entries).get? key = some v) : (key, v) ∈ entries := by
  rcases get?_foldl_set h with hmem | hempty
  · exact hmem
  · cases hempty

end Fields

/-! ### Heaps -/

namespace Heap

/-- Number of objects. -/
def size (h : Heap) : Nat := h.objects.size

/-- The fields of objects refer to objects of the heap only. -/
def Closed (h : Heap) : Prop := ∀ ⦃o key v⦄, h.field? o key = some v → v.Below h.size

variable {h : Heap} {o id : ObjectId} {key k : String} {v w : Value}

theorem get?_of_lt (ho : o < h.size) : ∃ object, h.get? o = some object :=
  ⟨h.objects[o], Array.getElem?_eq_getElem ho⟩

theorem lt_of_field? (hfield : h.field? o key = some v) : o < h.size := by
  obtain ⟨object, hobject, -⟩ := Option.bind_eq_some_iff.mp hfield
  exact (Array.getElem?_eq_some_iff.mp hobject).1

@[simp] theorem size_setField : (h.setField id key v).size = h.size := by
  simp [size, setField]

@[simp] theorem size_alloc (object : Object) : (h.alloc object).2.size = h.size + 1 := by
  simp [size, alloc]

theorem field?_setField_self (hid : id < h.size) :
    (h.setField id key v).field? id key = some v := by
  obtain ⟨object, hobject⟩ := get?_of_lt hid
  simp [field?, get?_setField, hobject]

theorem field?_setField_ne (hne : o = id → k ≠ key) :
    (h.setField id key v).field? o k = h.field? o k := by
  unfold field?
  rw [get?_setField]
  by_cases ho : o = id
  · rw [if_pos ho]
    cases h.get? o with
    | none => rfl
    | some object => exact Fields.get?_set_ne _ _ (hne ho)
  · rw [if_neg ho]

theorem field?_alloc_old (object : Object) (ho : o < h.size) :
    (h.alloc object).2.field? o key = h.field? o key := by
  rw [field?, get?_alloc_old h object ho, field?]

theorem field?_alloc_new (object : Object) :
    (h.alloc object).2.field? h.size key = object.fields.get? key := by
  have hnew : (h.alloc object).2.get? h.size = some object := get?_alloc_new h object
  rw [field?, hnew]
  rfl

theorem className_alloc_old (object : Object) (ho : o < h.size) :
    (h.alloc object).2.className o = h.className o := by
  simp only [className, get?_alloc_old h object ho]

theorem className_alloc_new (object : Object) :
    (h.alloc object).2.className h.size = object.cls.name := by
  have hnew : (h.alloc object).2.get? h.size = some object := get?_alloc_new h object
  simp [className, hnew]

/-- A field of the heap with a new object is an old one or one of the new
object. -/
theorem field?_alloc {object : Object} (hfield : (h.alloc object).2.field? o key = some v) :
    h.field? o key = some v ∨ o = h.size ∧ object.fields.get? key = some v := by
  have hlt := lt_of_field? hfield
  rw [size_alloc] at hlt
  by_cases ho : o < h.size
  · rw [field?_alloc_old object ho] at hfield
    exact .inl hfield
  · obtain rfl : o = h.size := Nat.le_antisymm (Nat.le_of_lt_succ hlt) (Nat.le_of_not_lt ho)
    rw [field?_alloc_new] at hfield
    exact .inr ⟨rfl, hfield⟩

/-- A field after a write is the one before, or the one that was written. -/
theorem field?_setField (hfield : (h.setField id key v).field? o k = some w) :
    h.field? o k = some w ∨ o = id ∧ k = key ∧ w = v := by
  by_cases hsame : o = id ∧ k = key
  · obtain ⟨rfl, rfl⟩ := hsame
    have hlt := lt_of_field? hfield
    rw [size_setField] at hlt
    rw [field?_setField_self hlt] at hfield
    exact .inr ⟨rfl, rfl, (Option.some.inj hfield).symm⟩
  · rw [field?_setField_ne fun ho hk => hsame ⟨ho, hk⟩] at hfield
    exact .inl hfield

namespace Closed

theorem setField (hclosed : h.Closed) (hv : v.Below h.size) : (h.setField id key v).Closed := by
  intro o k w hfield
  rw [size_setField]
  rcases field?_setField hfield with hold | ⟨-, -, hw⟩
  · exact hclosed hold
  · rw [hw]
    exact hv

theorem alloc (hclosed : h.Closed) (cls : ClassRef) {entries : List (String × Value)}
    (hentries : ∀ e ∈ entries, e.2.Below h.size) :
    (h.alloc { cls, fields := .ofList entries }).2.Closed := by
  intro o k w hfield
  rw [size_alloc]
  rcases field?_alloc hfield with hold | ⟨-, hnew⟩
  · exact (hclosed hold).mono (Nat.le_succ _)
  · exact (hentries _ (Fields.mem_of_get?_ofList hnew)).mono (Nat.le_succ _)

end Closed

end Heap

end AdaptiveScript
