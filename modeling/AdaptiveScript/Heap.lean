import AdaptiveScript.Value.Render

/-! # Classes, Objects and the Heap

  Objects are the only mutable values. The heap is a growing array of
  objects; an object's index is its identity. An object has a class, fixed
  when it is made, and named fields, each name at most once.
-/

namespace AdaptiveScript

/-! ### Classes -/

/-- A class: its identity and its name. Two classes may share a name. -/
structure ClassRef where
  id : Nat
  name : String
  deriving DecidableEq, Repr, Inhabited

namespace ClassRef

/-- Classes are compared by identity alone. -/
def same (c d : ClassRef) : Bool := c.id == d.id

/-- A class shown for inspection. -/
def inspect (c : ClassRef) : String := "Class(" ++ c.name ++ ")"

end ClassRef

/-! ### Fields -/

/-- Named values, at most one per name. -/
structure Fields where
  entries : List (String × Value) := []
  deriving Inhabited

namespace Fields

/-- No fields. -/
def empty : Fields := {}

/-- The value of a field. -/
def get? (fs : Fields) (key : String) : Option Value := fs.entries.lookup key

/-- Whether a field is present. -/
def contains (fs : Fields) (key : String) : Bool := (fs.get? key).isSome

/-- Replaces the value under `key`, or adds it at the end. -/
def insertEntry (key : String) (v : Value) : List (String × Value) → List (String × Value)
  | [] => [(key, v)]
  | (k, w) :: rest => if key == k then (k, v) :: rest else (k, w) :: insertEntry key v rest

/-- Sets a field, whether it is present or not. -/
def set (fs : Fields) (key : String) (v : Value) : Fields := ⟨insertEntry key v fs.entries⟩

/-- Fields from a list, later entries winning over earlier ones. -/
def ofList (entries : List (String × Value)) : Fields :=
  entries.foldl (fun fs e => fs.set e.1 e.2) empty

/-- The field names, sorted. -/
def names (fs : Fields) : List String := (fs.entries.map (·.1)).mergeSort (· ≤ ·)

/-- The fields, sorted by name. -/
def sorted (fs : Fields) : List (String × Value) := fs.entries.mergeSort (·.1 ≤ ·.1)

/-! What a write does to the reads. -/

theorem lookup_insertEntry (key k : String) (v : Value) (es : List (String × Value)) :
    (insertEntry key v es).lookup k = if k = key then some v else es.lookup k := by
  induction es with
  | nil =>
    by_cases h : k = key
    · simp [insertEntry, h]
    · simp [insertEntry, List.lookup_cons, h, beq_false_of_ne h]
  | cons e es ih =>
    obtain ⟨k', w⟩ := e
    by_cases hk : key = k'
    · subst hk
      by_cases h : k = key
      · simp [insertEntry, h]
      · simp [insertEntry, List.lookup_cons, h, beq_false_of_ne h]
    · by_cases h : k = k'
      · subst h
        simp [insertEntry, hk, Ne.symm hk]
      · simp [insertEntry, List.lookup_cons, hk, beq_false_of_ne h, ih]

@[simp] theorem get?_set_self (fs : Fields) (key : String) (v : Value) :
    (fs.set key v).get? key = some v := by
  simp [get?, set, lookup_insertEntry]

@[simp] theorem get?_set_ne (fs : Fields) {key k : String} (v : Value) (h : k ≠ key) :
    (fs.set key v).get? k = fs.get? k := by
  simp [get?, set, lookup_insertEntry, h]

@[simp] theorem get?_empty (key : String) : empty.get? key = none := rfl

end Fields

/-! ### Objects -/

/-- An object of the heap. -/
structure Object where
  cls : ClassRef
  fields : Fields := .empty
  deriving Inhabited

/-- An object shown for inspection: its class and its field names. -/
def Object.inspect (o : Object) : String :=
  "Object(" ++ o.cls.name ++ ", fields: " ++
    Value.bracketed (o.fields.names.map Text.quoted) ++ ")"

/-! ### The heap -/

/-- All objects made so far. -/
structure Heap where
  objects : Array Object := #[]
  deriving Inhabited

namespace Heap

/-- The empty heap. -/
def empty : Heap := {}

/-- The object with an identity. -/
def get? (h : Heap) (id : ObjectId) : Option Object := h.objects[id]?

/-- The class name of an object. -/
def className (h : Heap) : ClassNames := fun id => ((h.get? id).map (·.cls.name)).getD ""

/-- A field of an object. -/
def field? (h : Heap) (id : ObjectId) (key : String) : Option Value :=
  (h.get? id).bind (·.fields.get? key)

/-- Makes an object; its identity is new. -/
def alloc (h : Heap) (o : Object) : ObjectId × Heap := (h.objects.size, ⟨h.objects.push o⟩)

/-- Sets a field of an object. -/
def setField (h : Heap) (id : ObjectId) (key : String) (v : Value) : Heap :=
  ⟨h.objects.modify id fun o => { o with fields := o.fields.set key v }⟩

/-- Sets a field only if the object does not have it; tells whether it was
set. -/
def defineOnce (h : Heap) (id : ObjectId) (key : String) (v : Value) : Bool × Heap :=
  match h.field? id key with
  | some _ => (false, h)
  | none => (true, h.setField id key v)

/-- An object shown for inspection. -/
def inspectObject (h : Heap) (id : ObjectId) : String :=
  ((h.get? id).map Object.inspect).getD ""

/-! Reads after writes. -/

@[simp] theorem get?_alloc_new (h : Heap) (o : Object) :
    (h.alloc o).2.get? (h.alloc o).1 = some o := by
  simp [alloc, get?]

theorem get?_alloc_old (h : Heap) (o : Object) {id : ObjectId} (hid : id < h.objects.size) :
    (h.alloc o).2.get? id = h.get? id := by
  simp [alloc, get?, Array.getElem?_push, Nat.ne_of_lt hid]

theorem get?_setField (h : Heap) (id : ObjectId) (key : String) (v : Value) (i : ObjectId) :
    (h.setField id key v).get? i =
      if i = id then (h.get? i).map fun o => { o with fields := o.fields.set key v }
      else h.get? i := by
  by_cases hi : i = id
  · subst hi; simp [setField, get?, Array.getElem?_modify]
  · have : ¬ id = i := fun e => hi e.symm
    simp [setField, get?, Array.getElem?_modify, hi, this]

@[simp] theorem className_setField (h : Heap) (id : ObjectId) (key : String) (v : Value) :
    (h.setField id key v).className = h.className := by
  funext i
  by_cases hi : i = id <;> simp [className, get?_setField, hi, Function.comp_def]

end Heap

end AdaptiveScript
