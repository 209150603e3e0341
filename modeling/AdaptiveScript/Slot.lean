import AdaptiveScript.Value.Basic

/-! # Adaptive Slots

  Every declared local of a function has one descriptor, shared by all
  activations of the function, whose kind only widens:

      untyped → boolean → generic
      untyped → integer → float → generic

  A cell of an activation holds a value in the representation of the kind
  that was current when it was written. A read goes through the kind that
  is current then, so an integer cell of a slot that has become a float slot
  is read as a float.
-/

namespace AdaptiveScript

/-! ### Kinds -/

/-- What a slot can hold without boxing. -/
inductive SlotKind where
  | untyped
  | boolean
  | integer
  | float
  | generic
  deriving DecidableEq, Repr, Inhabited

namespace SlotKind

/-- The narrowest kind that can hold a value. -/
def natural : Value → SlotKind
  | .bool _ => .boolean
  | .int _ => .integer
  | .float _ => .float
  | _ => .generic

/-- The kind of a slot of kind `a` that is given a value of kind `b`. -/
def join : SlotKind → SlotKind → SlotKind
  | .untyped, b => b
  | a, .untyped => a
  | .integer, .float => .float
  | .float, .integer => .float
  | a, b => if a = b then a else .generic

end SlotKind

/-- The name and the current kind of a local. -/
structure SlotDescriptor where
  name : String
  kind : SlotKind := .untyped
  deriving DecidableEq, Repr, Inhabited

/-- Widens the kind so that it can hold a value. -/
def SlotDescriptor.generalize (d : SlotDescriptor) (v : Value) : SlotDescriptor :=
  { d with kind := d.kind.join (SlotKind.natural v) }

/-! ### Cells and frames -/

/-- One cell of an activation. -/
inductive Cell where
  | empty
  | bool (b : Bool)
  | int (n : Int64)
  | float (x : Float)
  | boxed (v : Value)
  deriving Inhabited

namespace Cell

/-- A value in the representation of a kind. -/
def encode : SlotKind → Value → Cell
  | .boolean, .bool b => .bool b
  | .integer, .int n => .int n
  | .float, .float x => .float x
  | .float, .int n => .float (widen n)
  | _, v => .boxed v

/-- The value of a cell under a kind. -/
def decode (kind : SlotKind) : Cell → Value
  | .empty => .nil
  | .bool b => .bool b
  | .int n => if kind = .float then .float (widen n) else .int n
  | .float x => .float x
  | .boxed v => v

end Cell

/-- The cells of one activation, by slot. -/
structure Frame where
  cells : Array Cell
  deriving Inhabited

namespace Frame

/-- A frame of empty cells. -/
def ofSize (n : Nat) : Frame := ⟨Array.replicate n .empty⟩

/-- The cell of a slot. -/
def cell? (f : Frame) (slot : Nat) : Option Cell := f.cells[slot]?

/-- Writes a cell; a slot without a cell is left alone. -/
def setCell (f : Frame) (slot : Nat) (c : Cell) : Frame := ⟨f.cells.setIfInBounds slot c⟩

theorem cell?_ofSize (n slot : Nat) :
    (ofSize n).cell? slot = if slot < n then some .empty else none := by
  simp only [cell?, ofSize, Array.getElem?_replicate]

theorem cell?_setCell_self (f : Frame) (slot : Nat) (c : Cell) :
    (f.setCell slot c).cell? slot = (f.cell? slot).map fun _ => c := by
  simp only [cell?, setCell, Array.getElem?_setIfInBounds_self]
  by_cases h : slot < f.cells.size <;> simp [h]

theorem cell?_setCell_ne (f : Frame) {slot i : Nat} (c : Cell) (h : i ≠ slot) :
    (f.setCell slot c).cell? i = f.cell? i := by
  simp only [cell?, setCell, Array.getElem?_setIfInBounds_ne (Ne.symm h)]

end Frame

/-! ### Slot tables -/

/-- The descriptors of a function's locals, by slot. -/
structure SlotTable where
  descriptors : Array SlotDescriptor := #[]
  deriving DecidableEq, Inhabited

namespace SlotTable

/-- Untyped descriptors for the given locals. -/
def ofNames (names : List String) : SlotTable := ⟨(names.map fun n => { name := n }).toArray⟩

/-- Number of slots. -/
def size (t : SlotTable) : Nat := t.descriptors.size

/-- The descriptor of a slot. -/
def descriptor? (t : SlotTable) (slot : Nat) : Option SlotDescriptor := t.descriptors[slot]?

/-- A frame with one empty cell for every slot. -/
def newFrame (t : SlotTable) : Frame := .ofSize t.size

/-- The current kind of a slot; generic for a slot out of range. -/
def kind (t : SlotTable) (slot : Nat) : SlotKind :=
  match t.descriptor? slot with
  | some d => d.kind
  | none => .generic

/-- The kinds of all slots. -/
def kinds (t : SlotTable) : List SlotKind := t.descriptors.toList.map (·.kind)

/-- Widens the kind of a slot so that it can hold a value. -/
def generalize (t : SlotTable) (slot : Nat) (v : Value) : SlotTable :=
  ⟨t.descriptors.modify slot (·.generalize v)⟩

theorem descriptor?_generalize_self (t : SlotTable) (slot : Nat) (v : Value) :
    (t.generalize slot v).descriptor? slot = (t.descriptor? slot).map (·.generalize v) := by
  simp only [descriptor?, generalize, Array.getElem?_modify, if_true]

theorem descriptor?_generalize_ne (t : SlotTable) {slot i : Nat} (v : Value) (h : i ≠ slot) :
    (t.generalize slot v).descriptor? i = t.descriptor? i := by
  simp only [descriptor?, generalize, Array.getElem?_modify, Ne.symm h, if_false]

/-- Stores a value, after widening the slot's kind. A slot out of range is
left alone. -/
def assign (t : SlotTable) (f : Frame) (slot : Nat) (v : Value) : SlotTable × Frame :=
  match t.descriptor? slot with
  | none => (t, f)
  | some d =>
    let kind := (d.generalize v).kind
    (t.generalize slot v, f.setCell slot (.encode kind v))

/-- Reads a slot under its current kind; nil where nothing was stored. -/
def read (t : SlotTable) (f : Frame) (slot : Nat) : Value :=
  match f.cell? slot with
  | none => .nil
  | some c => c.decode (t.kind slot)

end SlotTable

end AdaptiveScript
