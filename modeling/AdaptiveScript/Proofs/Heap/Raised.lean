import AdaptiveScript.Proofs.Heap.Closed
import AdaptiveScript.Raise

/-! # Errors and the Heap

  An error that a program raised repeats what the heap says about the raised
  value: the class and the message of an object, and the traceback that the
  object holds. `EvalError.AgreesWith` says in full what the parts of an error
  have to do with each other and with a heap. Errors that no program raised
  agree with every heap (`EvalError.Bare`), and a raise agrees with the heap
  that it leaves.

  A raise has three cases: the value is no object, or it is one that holds a
  traceback (`raise_again`), or it is one that is given the traceback of this
  raise (`raise_first`).
-/

namespace AdaptiveScript

open Raise

/-! ### Agreement -/

/-- The message that an object shows: its message field as it is displayed, and
the empty text if there is none or it is nil. -/
inductive ShowsMessage (h : Heap) (o : ObjectId) : String → Prop where
  | absent : h.field? o messageField = none → ShowsMessage h o ""
  | nil : h.field? o messageField = some .nil → ShowsMessage h o ""
  | text {v : Value} : h.field? o messageField = some v → v ≠ .nil →
    ShowsMessage h o (v.display h.className)

/-- The message of a raised object is the one that it shows. -/
theorem showsMessage_objectMessage (h : Heap) (o : ObjectId) :
    ShowsMessage h o (objectMessage h o) := by
  unfold objectMessage
  split
  case h_1 hfield => exact .absent hfield
  case h_2 hfield => exact .nil hfield
  case h_3 v hnil hfield => exact .text hfield hnil

/-- The parts of an error agree with each other, and with the heap. -/
structure EvalError.AgreesWith (e : EvalError) (h : Heap) : Prop where
  /-- The text of the error is that of its cause. -/
  message : e.message = e.kind.message
  /-- There is a value if the program raised one. -/
  value : e.value.isSome = e.kind.isRaised
  /-- There is a traceback if the value is an object. -/
  traceback : e.traceback.isSome = true ↔ ∃ o, e.value = some (.object o)
  /-- There is a type name if the value is an object. -/
  typeName : (∃ name message, e.kind = .raised (some name) message) ↔
    ∃ o, e.value = some (.object o)
  /-- The cause has the class name and the message of a raised object, and the
  traceback is the one that the object holds. -/
  object : ∀ o, e.value = some (.object o) → ∃ object message trace, h.get? o = some object ∧
    ShowsMessage h o message ∧ e.kind = .raised (some object.cls.name) message ∧
    h.field? o stacktraceField = some trace ∧ e.traceback = some (trace.display h.className)
  /-- The cause has the text of any other raised value. -/
  other : ∀ v, e.value = some v → (∀ o, v ≠ .object o) →
    e.kind = .raised none (v.display h.className)

/-- The traceback of an error for an object is the one that the object holds. -/
theorem EvalError.AgreesWith.traceback_held {e : EvalError} {h : Heap} (he : e.AgreesWith h)
    {o : ObjectId} (hvalue : e.value = some (.object o)) :
    ∃ trace, h.field? o stacktraceField = some trace ∧
      e.traceback = some (trace.display h.className) := by
  obtain ⟨-, -, trace, -, -, -, htrace, htext⟩ := he.object o hvalue
  exact ⟨trace, htrace, htext⟩

/-- An error that no program raised. -/
structure EvalError.Bare (e : EvalError) : Prop where
  message : e.message = e.kind.message
  kind : e.kind.isRaised = false
  value : e.value = none
  traceback : e.traceback = none

namespace EvalError

/-- A call path makes no difference. -/
theorem Bare.attach {e : EvalError} (he : e.Bare) (stack : CallStack) (here : Option Location) :
    (stack.attach e here).Bare := by
  unfold CallStack.attach
  split
  · exact he
  · exact ⟨he.message, he.kind, he.value, he.traceback⟩

/-- The traceback is the one that the raise of this error has rendered. -/
def OwnTraceback (e : EvalError) : Prop :=
  ∃ backtrace, e.backtrace = some backtrace ∧ e.traceback = some (Raise.traceback e.message backtrace)

/-- The object that was raised, if it was one. -/
def object? (e : EvalError) : Option ObjectId := e.value.bind (·.object?)

theorem object?_eq_some {e : EvalError} {o : ObjectId} :
    e.object? = some o ↔ e.value = some (.object o) := by
  unfold object?
  cases hvalue : e.value with
  | none => simp
  | some v => cases v <;> simp [Value.object?]

end EvalError

/-! ### Raising -/

section

variable {h : Heap} {o : ObjectId} {v : Value} {location : Location} {stack : CallStack}

/-- The error of raising an object that holds a traceback. -/
def raisedObject (h : Heap) (o : ObjectId) (trace : Value) (backtrace : Backtrace) : EvalError :=
  { EvalError.raised (some (h.className o)) (objectMessage h o) (.object o) with
    backtrace := some backtrace, traceback := some (trace.display h.className) }

/-- The traceback of raising an object here. -/
def renderedTrace (h : Heap) (o : ObjectId) (location : Location) (stack : CallStack) : String :=
  traceback (raiseHeader (h.className o) (objectMessage h o)) (stack.capture (some location))

theorem raise_again {trace : Value} (htrace : h.field? o stacktraceField = some trace) :
    raise (.object o) location stack h =
      (raisedObject h o trace (stack.capture (some location)), h) := by
  simp only [raise, Heap.defineOnce, htrace]
  rfl

/-- The traceback of an object has nothing to do with its message. -/
theorem objectMessage_setField (h : Heap) (o : ObjectId) (w : Value) (i : ObjectId) :
    objectMessage (h.setField o stacktraceField w) i = objectMessage h i := by
  have hfield : (h.setField o stacktraceField w).field? i messageField = h.field? i messageField :=
    Heap.field?_setField_ne fun _ => by decide
  simp only [objectMessage, hfield, Heap.className_setField]

theorem raise_first (hnone : h.field? o stacktraceField = none) :
    raise (.object o) location stack h =
      (raisedObject (h.setField o stacktraceField (.str (renderedTrace h o location stack))) o
          (.str (renderedTrace h o location stack)) (stack.capture (some location)),
        h.setField o stacktraceField (.str (renderedTrace h o location stack))) := by
  simp only [raise, Heap.defineOnce, hnone, raisedObject, Heap.className_setField,
    objectMessage_setField]
  rfl

theorem raise_other (hv : ∀ o, v ≠ .object o) :
    raise v location stack h =
      ({ EvalError.raised none (v.display h.className) v with
          backtrace := some (stack.capture (some location)) }, h) := by
  cases v with
  | object o => exact absurd rfl (hv o)
  | _ => rfl

theorem raisedObject_agreesWith {trace : Value} (htrace : h.field? o stacktraceField = some trace)
    (backtrace : Backtrace) : (raisedObject h o trace backtrace).AgreesWith h where
  message := rfl
  value := rfl
  traceback := by simp [raisedObject, EvalError.raised]
  typeName := by simp [raisedObject, EvalError.raised]
  object i hvalue := by
    cases hvalue
    obtain ⟨object, hobject⟩ := Heap.get?_of_lt (Heap.lt_of_field? htrace)
    refine ⟨object, _, trace, hobject, showsMessage_objectMessage h o, ?_, htrace, rfl⟩
    simp [raisedObject, EvalError.raised, Heap.className, hobject]
  other w hvalue hw := by
    cases hvalue
    exact absurd rfl (hw o)

theorem raised_agreesWith (hv : ∀ o, v ≠ .object o) (backtrace : Backtrace) :
    ({ EvalError.raised none (v.display h.className) v with
        backtrace := some backtrace } : EvalError).AgreesWith h where
  message := rfl
  value := rfl
  traceback := by
    simp only [EvalError.raised, Option.isSome_none, Bool.false_eq_true, false_iff]
    rintro ⟨o, hvalue⟩
    exact hv o (Option.some.inj hvalue)
  typeName := by
    constructor
    · rintro ⟨name, message, hkind⟩
      cases hkind
    · rintro ⟨o, hvalue⟩
      exact absurd (Option.some.inj hvalue) (hv o)
  object i hvalue := absurd (Option.some.inj hvalue) (hv i)
  other w hvalue _ := by
    cases hvalue
    rfl

/-- The first raise of an object has rendered the traceback itself. -/
theorem raise_first_own (location : Location) (stack : CallStack)
    (hnone : h.field? o stacktraceField = none) :
    (raise (.object o) location stack h).1.OwnTraceback := by
  rw [raise_first hnone]
  refine ⟨stack.capture (some location), rfl, ?_⟩
  show some _ = some (Raise.traceback (raiseHeader _ _) _)
  rw [Heap.className_setField, objectMessage_setField]
  rfl

end

end AdaptiveScript
