import AdaptiveScript.Proofs.Heap.Raised
import AdaptiveScript.Proofs.Linked.References
import AdaptiveScript.Proofs.Machine.CallPath
import AdaptiveScript.Proofs.Machine.Invariant
import AdaptiveScript.Proofs.Machine.Refinement

/-! # Surfaced Errors Agree With the Heap

  Nothing in the language catches an error. One that was raised leaves every
  call until it surfaces as the answer to a request, and the heap is then as
  the raise left it, so the error still agrees with it. Between requests the
  objects stay where they are, with their classes, and if no statement of the
  program sets the field of the traceback, they keep the traceback that they
  have. All errors that surface for one object then have the same traceback:
  that of the object's first raise, or the one that it was made with
  (`surfaced_errors_agree`).

  Two relations between heaps carry this. `Later` relates the heap before to
  the heap after any stretch of a run that did not end in an error. `Surfaced`
  adds what a raise does, which is always the last thing that a run does.
-/

namespace AdaptiveScript

open Raise

/-- No statement of the program sets the field. -/
def LinkedProgram.NeverSets (program : LinkedProgram) (name : String) : Prop :=
  ∀ ⦃key f⦄, program.at? key = some f → ∀ object value, .setField object name value ∉ f.body

/-- A node of the program makes objects of this class with this traceback. -/
def LinkedProgram.CreatesWith (program : LinkedProgram) (className : String) (trace : Value) :
    Prop :=
  ∃ key f cls fields values, program.at? key = some f ∧ .new cls fields ∈ f.subnodes ∧
    cls.name = className ∧ values.map (·.1) = fields.map (·.1) ∧
    (Fields.ofList values).get? stacktraceField = some trace

namespace Machine

/-! ### Heaps that come after each other -/

/-- What holds of a heap and any later one. -/
structure Retains (program : LinkedProgram) (h h' : Heap) : Prop where
  size : h.size ≤ h'.size
  classes : ∀ ⦃o⦄, o < h.size → h'.className o = h.className o
  traces : program.NeverSets stacktraceField → ∀ ⦃o v⦄,
    h.field? o stacktraceField = some v → h'.field? o stacktraceField = some v

/-- An object of the later heap has the traceback from before, or it was made
with it in the meantime. -/
def Inherits (program : LinkedProgram) (h h' : Heap) (o : ObjectId) (trace : Value) : Prop :=
  h.field? o stacktraceField = some trace ∨
    h.size ≤ o ∧ program.CreatesWith (h'.className o) trace

/-- A later heap, if nothing was raised in the meantime. -/
structure Later (program : LinkedProgram) (h h' : Heap) : Prop extends Retains program h h' where
  given : program.NeverSets stacktraceField → ∀ ⦃o v⦄,
    h'.field? o stacktraceField = some v → Inherits program h h' o v

/-- A later heap, after a run that has ended with the error. -/
structure Surfaced (program : LinkedProgram) (h h' : Heap) (e : EvalError) : Prop
    extends Retains program h h' where
  agrees : e.AgreesWith h'
  given : program.NeverSets stacktraceField → ∀ ⦃o v⦄, h'.field? o stacktraceField = some v →
    e.value = some (.object o) ∨ Inherits program h h' o v
  first : program.NeverSets stacktraceField → ∀ ⦃o⦄, e.value = some (.object o) →
    e.OwnTraceback ∨
      ∃ v, h'.field? o stacktraceField = some v ∧ Inherits program h h' o v

section

variable {program : LinkedProgram} {h h' h'' : Heap} {o : ObjectId} {v : Value} {e : EvalError}

theorem Retains.refl (h : Heap) : Retains program h h :=
  ⟨Nat.le_refl _, fun _ _ => rfl, fun _ _ _ hv => hv⟩

theorem Retains.trans (hh : Retains program h h') (hh' : Retains program h' h'') :
    Retains program h h'' where
  size := Nat.le_trans hh.size hh'.size
  classes _ ho := (hh'.classes (Nat.lt_of_lt_of_le ho hh.size)).trans (hh.classes ho)
  traces hnever _ _ hv := hh'.traces hnever (hh.traces hnever hv)

/-- The text of a value is settled. -/
theorem Retains.display (hh : Retains program h h') (hv : v.Below h.size) :
    v.display h'.className = v.display h.className :=
  Value.display_congr v fun _ ho => hh.classes (hv _ ho)

/-- What an object inherited until now it has inherited later. -/
theorem Inherits.retained (hinherits : Inherits program h h' o v) (hh' : Retains program h' h'')
    (ho : o < h'.size) : Inherits program h h'' o v := by
  rcases hinherits with hold | ⟨hnew, hcreates⟩
  · exact .inl hold
  · refine .inr ⟨hnew, ?_⟩
    rw [hh'.classes ho]
    exact hcreates

/-- What an object inherits from a heap it inherits from the ones before. -/
theorem Later.inherits (hh : Later program h h') (hnever : program.NeverSets stacktraceField)
    (hh' : Retains program h' h'') (hinherits : Inherits program h' h'' o v) :
    Inherits program h h'' o v := by
  rcases hinherits with hold | ⟨hnew, hcreates⟩
  · exact (hh.given hnever hold).retained hh' (Heap.lt_of_field? hold)
  · exact .inr ⟨Nat.le_trans hh.size hnew, hcreates⟩

theorem Later.refl (h : Heap) : Later program h h :=
  { Retains.refl h with given := fun _ _ _ hv => .inl hv }

theorem Later.trans (hh : Later program h h') (hh' : Later program h' h'') :
    Later program h h'' :=
  { hh.toRetains.trans hh'.toRetains with
    given := fun hnever _ _ hv => hh.inherits hnever hh'.toRetains (hh'.given hnever hv) }

/-- An error that agrees with the heap from which the run began. -/
theorem Surfaced.unchanged (he : e.AgreesWith h) : Surfaced program h h e :=
  { Retains.refl h with
    agrees := he
    given := fun _ _ _ hv => .inr (.inl hv)
    first := fun _ o ho => by
      obtain ⟨trace, htrace, -⟩ := he.traceback_held ho
      exact .inr ⟨trace, htrace, .inl htrace⟩ }

/-! ### What changes a heap -/

theorem Later.setField {name : String} (id : ObjectId) (w : Value)
    (hname : program.NeverSets stacktraceField → name ≠ stacktraceField) :
    Later program h (h.setField id name w) := by
  have hfield : program.NeverSets stacktraceField → ∀ o,
      (h.setField id name w).field? o stacktraceField = h.field? o stacktraceField :=
    fun hnever o => Heap.field?_setField_ne fun _ => (hname hnever).symm
  refine ⟨⟨?_, ?_, ?_⟩, ?_⟩
  · rw [Heap.size_setField]
  · intro o _
    rw [Heap.className_setField]
  · intro hnever o v hv
    rw [hfield hnever]
    exact hv
  · intro hnever o v hv
    rw [hfield hnever] at hv
    exact .inl hv

theorem Later.alloc {key : FunctionKey} {f : LinkedFunction} {cls : ClassRef}
    {fields : List (String × Node)} {values : List (String × Value)}
    (hf : program.at? key = some f) (hnode : .new cls fields ∈ f.subnodes)
    (hnames : values.map (·.1) = fields.map (·.1)) :
    Later program h (h.alloc { cls, fields := .ofList values }).2 := by
  refine ⟨⟨?_, ?_, ?_⟩, ?_⟩
  · rw [Heap.size_alloc]
    exact Nat.le_succ _
  · intro o ho
    exact Heap.className_alloc_old _ ho
  · intro _ o v hv
    rw [Heap.field?_alloc_old _ (Heap.lt_of_field? hv)]
    exact hv
  · intro _ o v hv
    rcases Heap.field?_alloc hv with hold | ⟨rfl, hnew⟩
    · exact .inl hold
    · rw [Inherits, Heap.className_alloc_new]
      exact .inr ⟨Nat.le_refl _, key, f, cls, fields, values, hf, hnode, rfl, hnames, hnew⟩

/-- The first raise of an object, which is given a traceback by it. -/
theorem Surfaced.raise_first {location : Location} {stack : CallStack} (ho : o < h.size)
    (hnone : h.field? o stacktraceField = none) :
    Surfaced program h (Raise.raise (.object o) location stack h).2
      (Raise.raise (.object o) location stack h).1 := by
  have hown := raise_first_own location stack hnone
  rw [AdaptiveScript.raise_first hnone] at hown ⊢
  refine ⟨⟨?_, ?_, ?_⟩, raisedObject_agreesWith (Heap.field?_setField_self ho) _, ?_, ?_⟩
  · rw [Heap.size_setField]
  · intro i _
    rw [Heap.className_setField]
  · intro _ i w hw
    have hi : i ≠ o := by
      rintro rfl
      rw [hnone] at hw
      cases hw
    rw [Heap.field?_setField_ne fun hio => absurd hio hi]
    exact hw
  · intro _ i w hw
    rcases Heap.field?_setField hw with hold | ⟨hi, -, -⟩
    · exact .inr (.inl hold)
    · exact .inl (by rw [hi]; rfl)
  · intro _ i _
    exact .inl hown

/-- A raise of a value that refers to objects of the heap. -/
theorem Surfaced.raise {location : Location} {stack : CallStack} (hv : v.Below h.size) :
    Surfaced program h (Raise.raise v location stack h).2
      (Raise.raise v location stack h).1 := by
  by_cases hobject : ∃ o, v = .object o
  · obtain ⟨o, rfl⟩ := hobject
    cases htrace : h.field? o stacktraceField with
    | none => exact .raise_first (Value.below_object.mp hv) htrace
    | some trace =>
      rw [raise_again htrace]
      exact .unchanged (raisedObject_agreesWith htrace _)
  · have hother : ∀ o, v ≠ .object o := fun o ho => hobject ⟨o, ho⟩
    rw [raise_other hother]
    exact .unchanged (raised_agreesWith hother _)

end

/-! ### What an error says of its object -/

/-- The error of a run that began with the heap `h` and ended with `h'` says of
an object of `h` what its traceback was at the beginning, or what this raise
rendered if it had none. -/
structure Determined (h h' : Heap) (e : EvalError) : Prop where
  agrees : e.AgreesWith h'
  held : ∀ o v, e.value = some (.object o) → h.field? o stacktraceField = some v →
    e.traceback = some (v.display h.className)
  own : ∀ o, e.value = some (.object o) → o < h.size → h.field? o stacktraceField = none →
    e.OwnTraceback

theorem Surfaced.determined {program : LinkedProgram} {h h' : Heap} {e : EvalError}
    (hsurfaced : Surfaced program h h' e) (hclosed : h.Closed)
    (hnever : program.NeverSets stacktraceField) : Determined h h' e where
  agrees := hsurfaced.agrees
  held := by
    intro o v hvalue hv
    obtain ⟨trace, htrace, htext⟩ := hsurfaced.agrees.traceback_held hvalue
    rw [hsurfaced.traces hnever hv] at htrace
    cases htrace
    rw [htext, hsurfaced.display (hclosed hv)]
  own := by
    intro o hvalue hlt hnone
    rcases hsurfaced.first hnever hvalue with hown | ⟨v, -, hinherits⟩
    · exact hown
    · rcases hinherits with hv | ⟨hnew, -⟩
      · rw [hnone] at hv
        cases hv
      · exact absurd hlt (Nat.not_lt.mpr hnew)

/-! ### Evaluations -/

section

variable {program : LinkedProgram} {key : FunctionKey} {s : State} {φ : Frame} {slot : Nat}
  {v : Value}

theorem heap_printAll (s : State) (texts : List String) : (s.printAll texts).heap = s.heap := by
  induction texts generalizing s with
  | nil => rfl
  | cons text texts ih => exact ih (s.print text)

/-- A builtin leaves the heap alone. -/
theorem heap_afterReply (key : FunctionKey) (inst : Nat) (e : Event) (reply : Builtin.Reply)
    (s : State) : (afterReply key inst e reply s).heap = s.heap := by
  rw [afterReply, heap_printAll, State.heap_record, State.heap_setFunction]

end

/-- The error that a request was answered with. -/
def Observation.error? (seen : Observation) : Option EvalError :=
  match seen.outcome with
  | some (.error e) => some e
  | _ => none

/-- The heap after an answer, by the error of the answer. -/
def Answered (program : LinkedProgram) (h h' : Heap) : Option EvalError → Prop
  | none => Later program h h'
  | some e => Surfaced program h h' e

/-- Answers that follow each other, from the first heap to the last one. -/
inductive Chain (program : LinkedProgram) : Heap → List Observation → Heap → Prop where
  | nil {h : Heap} : h.Closed → Chain program h [] h
  | cons {h last : Heap} {seen : Observation} {rest : List Observation} : h.Closed →
    Answered program h seen.heap seen.error? → Chain program seen.heap rest last →
    Chain program h (seen :: rest) last

/-- The errors that surfaced for an object. -/
def errorsFor (o : ObjectId) (seen : List Observation) : List EvalError :=
  (seen.filterMap Observation.error?).filter fun e => e.object? = some o

section

variable {program : LinkedProgram} {h last : Heap} {o : ObjectId}

theorem errorsFor_cons (o : ObjectId) (seen : Observation) (rest : List Observation) :
    (∃ e, seen.error? = some e ∧ e.value = some (.object o) ∧
        errorsFor o (seen :: rest) = e :: errorsFor o rest) ∨
      (∀ e, seen.error? = some e → e.value ≠ some (.object o)) ∧
        errorsFor o (seen :: rest) = errorsFor o rest := by
  cases herror : seen.error? with
  | none => exact .inr ⟨(fun e he => by cases he), by simp [errorsFor, herror]⟩
  | some e =>
    by_cases ho : e.object? = some o
    · exact .inl ⟨e, rfl, EvalError.object?_eq_some.mp ho, by simp [errorsFor, herror, ho]⟩
    · refine .inr ⟨fun e' he' hvalue => ?_, by simp [errorsFor, herror, ho]⟩
      cases he'
      exact ho (EvalError.object?_eq_some.mpr hvalue)

theorem Answered.retains {h' : Heap} {error? : Option EvalError}
    (hh : Answered program h h' error?) : Retains program h h' := by
  cases error? with
  | none => exact Later.toRetains hh
  | some e => exact Surfaced.toRetains hh

/-- What an object inherits from the heap after an answer that was not an
error for it, it inherits from the heap before. -/
theorem Answered.inherits {h' : Heap} {error? : Option EvalError} {v : Value}
    (hh : Answered program h h' error?) (hnever : program.NeverSets stacktraceField)
    (hother : ∀ e, error? = some e → e.value ≠ some (.object o)) (hlast : Retains program h' last)
    (hinherits : Inherits program h' last o v) : Inherits program h last o v := by
  cases error? with
  | none => exact Later.inherits hh hnever hlast hinherits
  | some e =>
    rcases hinherits with hold | ⟨hnew, hcreates⟩
    · rcases Surfaced.given hh hnever hold with hvalue | hbefore
      · exact absurd hvalue (hother e rfl)
      · exact hbefore.retained hlast (Heap.lt_of_field? hold)
    · exact .inr ⟨Nat.le_trans hh.retains.size hnew, hcreates⟩

namespace Chain

variable {seen : List Observation}

theorem closed (hchain : Chain program h seen last) : h.Closed := by
  cases hchain with
  | nil hclosed => exact hclosed
  | cons hclosed _ _ => exact hclosed

theorem retains (hchain : Chain program h seen last) : Retains program h last := by
  induction hchain with
  | nil _ => exact .refl _
  | cons _ hanswered _ ih => exact hanswered.retains.trans ih

/-- Every error agrees with the heap of its answer. -/
theorem agrees (hchain : Chain program h seen last) :
    ∀ one ∈ seen, ∀ e, one.error? = some e → e.AgreesWith one.heap := by
  induction hchain with
  | nil _ => exact fun _ hone => absurd hone List.not_mem_nil
  | @cons h last one rest _ hanswered _ ih =>
    intro other hother e he
    rcases List.mem_cons.mp hother with hsame | hrest
    · subst hsame
      rw [he] at hanswered
      exact Surfaced.agrees hanswered
    · exact ih other hrest e he

/-- All errors for an object that holds a traceback have that one. -/
theorem held (hchain : Chain program h seen last) (hnever : program.NeverSets stacktraceField)
    {v : Value} (hv : h.field? o stacktraceField = some v) :
    ∀ e ∈ errorsFor o seen, e.traceback = some (v.display h.className) := by
  induction hchain with
  | nil _ => exact fun _ he => absurd he List.not_mem_nil
  | @cons h last one rest hclosed hanswered _ ih =>
    have hv' := hanswered.retains.traces hnever hv
    have hdisplay := hanswered.retains.display (hclosed hv)
    have hrest := ih hv'
    rw [hdisplay] at hrest
    rcases errorsFor_cons o one rest with ⟨e, herror, hvalue, hcons⟩ | ⟨-, hcons⟩
    · rw [hcons, List.forall_mem_cons]
      refine ⟨?_, hrest⟩
      rw [herror] at hanswered
      exact (Surfaced.determined hanswered hclosed hnever).held o v hvalue hv
    · rw [hcons]
      exact hrest

/-- All errors for an object have the same traceback. -/
theorem same (hchain : Chain program h seen last) (hnever : program.NeverSets stacktraceField)
    (o : ObjectId) :
    ∀ e ∈ errorsFor o seen, ∀ e' ∈ errorsFor o seen, e.traceback = e'.traceback := by
  induction hchain with
  | nil _ => exact fun _ he => absurd he List.not_mem_nil
  | @cons h last one rest _ hanswered hchain ih =>
    rcases errorsFor_cons o one rest with ⟨e, herror, hvalue, hcons⟩ | ⟨-, hcons⟩
    · -- the first error leaves a traceback that the others find
      rw [herror] at hanswered
      obtain ⟨trace, htrace, htext⟩ := (Surfaced.agrees hanswered).traceback_held hvalue
      have hall : ∀ e' ∈ errorsFor o (one :: rest),
          e'.traceback = some (trace.display one.heap.className) := by
        rw [hcons, List.forall_mem_cons]
        exact ⟨htext, hchain.held hnever htrace⟩
      intro e₁ he₁ e₂ he₂
      rw [hall e₁ he₁, hall e₂ he₂]
    · rw [hcons]
      exact ih

/-- The first error for an object has the traceback of its own raise, or one
that the object inherits. -/
theorem first (hchain : Chain program h seen last) (hnever : program.NeverSets stacktraceField)
    (o : ObjectId) :
    ∀ e, (errorsFor o seen).head? = some e → e.OwnTraceback ∨
      ∃ v, Inherits program h last o v ∧ e.traceback = some (v.display last.className) := by
  induction hchain with
  | nil _ => exact fun _ he => by cases he
  | @cons h last one rest _ hanswered hchain ih =>
    intro e he
    rcases errorsFor_cons o one rest with ⟨e', herror, hvalue, hcons⟩ | ⟨hother, hcons⟩
    · rw [hcons] at he
      obtain rfl : e' = e := Option.some.inj he
      rw [herror] at hanswered
      rcases Surfaced.first hanswered hnever hvalue with hown | ⟨v, hv, hinherits⟩
      · exact .inl hown
      · obtain ⟨trace, htrace, htext⟩ := (Surfaced.agrees hanswered).traceback_held hvalue
        rw [hv] at htrace
        cases htrace
        refine .inr ⟨v, hinherits.retained hchain.retains (Heap.lt_of_field? hv), ?_⟩
        rw [htext, hchain.retains.display (hchain.closed hv)]
    · rw [hcons] at he
      rcases ih e he with hown | ⟨v, hinherits, htext⟩
      · exact .inl hown
      · exact .inr ⟨v, hanswered.inherits hnever hother hchain.retains hinherits, htext⟩

end Chain

end

/-- `rethrow`, linked. -/
def linkedRethrow : LinkedProgram :=
  { source := "main"
    functions :=
      #[ { name := "fail", source := "main", params := [0], locals := ["e"]
           body := [.raise (.var 0) ⟨2, 5⟩] },
         { name := "retry", source := "main", params := [0], locals := ["e"]
           body := [.ret (some (.call (.user 0) [.var 0] ⟨5, 12⟩))] } ]
    main := { name := programName, source := "main", params := [], locals := [], body := [] }
    classes := [] }

/-- A heap with one object. -/
def rethrowHeap : Heap :=
  (Heap.empty.alloc { cls := ⟨0, "E"⟩, fields := .ofList [("message", .str "m")] }).2

/-- The state in which `rethrow` starts. -/
def rethrowStart : State := .initial linkedRethrow .interpret rethrowHeap .still

/-- The object is raised directly, and then one call deeper. -/
def rethrowRequests : List (Request × Nat) :=
  [(.call "fail" [.object 0], 2), (.call "retry" [.object 0], 2)]

end Machine

end AdaptiveScript
