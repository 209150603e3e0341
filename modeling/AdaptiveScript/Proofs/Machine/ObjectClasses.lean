import AdaptiveScript.Proofs.Machine.Persistence

/-! # The Classes of Objects

  An object gets its class when it is made, and no later step changes it. So
  every object of a session is one that was there at the start or has the class
  of a node of the program (`session_hasClasses`). A property of classes that
  holds of both holds of every object at every time.

  A program does two things to its heap: it sets a field of an object, and it
  makes an object of one of its classes. What both of them keep, every session
  keeps (`HeapInvariant.session`).
-/

namespace AdaptiveScript

/-! ### Heaps -/

namespace Heap

/-- All objects have classes with the property. -/
def HasClasses (P : ClassRef → Prop) (h : Heap) : Prop := ∀ o ∈ h.objects, P o.cls

variable {P : ClassRef → Prop} {h : Heap}

theorem HasClasses.mono {Q : ClassRef → Prop} (hh : h.HasClasses P) (hPQ : ∀ c, P c → Q c) :
    h.HasClasses Q :=
  fun o ho => hPQ o.cls (hh o ho)

theorem HasClasses.alloc (hh : h.HasClasses P) {object : Object} (hobject : P object.cls) :
    (h.alloc object).2.HasClasses P := by
  intro o ho
  rcases Array.mem_push.mp ho with hold | hnew
  · exact hh o hold
  · rw [hnew]
    exact hobject

theorem HasClasses.setField (hh : h.HasClasses P) (id : ObjectId) (name : String) (v : Value) :
    (h.setField id name v).HasClasses P := by
  intro o ho
  obtain ⟨i, hi⟩ := Array.mem_iff_getElem?.mp ho
  have hget : (h.setField id name v).get? i = some o := hi
  rw [get?_setField] at hget
  by_cases hid : i = id
  · rw [if_pos hid] at hget
    obtain ⟨o', ho', hcls⟩ := Option.map_eq_some_iff.mp hget
    rw [← hcls]
    exact hh o' (Array.mem_of_getElem? ho')
  · rw [if_neg hid] at hget
    exact hh o (Array.mem_of_getElem? hget)

end Heap

namespace Machine

variable {p : Policy} {program : LinkedProgram} {P : ClassRef → Prop}

/-! ### Actions and runs -/

/-- What an action does to the heap: nothing, or it sets a field, or it makes an
object. -/
theorem Action.perform_heap (a : Action) (s : State) :
    (a.perform p s).heap = s.heap ∨
      (∃ id name v, (a.perform p s).heap = s.heap.setField id name v) ∨
      ∃ cls fields, a = .make cls fields ∧
        (a.perform p s).heap = (s.heap.alloc { cls, fields := .ofList fields }).2 := by
  cases a with
  | assign key frame slot v =>
    left
    simp only [perform, assignSlot]
    split
    · exact State.heap_setFunction s key _
    · rfl
  | apply key op site v w =>
    left
    rw [perform, applyOperator_eq, ofResult_snd]
    exact State.heap_setFunction s key _
  | invoke key entry inst vs location =>
    left
    rw [perform, invokeBuiltin_eq, ofResult_snd, heap_afterReply]
  | make cls fields => exact .inr (.inr ⟨cls, fields, rfl, rfl⟩)
  | write target name v =>
    rcases writeField_cases target name v with ⟨id, hwrite⟩ | hfail
    · right; left
      exact ⟨id, name, v, by rw [perform, hwrite]⟩
    · left
      rw [perform, hfail]
      rfl
  | raise v location =>
    rcases raise_heap v location s.stack s.heap with ⟨id, w, hset⟩ | hsame
    · exact .inr (.inl ⟨id, _, w, hset⟩)
    · exact .inl hsame
  | enter frame =>
    left
    simp only [perform]
    split <;> rfl
  | leave => exact .inl rfl

/-- A property of heaps that nothing a program does to its objects can break. -/
structure HeapInvariant (program : LinkedProgram) (I : Heap → Prop) : Prop where
  setField : ∀ {h : Heap} (id : ObjectId) (name : String) (v : Value),
    I h → I (h.setField id name v)
  alloc : ∀ {h : Heap} {key : FunctionKey} {f : LinkedFunction} {cls : ClassRef}
    {nodes : List (String × Node)} (fields : Fields), program.at? key = some f →
    .new cls nodes ∈ f.subnodes → I h → I (h.alloc { cls, fields }).2

namespace HeapInvariant

variable {I : Heap → Prop} (hI : HeapInvariant program I)

include hI

theorem perform {a : Action} (ha : a.Of program) {s : State} (hs : I s.heap) :
    I (a.perform p s).heap := by
  rcases a.perform_heap (p := p) s with hsame | ⟨id, name, v, hset⟩ | ⟨cls, fields, rfl, hmake⟩
  · rw [hsame]
    exact hs
  · rw [hset]
    exact hI.setField id name v hs
  · obtain ⟨key, f, nodes, hf, hnode⟩ := ha
    rw [hmake]
    exact hI.alloc _ hf hnode hs

theorem performAll {path : List Action} (hpath : ∀ a ∈ path, a.Of program) {s : State}
    (hs : I s.heap) : I (Action.performAll p path s).heap := by
  induction path generalizing s with
  | nil => exact hs
  | cons a path ih =>
    rw [List.forall_mem_cons] at hpath
    exact ih hpath.2 (hI.perform hpath.1 hs)

theorem respond {s : State} (hs : I s.heap) (request : Request × Nat) :
    I (Machine.respond p program s request).2.heap := by
  unfold Machine.respond
  cases hanswer : answer p program request.2 s request.1 with
  | none => exact hs
  | some out =>
    obtain ⟨path, hof, hpath, -⟩ := answer_performs hanswer
    rw [hpath]
    exact hI.performAll hof hs

/-- Whatever is asked of a program, every heap that is seen has the property. -/
theorem session {s : State} (hs : I s.heap) (requests : List (Request × Nat)) :
    ∀ seen ∈ (Machine.session p program s requests).1, I seen.heap := by
  induction requests generalizing s with
  | nil => exact fun seen hseen => absurd hseen List.not_mem_nil
  | cons request requests ih =>
    have hnext := hI.respond (p := p) hs request
    rw [session_cons, List.forall_mem_cons]
    exact ⟨hnext, ih hnext⟩

end HeapInvariant

/-- The nodes of the program make objects with classes that have the property. -/
def MakesClasses (program : LinkedProgram) (P : ClassRef → Prop) : Prop :=
  ∀ ⦃key f cls fields⦄, program.at? key = some f → .new cls fields ∈ f.subnodes → P cls

/-- Whatever is asked of a program, every object that is seen has a class with
the property. -/
theorem session_hasClasses (hP : MakesClasses program P) {s : State} (hs : s.heap.HasClasses P)
    (requests : List (Request × Nat)) :
    ∀ o ∈ (session p program s requests).1, o.heap.HasClasses P := by
  have hI : HeapInvariant program (Heap.HasClasses P) :=
    { setField := fun id name v hh => hh.setField id name v
      alloc := fun _ hf hnode hh => hh.alloc (hP hf hnode) }
  exact hI.session hs requests

end Machine

end AdaptiveScript
