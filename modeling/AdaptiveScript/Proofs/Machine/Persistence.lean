import AdaptiveScript.Proofs.Machine.Path
import AdaptiveScript.Proofs.Machine.Surfaced

/-! # What Becomes of Objects

  Objects are reached through locals, lists, fields, arguments and errors, but
  they are changed in two places only: a statement sets a field, and a raise
  defines the traceback of the object that it raises. So whatever is asked of a
  program, an object stays where it is, keeps its class and loses no field; and
  a field that the program never sets stays as it is, unless it is an absent
  traceback (`Persists`).

  One lemma says what a single action does to the objects (`Action.persists`).
  The rest is the path of a run, and a session as a sequence of runs.

  A new object is different from all others, and has the fields that it was
  given, the last of each name (`eval_new`).
-/

namespace AdaptiveScript

open Raise

/-! ### The fields of a new object -/

namespace Fields

theorem get?_foldl_set_eq (entries : List (String × Value)) (fs : Fields) (key : String) :
    (entries.foldl (fun fs e => fs.set e.1 e.2) fs).get? key =
      (entries.reverse.lookup key).or (fs.get? key) := by
  induction entries generalizing fs with
  | nil => rfl
  | cons e entries ih =>
    rw [List.foldl_cons, ih, List.reverse_cons, List.lookup_append, Option.or_assoc]
    congr 1
    by_cases hkey : key = e.1
    · rw [hkey, get?_set_self, List.lookup_cons_self]
      rfl
    · rw [get?_set_ne _ _ hkey, List.lookup_cons, beq_false_of_ne hkey]
      rfl

/-- Of several values for one name the last one counts. -/
theorem get?_ofList (entries : List (String × Value)) (key : String) :
    (ofList entries).get? key = entries.reverse.lookup key := by
  rw [ofList, get?_foldl_set_eq, get?_empty, Option.or_none]

end Fields

/-! ### Raising -/

/-- A raise changes a field only by defining an absent traceback. -/
theorem raise_field (v : Value) (location : Location) (stack : CallStack) (h : Heap)
    {o : ObjectId} {name : String}
    (hpresent : name = stacktraceField → (h.field? o name).isSome = true) :
    (Raise.raise v location stack h).2.field? o name = h.field? o name := by
  by_cases hobject : ∃ id, v = .object id
  · obtain ⟨id, rfl⟩ := hobject
    cases htrace : h.field? id stacktraceField with
    | some trace => rw [raise_again htrace]
    | none =>
      rw [raise_first htrace]
      apply Heap.field?_setField_ne
      -- the object that is given a traceback had none
      rintro rfl rfl
      rw [htrace] at hpresent
      cases hpresent rfl
  · rw [raise_other fun id hid => hobject ⟨id, hid⟩]

/-- A raise sets a field of an object, or leaves the heap alone. -/
theorem raise_heap (v : Value) (location : Location) (stack : CallStack) (h : Heap) :
    (∃ id w, (Raise.raise v location stack h).2 = h.setField id stacktraceField w) ∨
      (Raise.raise v location stack h).2 = h := by
  by_cases hobject : ∃ id, v = .object id
  · obtain ⟨id, rfl⟩ := hobject
    cases htrace : h.field? id stacktraceField with
    | some trace => exact .inr (by rw [raise_again htrace])
    | none => exact .inl ⟨id, _, by rw [raise_first htrace]⟩
  · exact .inr (by rw [raise_other fun id hid => hobject ⟨id, hid⟩])

namespace Machine

variable {p : Policy} {program : LinkedProgram}

/-! ### Objects that persist -/

/-- What a later heap has of the objects of an earlier one. -/
structure Persists (program : LinkedProgram) (h h' : Heap) : Prop where
  /-- An object stays where it is, and keeps its class. -/
  object : ∀ ⦃id o⦄, h.get? id = some o → ∃ o', h'.get? id = some o' ∧ o'.cls = o.cls
  /-- It loses no field. -/
  kept : ∀ ⦃id name⦄, (h.field? id name).isSome = true → (h'.field? id name).isSome = true
  /-- A field that the program never sets stays as it is, present or absent. Only
  a traceback may be added. -/
  unchanged : ∀ ⦃id name⦄, id < h.size → program.NeverSets name →
    (name = stacktraceField → (h.field? id name).isSome = true) →
    h'.field? id name = h.field? id name

namespace Persists

variable {h h' h'' : Heap}

theorem refl (h : Heap) : Persists program h h :=
  ⟨fun _ o ho => ⟨o, ho, rfl⟩, fun _ _ hname => hname, fun _ _ _ _ _ => rfl⟩

theorem of_eq (heq : h' = h) : Persists program h h' := by
  rw [heq]
  exact refl h

theorem size_le (hh : Persists program h h') : h.size ≤ h'.size := by
  by_contra hlt
  obtain ⟨o, ho⟩ := Heap.get?_of_lt (Nat.lt_of_not_le hlt)
  obtain ⟨o', ho', -⟩ := hh.object ho
  exact Nat.lt_irrefl _ (Array.getElem?_eq_some_iff.mp ho').1

theorem trans (hh : Persists program h h') (hh' : Persists program h' h'') :
    Persists program h h'' := by
  refine ⟨?_, ?_, ?_⟩
  · intro id o ho
    obtain ⟨o', ho', hcls⟩ := hh.object ho
    obtain ⟨o'', ho'', hcls'⟩ := hh'.object ho'
    exact ⟨o'', ho'', hcls'.trans hcls⟩
  · intro id name hname
    exact hh'.kept (hh.kept hname)
  · intro id name hid hnever hpresent
    have hfirst := hh.unchanged hid hnever hpresent
    have hlater : name = stacktraceField → (h'.field? id name).isSome = true :=
      fun hname => hh.kept (hpresent hname)
    rw [hh'.unchanged (Nat.lt_of_lt_of_le hid hh.size_le) hnever hlater, hfirst]

/-- A new object changes nothing about the others. -/
theorem alloc (object : Object) : Persists program h (h.alloc object).2 := by
  refine ⟨?_, ?_, ?_⟩
  · intro id o ho
    have hid : id < h.size := (Array.getElem?_eq_some_iff.mp ho).1
    exact ⟨o, (Heap.get?_alloc_old h object hid).trans ho, rfl⟩
  · intro id name hname
    obtain ⟨v, hv⟩ := Option.isSome_iff_exists.mp hname
    rw [Heap.field?_alloc_old object (Heap.lt_of_field? hv)]
    exact hname
  · intro id name hid _ _
    exact Heap.field?_alloc_old object hid

/-- A field that is set replaces the field of that name and nothing else. -/
theorem setField {id : ObjectId} {name : String} {w : Value}
    (hset : ∀ {o k}, o < h.size → program.NeverSets k →
      (k = stacktraceField → (h.field? o k).isSome = true) →
      (h.setField id name w).field? o k = h.field? o k) :
    Persists program h (h.setField id name w) := by
  refine ⟨?_, ?_, fun o k => hset⟩
  · intro i o ho
    rw [Heap.get?_setField, ho]
    by_cases hi : i = id
    · rw [if_pos hi]
      exact ⟨_, rfl, rfl⟩
    · rw [if_neg hi]
      exact ⟨o, rfl, rfl⟩
  · intro i k hk
    obtain ⟨v, hv⟩ := Option.isSome_iff_exists.mp hk
    by_cases hsame : i = id ∧ k = name
    · obtain ⟨rfl, rfl⟩ := hsame
      rw [Heap.field?_setField_self (Heap.lt_of_field? hv)]
      rfl
    · rw [Heap.field?_setField_ne fun hi hname => hsame ⟨hi, hname⟩]
      exact hk

theorem raise (v : Value) (location : Location) (stack : CallStack) :
    Persists program h (Raise.raise v location stack h).2 := by
  have hfield : ∀ {o k}, o < h.size → program.NeverSets k →
      (k = stacktraceField → (h.field? o k).isSome = true) →
      (Raise.raise v location stack h).2.field? o k = h.field? o k :=
    fun _ _ hpresent => raise_field v location stack h hpresent
  rcases raise_heap v location stack h with ⟨id, w, hset⟩ | hsame
  · rw [hset] at hfield ⊢
    exact setField hfield
  · exact of_eq hsame

end Persists

/-! ### Actions and runs -/

/-- The objects persist through every action of the program. -/
theorem Action.persists {a : Action} (ha : a.Of program) (s : State) :
    Persists program s.heap (a.perform p s).heap := by
  cases a with
  | assign key frame slot v =>
    apply Persists.of_eq
    simp only [perform, assignSlot]
    split
    · exact State.heap_setFunction s key _
    · rfl
  | apply key op site v w =>
    apply Persists.of_eq
    rw [perform, applyOperator_eq, ofResult_snd]
    exact State.heap_setFunction s key _
  | invoke key entry inst vs location =>
    apply Persists.of_eq
    rw [perform, invokeBuiltin_eq, ofResult_snd, heap_afterReply]
  | make cls fields => exact .alloc _
  | write target name v =>
    obtain ⟨key, f, object, value, hf, hstmt⟩ := ha
    rcases writeField_cases target name v with ⟨id, hwrite⟩ | hfail
    · rw [perform, hwrite]
      refine .setField fun {o k} _ hnever _ => Heap.field?_setField_ne fun _ hname => ?_
      -- the statement itself sets the field
      exact hnever hf object value (hname ▸ hstmt)
    · rw [perform, hfail]
      exact .refl _
  | raise v location => exact .raise v location s.stack
  | enter frame =>
    apply Persists.of_eq
    simp only [perform]
    split <;> rfl
  | leave => exact .refl _

theorem Action.persistsAll {path : List Action} (hpath : ∀ a ∈ path, a.Of program) (s : State) :
    Persists program s.heap (performAll p path s).heap := by
  induction path generalizing s with
  | nil => exact .refl _
  | cons a path ih =>
    rw [List.forall_mem_cons] at hpath
    exact (persists hpath.1 s).trans (ih hpath.2 (a.perform p s))

/-- However often values are raised, a traceback stays what it is. -/
theorem Action.raises_keep {path : List Action}
    (hpath : ∀ a ∈ path, ∃ v location, a = .raise v location) {s : State} {o : ObjectId}
    {trace : Value} (htrace : s.heap.field? o stacktraceField = some trace) :
    (performAll p path s).heap.field? o stacktraceField = some trace := by
  induction path generalizing s with
  | nil => exact htrace
  | cons a path ih =>
    rw [List.forall_mem_cons] at hpath
    obtain ⟨⟨v, location, rfl⟩, hrest⟩ := hpath
    refine ih hrest ?_
    have hpresent : stacktraceField = stacktraceField →
        (s.heap.field? o stacktraceField).isSome = true := fun _ => by rw [htrace]; rfl
    exact (raise_field v location s.stack s.heap hpresent).trans htrace

theorem respond_persists (s : State) (request : Request × Nat) :
    Persists program s.heap (respond p program s request).2.heap := by
  unfold respond
  cases hanswer : answer p program request.2 s request.1 with
  | none => exact .refl _
  | some out =>
    obtain ⟨path, hof, hpath, -⟩ := answer_performs hanswer
    rw [hpath]
    exact Action.persistsAll hof s

theorem session_persists (s : State) (requests : List (Request × Nat)) :
    Persists program s.heap (session p program s requests).2.heap := by
  induction requests generalizing s with
  | nil => exact .refl _
  | cons request requests ih =>
    rw [session_cons]
    exact (respond_persists s request).trans (ih (respond p program s request).2)

/-! ### New objects -/

/-- A sequence has a value only through the values of both parts. -/
theorem Run.bind_ok {α β : Type} {x : Run α} {k : α → Run β} {s s' : State} {b : β}
    (h : (x >>= k) s = (.ok b, s')) : ∃ a s₁, x s = (.ok a, s₁) ∧ k a s₁ = (.ok b, s') := by
  rw [Run.bind_apply] at h
  rcases hout : x s with ⟨o, s₁⟩
  rw [hout] at h
  cases o with
  | ok a => exact ⟨a, s₁, rfl, h⟩
  | _ => cases h

theorem evalFields_names {call : Caller} {key : FunctionKey} {φ : Frame}
    {fields : List (String × Node)} {s s' : State} {values : List (String × Value)}
    (h : evalFields p call key φ fields s = (.ok values, s')) :
    values.map (·.1) = fields.map (·.1) := by
  induction fields generalizing s values with
  | nil =>
    cases h
    rfl
  | cons field fields ih =>
    obtain ⟨name, n⟩ := field
    rw [evalFields] at h
    obtain ⟨v, s₁, -, h⟩ := Run.bind_ok h
    obtain ⟨vs, s₂, hrest, hout⟩ := Run.bind_ok h
    cases hout
    exact congrArg (name :: ·) (ih hrest)

/-- An object was made, of a class and with the given values of fields. -/
structure Made (cls : ClassRef) (values : List (String × Value)) (h h' : Heap) (id : ObjectId) :
    Prop where
  /-- Its identity is that of no other object. -/
  fresh : h.get? id = none
  /-- It has the class, and the last value that is given for a name. -/
  object : ∃ o, h'.get? id = some o ∧ o.cls = cls ∧
    ∀ name, o.fields.get? name = values.reverse.lookup name
  /-- It has no other fields. -/
  names : ∀ name, (h'.field? id name).isSome = true ↔ name ∈ values.map (·.1)
  others : ∀ i, i ≠ id → h'.get? i = h.get? i

theorem Made.alloc (cls : ClassRef) (values : List (String × Value)) (h : Heap) :
    Made cls values h (h.alloc { cls, fields := .ofList values }).2 h.size := by
  refine ⟨?_, ⟨_, Heap.get?_alloc_new h _, rfl, Fields.get?_ofList values⟩, ?_, ?_⟩
  · exact Array.getElem?_eq_none (Nat.le_refl _)
  · intro name
    rw [Heap.field?_alloc_new, Fields.get?_ofList, List.lookup_isSome_iff]
    simp only [List.mem_reverse, beq_iff_eq, List.mem_map]
    exact ⟨fun ⟨e, he, hname⟩ => ⟨e, he, hname.symm⟩, fun ⟨e, he, hname⟩ => ⟨e, he, hname.symm⟩⟩
  · intro i hi
    simp only [Heap.get?, Heap.alloc, Array.getElem?_push]
    exact if_neg hi

/-- Where an expression that makes an object has a value, the value is an object
that was made with the values of its fields. -/
theorem eval_new {call : Caller} {key : FunctionKey} {φ : Frame} {cls : ClassRef}
    {fields : List (String × Node)} {s s' : State} {v : Value}
    (h : eval p call key φ (.new cls fields) s = (.ok v, s')) :
    ∃ values s₁ id, evalFields p call key φ fields s = (.ok values, s₁) ∧
      values.map (·.1) = fields.map (·.1) ∧ v = .object id ∧
      Made cls values s₁.heap s'.heap id := by
  rw [eval] at h
  obtain ⟨values, s₁, hfields, hnew⟩ := Run.bind_ok h
  cases hnew
  exact ⟨values, s₁, s₁.heap.size, hfields, evalFields_names hfields, rfl, .alloc cls values s₁.heap⟩

/-! ### The law -/

/-- Through a session the objects persist. However often values are raised, a
traceback stays what it is; and every object that an expression makes is new,
with the fields that the expression lists. No builtin sets a field, because
implementations are pure. -/
theorem session_keeps_objects (p : Policy) (program : LinkedProgram) (s : State) :
    (∀ requests : List (Request × Nat),
      Persists program s.heap (session p program s requests).2.heap) ∧
      (∀ path : List Action, (∀ a ∈ path, ∃ v location, a = .raise v location) →
        ∀ o trace, s.heap.field? o stacktraceField = some trace →
          (Action.performAll p path s).heap.field? o stacktraceField = some trace) ∧
      ∀ (call : Caller) (key : FunctionKey) (φ : Frame) (cls : ClassRef)
        (fields : List (String × Node)) (v : Value) (s' : State),
        eval p call key φ (.new cls fields) s = (.ok v, s') →
          ∃ values s₁ id, evalFields p call key φ fields s = (.ok values, s₁) ∧
            values.map (·.1) = fields.map (·.1) ∧ v = .object id ∧
            Made cls values s₁.heap s'.heap id := by
  refine ⟨session_persists s, ?_, ?_⟩
  · intro path hpath o trace htrace
    exact Action.raises_keep hpath htrace
  · intro call key φ cls fields v s' h
    exact eval_new h

/-- An expression that gives one of two fields twice. -/
def repeatedField : Node :=
  .new ⟨7, "Pair"⟩ [("x", .const (.int 1)), ("y", .const .nil), ("x", .const (.int 2))]

/-- Two raises of an object leave its message as it was, and an object that is
made then is another one, with the last value of each field. -/
theorem rethrow_keeps_objects :
    linkedRethrow.NeverSets messageField ∧
      (session .adaptive linkedRethrow rethrowStart rethrowRequests).2.heap.field? 0 messageField =
        rethrowStart.heap.field? 0 messageField ∧
      ∃ id s', eval .adaptive (callUser linkedRethrow (enter .adaptive linkedRethrow 0)) .main
          (.ofSize 0) repeatedField rethrowStart = (.ok (.object id), s') ∧
        rethrowStart.heap.get? id = none ∧ s'.heap.field? id "x" = some (.int 2) ∧
        (s'.heap.field? id "y").isSome = true ∧ ¬ (s'.heap.field? id "z").isSome = true := by
  have hnever : linkedRethrow.NeverSets messageField := by
    intro key f hf object value hstmt
    cases key with
    | main =>
      cases hf
      cases hstmt
    | user index =>
      have hmem := Array.mem_of_getElem? hf
      simp [linkedRethrow] at hmem
      rcases hmem with rfl | rfl <;> simp at hstmt
  obtain ⟨hpersists, -, hmade⟩ := session_keeps_objects .adaptive linkedRethrow rethrowStart
  have hmessage := (hpersists rethrowRequests).unchanged (by decide : 0 < rethrowStart.heap.size)
    hnever fun h => absurd h (by decide)
  obtain ⟨v, s', heval⟩ : ∃ v s', eval .adaptive
      (callUser linkedRethrow (enter .adaptive linkedRethrow 0)) .main (.ofSize 0) repeatedField
      rethrowStart = (.ok v, s') := ⟨_, _, rfl⟩
  obtain ⟨values, s₁, id, hfields, -, rfl, hnew⟩ := hmade _ _ _ _ _ v s' heval
  -- the values of the fields are constants, and the heap is still that of the start
  cases hfields
  obtain ⟨o, ho, -, hlast⟩ := hnew.object
  refine ⟨hnever, hmessage, id, s', heval, hnew.fresh, ?_, ?_, ?_⟩
  · rw [Heap.field?, ho]
    exact hlast "x"
  · exact (hnew.names "y").mpr (by decide)
  · exact fun h => absurd ((hnew.names "z").mp h) (by decide)

end Machine

end AdaptiveScript
