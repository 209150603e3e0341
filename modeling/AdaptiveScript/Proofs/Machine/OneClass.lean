import AdaptiveScript.Proofs.Linked.Renaming
import AdaptiveScript.Proofs.Machine.ObjectClasses
import AdaptiveScript.Proofs.Machine.DefinitionOrder

/-! # One Class for Every Name

  Classes are compared by identity, and two classes may share a name. Within a
  linked program they do not: wherever a name is used, in whatever function and
  at whatever depth, the node holds the one class that was made for it
  (`LinkedProgram.Classified.same_iff`). The names are those of the program
  that was linked, node by node (`Program.linkFrom_classNames`).

  Nodes are the only source of objects. The objects that a session adds to its
  heap therefore have classes of the program, whatever was in the heap before
  (`session_classedFrom`), and are told apart by the names of their classes.
-/

namespace AdaptiveScript

/-! ### The class names of a program -/

namespace Expr

mutual

/-- The names of the classes whose objects an expression makes, each before
those of its field values. -/
def classNames : Expr Nat → List String
  | .lit _ => []
  | .list items => classNamesAll items
  | .var _ => []
  | .binary _ left right _ => left.classNames ++ right.classNames
  | .call _ args _ _ => classNamesAll args
  | .functionRef _ => []
  | .new cls fields => cls :: classNamesFields fields
  | .field object _ => object.classNames

/-- The class names of expressions, from left to right. -/
def classNamesAll : List (Expr Nat) → List String
  | [] => []
  | e :: es => e.classNames ++ classNamesAll es

/-- The class names of field values, from left to right. -/
def classNamesFields : List (String × Expr Nat) → List String
  | [] => []
  | (_, e) :: es => e.classNames ++ classNamesFields es

end

end Expr

/-- The class names of a statement. -/
def Stmt.classNames : Stmt Nat → List String
  | .expr e => e.classNames
  | .assign _ value => value.classNames
  | .setField object _ value => object.classNames ++ value.classNames
  | .ret none => []
  | .ret (some value) => value.classNames
  | .raise value _ => value.classNames

/-- The class names of a function. -/
def FunctionDef.classNames (f : FunctionDef) : List String := f.body.flatMap (·.classNames)

/-- A function of the program, or its top-level body, makes an object of a
class with the name. -/
def Program.NamesClass (p : Program) (name : String) : Prop :=
  ∃ key f, p.at? key = some f ∧ name ∈ f.classNames

/-! ### The class names of nodes -/

/-- The names of the classes whose objects nodes make. -/
def Node.classNamesOf (ns : List Node) : List String := (Node.classesOf ns).map (·.name)

@[simp] theorem Node.classNamesOf_append (ns ms : List Node) :
    Node.classNamesOf (ns ++ ms) = Node.classNamesOf ns ++ Node.classNamesOf ms := by
  simp [classNamesOf, classesOf_append]

/-- A node that makes no object adds no name to those below it. -/
theorem Node.classNamesOf_cons {n : Node} (hn : n.made? = none) (ns : List Node) :
    Node.classNamesOf (n :: ns) = Node.classNamesOf ns := by
  simp [classNamesOf, classesOf, hn]

theorem Node.classNamesOf_new (cls : ClassRef) (fields : List (String × Node)) (ns : List Node) :
    Node.classNamesOf (.new cls fields :: ns) = cls.name :: Node.classNamesOf ns := rfl

namespace Link

variable {scope : Scope} {f : FunctionDef}

/-! Linking keeps the names: one case for each constructor. -/

mutual

theorem expr_classNames (scope : Scope) (f : FunctionDef) : ∀ (e : Expr Nat) (s : State),
    Yields (expr scope f e) s fun n _ => Node.classNamesOf n.subnodes = e.classNames
  | .lit value, s => by
    rw [expr]
    exact .pure rfl
  | .list items, s => by
    rw [expr]
    exact (exprs_classNames scope f items s).bind fun ns _ h => .pure h
  | .var slot, s => by
    rw [expr]
    exact (Yields.trivial _ s).bind fun _ _ _ => .pure rfl
  | .binary op left right id, s => by
    rw [expr]
    refine (Yields.trivial _ s).bind fun _ s₀ _ => ?_
    refine (expr_classNames scope f left s₀).bind fun l s₁ hl => ?_
    refine (expr_classNames scope f right s₁).bind fun r s₂ hr => ?_
    refine (Yields.trivial _ s₂).bind fun site _ _ => .pure ?_
    rw [Node.subnodes, Node.classNamesOf_cons rfl, Node.classNamesOf_append, hl, hr,
      Expr.classNames]
  | .call callee args id location, s => by
    rw [expr]
    refine (Yields.trivial _ s).bind fun _ s₀ _ => ?_
    refine (Yields.trivial _ s₀).bind fun resolved s₁ _ => ?_
    refine (exprs_classNames scope f args s₁).bind fun ns s₂ h => ?_
    exact (Yields.trivial _ s₂).bind fun _ _ _ => .pure h
  | .functionRef name, s => by
    rw [expr]
    refine (Yields.trivial _ s).bind fun resolved _ _ => ?_
    cases resolved <;> exact .pure rfl
  | .new cls values, s => by
    rw [expr]
    refine (internClass_name cls).bind fun c s₀ hname => ?_
    refine (fields_classNames scope f values s₀).bind fun ns _ h => .pure ?_
    rw [Node.subnodes, Node.classNamesOf_new, hname, h, Expr.classNames]
  | .field object name, s => by
    rw [expr]
    exact (expr_classNames scope f object s).bind fun n _ h => .pure h

theorem exprs_classNames (scope : Scope) (f : FunctionDef) :
    ∀ (es : List (Expr Nat)) (s : State), Yields (exprs scope f es) s fun ns _ =>
      Node.classNamesOf (Node.subnodesAll ns) = Expr.classNamesAll es
  | [], s => by
    rw [exprs]
    exact .pure rfl
  | e :: es, s => by
    rw [exprs]
    refine (expr_classNames scope f e s).bind fun n s₁ hn => ?_
    refine (exprs_classNames scope f es s₁).bind fun ns _ hns => .pure ?_
    rw [Node.subnodesAll, Node.classNamesOf_append, hn, hns, Expr.classNamesAll]

theorem fields_classNames (scope : Scope) (f : FunctionDef) :
    ∀ (es : List (String × Expr Nat)) (s : State), Yields (fields scope f es) s fun ns _ =>
      Node.classNamesOf (Node.subnodesFields ns) = Expr.classNamesFields es
  | [], s => by
    rw [fields]
    exact .pure rfl
  | (name, e) :: es, s => by
    rw [fields]
    refine (expr_classNames scope f e s).bind fun n s₁ hn => ?_
    refine (fields_classNames scope f es s₁).bind fun ns _ hns => .pure ?_
    rw [Node.subnodesFields, Node.classNamesOf_append, hn, hns, Expr.classNamesFields]

end

theorem stmt_classNames (st : Stmt Nat) (s : State) : Yields (Link.stmt scope f st) s
    fun node _ => Node.classNamesOf (Node.subnodesAll node.nodes) = st.classNames := by
  have hone : ∀ (e : Expr Nat) (s : State), Yields (expr scope f e) s fun n _ =>
      Node.classNamesOf (Node.subnodesAll [n]) = e.classNames := by
    intro e s n t hrun
    rw [Node.subnodesAll, Node.subnodesAll, List.append_nil]
    exact expr_classNames scope f e s n t hrun
  cases st with
  | expr e => exact (hone e s).bind fun n _ h => .pure h
  | assign slot value =>
    refine (Yields.trivial _ s).bind fun _ s₀ _ => ?_
    exact (hone value s₀).bind fun n _ h => .pure h
  | setField object name value =>
    refine (expr_classNames scope f object s).bind fun n s₁ hn => ?_
    refine (hone value s₁).bind fun m _ hm => .pure ?_
    show Node.classNamesOf (n.subnodes ++ Node.subnodesAll [m]) = _
    rw [Node.classNamesOf_append, hn, hm, Stmt.classNames]
  | ret value =>
    cases value with
    | none => exact .pure rfl
    | some value => exact (hone value s).bind fun n _ h => .pure h
  | raise value location => exact (hone value s).bind fun n _ h => .pure h

theorem stmts_classNames (body : List (Stmt Nat)) (s : State) : Yields (stmts scope f body) s
    fun nodes _ => Node.classNamesOf (Node.subnodesAll (nodes.flatMap (·.nodes))) =
      body.flatMap (·.classNames) := by
  induction body generalizing s with
  | nil => exact .pure rfl
  | cons st body ih =>
    refine (stmt_classNames st s).bind fun node s₁ hnode => ?_
    refine (ih s₁).bind fun nodes _ hnodes => .pure ?_
    rw [List.flatMap_cons, Node.subnodesAll_append, Node.classNamesOf_append, hnode, hnodes,
      List.flatMap_cons]

theorem function_classNames {classes : List ClassRef} {out : LinkedFunction × List ClassRef}
    (h : function scope f classes = .ok out) :
    Node.classNamesOf out.1.subnodes = f.classNames := by
  have hbody : Yields (do checkSlots f f.params; stmts scope f f.body : Linker _) { classes }
      fun nodes _ => Node.classNamesOf (Node.subnodesAll (nodes.flatMap (·.nodes))) =
        f.body.flatMap (·.classNames) :=
    (Yields.trivial _ _).bind fun _ s₀ _ => stmts_classNames f.body s₀
  obtain ⟨linked, hrun, hout⟩ := bind_eq_ok.mp h
  cases hout
  exact hbody linked.1 linked.2 hrun

end Link

/-- The nodes of a linked function make objects of the classes that the
function names, in the same order. -/
theorem Program.linkFrom_classNames {firstClass : Nat} {p : Program} {registry : Registry}
    {linked : LinkedProgram} (h : p.linkFrom firstClass registry = .ok linked)
    {key : FunctionKey} {f : FunctionDef} {g : LinkedFunction} (hf : p.at? key = some f)
    (hg : linked.at? key = some g) : Node.classNamesOf g.subnodes = f.classNames := by
  obtain ⟨out, before, hout, hfunction⟩ := p.linkFrom_at h hf
  rw [hout] at hg
  cases hg
  exact Link.function_classNames hfunction

/-! ### The classes of a linked program -/

/-- A node of the program makes objects of the class. -/
def LinkedProgram.Makes (linked : LinkedProgram) (c : ClassRef) : Prop :=
  ∃ key f fields, linked.at? key = some f ∧ .new c fields ∈ f.subnodes

/-- The classes that the nodes of a program hold have the names that the
program uses. -/
theorem Program.namesClass_iff {firstClass : Nat} {p : Program} {registry : Registry}
    {linked : LinkedProgram} (h : p.linkFrom firstClass registry = .ok linked) (name : String) :
    p.NamesClass name ↔ ∃ c, linked.Makes c ∧ c.name = name := by
  constructor
  · rintro ⟨key, f, hf, hname⟩
    obtain ⟨out, -, hg, -⟩ := p.linkFrom_at h hf
    rw [← linkFrom_classNames h hf hg] at hname
    obtain ⟨c, hc, hcname⟩ := List.mem_map.mp hname
    obtain ⟨fields, hnode⟩ := Node.mem_classesOf.mp hc
    exact ⟨c, ⟨key, out.1, fields, hg, hnode⟩, hcname⟩
  · rintro ⟨c, ⟨key, g, fields, hg, hnode⟩, rfl⟩
    obtain ⟨f, hf⟩ := p.exists_at h hg
    refine ⟨key, f, hf, ?_⟩
    rw [← linkFrom_classNames h hf hg]
    exact List.mem_map_of_mem (Node.mem_classesOf.mpr ⟨fields, hnode⟩)

namespace LinkedProgram.Classified

variable {first : Nat} {linked : LinkedProgram} {c d : ClassRef}

/-- Two nodes hold the same class if the classes have the same name. -/
theorem same_iff (h : linked.Classified first) (hc : linked.Makes c) (hd : linked.Makes d) :
    c.same d = true ↔ c.name = d.name := by
  have hc' := (h.mem_iff c).mpr hc
  have hd' := (h.mem_iff d).mpr hd
  rw [ClassRef.same, beq_iff_eq]
  constructor
  · intro hid
    rw [h.table.eq_of_id hc' hd' hid]
  · intro hname
    rw [h.table.eq_of_name hc' hd' hname]

/-- A name leads to the class of the nodes that use it. -/
theorem class?_eq_some_iff (h : linked.Classified first) {name : String} :
    linked.class? name = some c ↔ linked.Makes c ∧ c.name = name := by
  constructor
  · intro hfind
    have hname : c.name = name := by simpa using List.find?_some hfind
    exact ⟨(h.mem_iff c).mp (List.mem_of_find?_eq_some hfind), hname⟩
  · rintro ⟨hmakes, rfl⟩
    exact h.table.find?_of_mem ((h.mem_iff c).mpr hmakes)

end LinkedProgram.Classified

/-! ### Objects made later -/

namespace Heap

/-- The objects from a position on have classes with the property. -/
def ClassedFrom (n : Nat) (P : ClassRef → Prop) (h : Heap) : Prop :=
  ∀ ⦃id o⦄, n ≤ id → h.get? id = some o → P o.cls

variable {n : Nat} {P : ClassRef → Prop} {h : Heap}

/-- There are no objects past the end. -/
theorem classedFrom_size (P : ClassRef → Prop) (h : Heap) : h.ClassedFrom h.size P := by
  intro id o hid ho
  have hlt : id < h.size := (Array.getElem?_eq_some_iff.mp ho).1
  omega

theorem ClassedFrom.alloc (hh : h.ClassedFrom n P) {object : Object} (hobject : P object.cls) :
    (h.alloc object).2.ClassedFrom n P := by
  intro id o hid ho
  by_cases hold : id < h.size
  · rw [get?_alloc_old h object hold] at ho
    exact hh hid ho
  · -- an object that was not there before is the new one
    have hlt : id < (h.alloc object).2.size := (Array.getElem?_eq_some_iff.mp ho).1
    rw [size_alloc] at hlt
    have hlast : id = (h.alloc object).1 :=
      Nat.le_antisymm (Nat.le_of_lt_succ hlt) (Nat.not_lt.mp hold)
    rw [hlast, get?_alloc_new] at ho
    cases ho
    exact hobject

theorem ClassedFrom.setField (hh : h.ClassedFrom n P) (id : ObjectId) (name : String) (v : Value) :
    (h.setField id name v).ClassedFrom n P := by
  intro i o hi ho
  rw [get?_setField] at ho
  by_cases hid : i = id
  · rw [if_pos hid] at ho
    obtain ⟨o', ho', rfl⟩ := Option.map_eq_some_iff.mp ho
    show P o'.cls
    exact hh hi ho'
  · rw [if_neg hid] at ho
    exact hh hi ho

end Heap

namespace Machine

variable {p : Policy} {program : LinkedProgram} {n : Nat}

/-- Whatever is asked of a program, the objects that are made have classes of
the program. -/
theorem session_classedFrom {s : State} (hs : s.heap.ClassedFrom n program.Makes)
    (requests : List (Request × Nat)) :
    ∀ seen ∈ (session p program s requests).1, seen.heap.ClassedFrom n program.Makes := by
  have hI : HeapInvariant program (Heap.ClassedFrom n program.Makes) :=
    { setField := fun id name v hh => hh.setField id name v
      alloc := fun _ hf hnode hh => hh.alloc ⟨_, _, _, hf, hnode⟩ }
  exact hI.session hs requests

/-- The object is seen in a session of the program and was not there at its
start. -/
def MadeInSession (program : LinkedProgram) (o : Object) : Prop :=
  ∃ (p : Policy) (s : State) (requests : List (Request × Nat)),
    ∃ seen ∈ (session p program s requests).1, ∃ id ≥ s.heap.size, seen.heap.get? id = some o

theorem MadeInSession.makes {o : Object} (h : MadeInSession program o) : program.Makes o.cls := by
  obtain ⟨p, s, requests, seen, hseen, id, hid, ho⟩ := h
  exact session_classedFrom (Heap.classedFrom_size _ s.heap) requests seen hseen hid ho

/-- A linked program has one class for every name. Any two of its nodes that
make objects hold the same class exactly if they name the same class; a name
leads to a class exactly if the program uses it, and then to the class of all
the nodes that do. So two objects that are made in sessions of the program
have the same class exactly if their classes have the same name. -/
theorem one_class_per_name {firstClass : Nat} {p : Program} {registry : Registry}
    {linked : LinkedProgram} (hlink : p.linkFrom firstClass registry = .ok linked) :
    (∀ key f g, p.at? key = some f → linked.at? key = some g →
      Node.classNamesOf g.subnodes = f.classNames) ∧
    (∀ c d, linked.Makes c → linked.Makes d → (c.same d = true ↔ c.name = d.name)) ∧
    (∀ name, (linked.class? name).isSome = true ↔ p.NamesClass name) ∧
    (∀ c, linked.Makes c → linked.class? c.name = some c) ∧
    (∀ o o', MadeInSession linked o → MadeInSession linked o' →
      (o.cls.same o'.cls = true ↔ o.cls.name = o'.cls.name)) := by
  have hclasses := Program.linkFrom_classified hlink
  refine ⟨?_, ?_, ?_, ?_, ?_⟩
  · intro key f g hf hg
    exact Program.linkFrom_classNames hlink hf hg
  · intro c d hc hd
    exact hclasses.same_iff hc hd
  · intro name
    rw [Option.isSome_iff_exists, Program.namesClass_iff hlink]
    exact exists_congr fun c => hclasses.class?_eq_some_iff
  · intro c hc
    exact hclasses.class?_eq_some_iff.mpr ⟨hc, rfl⟩
  · intro o o' ho ho'
    exact hclasses.same_iff ho.makes ho'.makes

/-- `makers` in a heap with an object of an older class. -/
def makersStart : State :=
  .initial linkedMakers .interpret olderHeap .still

/-- What a session of `makers` makes after the older object. -/
theorem made_by_makers (requests : List (Request × Nat)) (id : ObjectId) (cls : ClassRef)
    (hid : 1 ≤ id) (h : (session .adaptive linkedMakers makersStart requests).1.findSome?
      (fun seen => (seen.heap.get? id).map (·.cls)) = some cls) :
    ∃ o, MadeInSession linkedMakers o ∧ o.cls = cls := by
  obtain ⟨seen, hseen, hcls⟩ := List.exists_of_findSome?_eq_some h
  obtain ⟨o, ho, hcls⟩ := Option.map_eq_some_iff.mp hcls
  exact ⟨o, ⟨.adaptive, makersStart, requests, seen, hseen, id, hid, ho⟩, hcls⟩

/-- The leaves of a pair and a leaf on its own have the same class, which is not
that of the older object with the same class name. -/
theorem makers_one_class :
    makers.linkFrom 3 .core = .ok linkedMakers ∧
      ∃ o o', MadeInSession linkedMakers o ∧ MadeInSession linkedMakers o' ∧
        o.cls.same o'.cls = true ∧ o.cls.same ⟨1, "Leaf"⟩ = false := by
  have hlink : makers.linkFrom 3 .core = .ok linkedMakers := rfl
  obtain ⟨o, ho, hcls⟩ := made_by_makers [(.run, 3)] 2 ⟨3, "Leaf"⟩
    (by decide) (by decide +kernel)
  obtain ⟨o', ho', hcls'⟩ := made_by_makers [(.call "leaf" [.int 5], 1)] 1 ⟨3, "Leaf"⟩
    (by decide) (by decide +kernel)
  have hsame := (one_class_per_name hlink).2.2.2.2 o o' ho ho'
  rw [hcls, hcls'] at hsame
  refine ⟨hlink, o, o', ho, ho', ?_, ?_⟩
  · rw [hcls, hcls']
    exact hsame.mpr rfl
  · rw [hcls]
    decide

end Machine

end AdaptiveScript
