import AdaptiveScript.Proofs.Linked.References
import Mathlib.Data.List.Nodup

/-! # The Classes of a Linked Program

  A class is made where its name is used first, and found again wherever the
  name is used later. The classes of a program therefore form a table with one
  class for every name, numbered in the order in which they were made
  (`ClassTable`), and they are exactly those whose objects the nodes of the
  program make (`Program.linkFrom_classified`).

  The traversal hands the table from node to node and from function to
  function. What it carries is a fact about the tables before and after some
  nodes (`Link.Interned`): the later one has the classes of these nodes in
  addition, and is a table if the earlier one is.
-/

namespace AdaptiveScript

/-! ### Class tables -/

/-- Classes with different names, numbered from `first` on. -/
structure ClassTable (first : Nat) (classes : List ClassRef) : Prop where
  names : (classes.map (·.name)).Nodup
  ids : classes.map (·.id) = List.range' first classes.length

namespace ClassTable

variable {first : Nat} {classes : List ClassRef} {c d : ClassRef}

theorem nil (first : Nat) : ClassTable first [] := ⟨List.nodup_nil, rfl⟩

/-- A class with a new name and the next number is added at the end. -/
theorem push (h : ClassTable first classes) {name : String}
    (hname : classes.find? (·.name == name) = none) :
    ClassTable first (classes ++ [{ id := first + classes.length, name }]) := by
  refine ⟨?_, ?_⟩
  · rw [List.map_append, List.map_singleton, List.nodup_append]
    refine ⟨h.names, List.nodup_singleton _, ?_⟩
    intro a ha b hb hab
    obtain ⟨c, hc, hca⟩ := List.mem_map.mp ha
    have hne := List.find?_eq_none.mp hname c hc
    rw [List.mem_singleton.mp hb] at hab
    exact hne (beq_iff_eq.mpr (hca.trans hab))
  · rw [List.map_append, h.ids, List.length_append, List.length_singleton, List.range'_concat,
      Nat.one_mul]
    rfl

/-- A name has one class. -/
theorem eq_of_name (h : ClassTable first classes) (hc : c ∈ classes) (hd : d ∈ classes)
    (hname : c.name = d.name) : c = d :=
  List.inj_on_of_nodup_map h.names hc hd hname

/-- An identity has one class. -/
theorem eq_of_id (h : ClassTable first classes) (hc : c ∈ classes) (hd : d ∈ classes)
    (hid : c.id = d.id) : c = d := by
  have hnodup : (classes.map (·.id)).Nodup := h.ids ▸ List.nodup_range'
  exact List.inj_on_of_nodup_map hnodup hc hd hid

theorem first_le (h : ClassTable first classes) (hc : c ∈ classes) : first ≤ c.id := by
  have hid : c.id ∈ classes.map (·.id) := List.mem_map_of_mem hc
  rw [h.ids] at hid
  exact (List.mem_range'_1.mp hid).1

/-- A class is found under its name. -/
theorem find?_of_mem (h : ClassTable first classes) (hc : c ∈ classes) :
    classes.find? (·.name == c.name) = some c := by
  cases hfind : classes.find? (·.name == c.name) with
  | none => exact absurd (beq_self_eq_true _) (List.find?_eq_none.mp hfind c hc)
  | some d =>
    have hname : d.name = c.name := by simpa using List.find?_some hfind
    rw [h.eq_of_name (List.mem_of_find?_eq_some hfind) hc hname]

end ClassTable

/-! ### The classes of nodes -/

namespace Node

theorem subnodesAll_append (ns ms : List Node) :
    subnodesAll (ns ++ ms) = subnodesAll ns ++ subnodesAll ms := by
  induction ns with
  | nil => rfl
  | cons n ns ih => rw [List.cons_append, subnodesAll, subnodesAll, ih, List.append_assoc]

/-- The class of the object that a node makes. -/
def made? : Node → Option ClassRef
  | .new cls _ => some cls
  | _ => none

/-- The classes of the objects that nodes make. -/
def classesOf (ns : List Node) : List ClassRef := ns.filterMap made?

theorem mem_classesOf {c : ClassRef} {ns : List Node} :
    c ∈ classesOf ns ↔ ∃ fields, .new c fields ∈ ns := by
  rw [classesOf, List.mem_filterMap]
  constructor
  · rintro ⟨n, hn, hmade⟩
    cases n <;> cases hmade
    exact ⟨_, hn⟩
  · rintro ⟨fields, hn⟩
    exact ⟨_, hn, rfl⟩

theorem classesOf_append (ns ms : List Node) :
    classesOf (ns ++ ms) = classesOf ns ++ classesOf ms := List.filterMap_append

theorem classesOf_new (cls : ClassRef) (fields : List (String × Node)) (ns : List Node) :
    classesOf (.new cls fields :: ns) = cls :: classesOf ns := rfl

end Node

/-- The classes of a program are those of its nodes, one for each name. -/
structure LinkedProgram.Classified (first : Nat) (linked : LinkedProgram) : Prop where
  table : ClassTable first linked.classes
  mem_iff : ∀ c, c ∈ linked.classes ↔
    ∃ key f fields, linked.at? key = some f ∧ .new c fields ∈ f.subnodes

/-- The classes of a function are among those of the program. -/
theorem LinkedProgram.Classified.subset {first : Nat} {linked : LinkedProgram}
    (h : linked.Classified first) {key : FunctionKey} {f : LinkedFunction}
    (hf : linked.at? key = some f) : Node.classesOf f.subnodes ⊆ linked.classes := by
  intro c hc
  obtain ⟨fields, hnode⟩ := Node.mem_classesOf.mp hc
  exact (h.mem_iff c).mpr ⟨key, f, fields, hf, hnode⟩

namespace Link

variable {scope : Scope} {f : FunctionDef} {s : State}

/-! ### Single steps -/

/-- No class was made between two states of the linker, and no place was
taken. -/
structure Idle (s t : State) : Prop where
  classes : t.classes = s.classes
  sites : t.siteCount = s.siteCount
  builtins : t.builtinCount = s.builtinCount

theorem Idle.refl (s : State) : Idle s s := ⟨rfl, rfl, rfl⟩

theorem checkSlot_idle (slot : Nat) : Yields (checkSlot f slot) s fun _ t => Idle s t := by
  unfold checkSlot
  split
  · exact .pure (.refl s)
  · exact .invalid _ _

theorem checkSlots_idle (slots : List Nat) : Yields (checkSlots f slots) s fun _ t => Idle s t := by
  induction slots generalizing s with
  | nil => exact .pure (.refl s)
  | cons slot slots ih =>
    refine (checkSlot_idle slot).bind fun _ s₁ h₁ => ?_
    intro a s₂ hrun
    have h₂ := ih a s₂ hrun
    exact ⟨h₂.classes.trans h₁.classes, h₂.sites.trans h₁.sites, h₂.builtins.trans h₁.builtins⟩

theorem claimSite_idle (id : Nat) : Yields (claimSite f id) s fun _ t => Idle s t := by
  refine .look ?_
  split
  · exact .set ⟨rfl, rfl, rfl⟩
  · exact .invalid _ _

theorem claimCall_idle (id : Nat) : Yields (claimCall f id) s fun _ t => Idle s t := by
  refine .look ?_
  split
  · exact .set ⟨rfl, rfl, rfl⟩
  · exact .invalid _ _

theorem nextSite_classes : Yields nextSite s fun _ t => t.classes = s.classes :=
  .look (Yields.bind (.set rfl) fun _ _ h => .pure h)

theorem target_classes (callee : Callee) :
    Yields (target callee) s fun _ t => t.classes = s.classes := by
  cases callee with
  | user index => exact .pure rfl
  | builtin entry => exact .look (Yields.bind (.set rfl) fun _ _ h => .pure h)

/-! ### The invariant of the traversal -/

/-- A table of classes has grown to another one by the given classes. -/
structure Interned (first : Nat) (before made after : List ClassRef) : Prop where
  mem_iff : ∀ c, c ∈ after ↔ c ∈ before ∨ c ∈ made
  table : ClassTable first before → ClassTable first after

namespace Interned

variable {first : Nat} {before mid after made made' : List ClassRef}

theorem nil (h : after = before) : Interned first before [] after := by
  subst h
  exact ⟨fun c => by simp, fun h => h⟩

theorem append (h : Interned first before made mid) (h' : Interned first mid made' after) :
    Interned first before (made ++ made') after where
  mem_iff c := by rw [h'.mem_iff, h.mem_iff, List.mem_append, or_assoc]
  table ht := h'.table (h.table ht)

/-- Only the table matters of the state before. -/
theorem of_eq (heq : mid = before) (h : Interned first mid made after) :
    Interned first before made after := heq ▸ h

/-- Only the table matters of the state after. -/
theorem to_eq (h : Interned first before made mid) (heq : after = mid) :
    Interned first before made after := heq ▸ h

end Interned

theorem internClass_interned (name : String) : Yields (internClass scope name) s fun c t =>
    Interned scope.firstClass s.classes [c] t.classes := by
  refine .look ?_
  split
  case h_1 c hfind =>
    -- the class is there already
    have hc : c ∈ s.classes := List.mem_of_find?_eq_some hfind
    refine .pure ⟨fun d => ?_, fun h => h⟩
    rw [List.mem_singleton]
    exact ⟨.inl, fun hd => hd.elim id fun hd => hd ▸ hc⟩
  case h_2 hfind =>
    refine Yields.bind (.set ?_) fun _ t h => .pure h
    exact ⟨fun d => List.mem_append, fun ht => ht.push hfind⟩

/-- The nodes were linked between two states. -/
def InternedAll (scope : Scope) (s : State) (ns : List Node) (t : State) : Prop :=
  Interned scope.firstClass s.classes (Node.classesOf ns) t.classes

theorem InternedAll.append {s₀ s₁ s₂ : State} {ns ms : List Node} (h : InternedAll scope s₀ ns s₁)
    (h' : InternedAll scope s₁ ms s₂) : InternedAll scope s₀ (ns ++ ms) s₂ := by
  unfold InternedAll
  rw [Node.classesOf_append]
  exact Interned.append h h'

/-- A node that makes no object adds nothing to the nodes below it. -/
theorem InternedAll.cons {t : State} {n : Node} {ns : List Node} (hn : n.made? = none)
    (h : InternedAll scope s ns t) : InternedAll scope s (n :: ns) t := by
  unfold InternedAll Node.classesOf
  rw [List.filterMap_cons_none hn]
  exact h

/-- A node on its own that makes no object. -/
theorem InternedAll.leaf {t : State} {n : Node} (hn : n.made? = none)
    (h : t.classes = s.classes) : InternedAll scope s [n] t :=
  .cons hn (Interned.nil h)

mutual

theorem expr_interned (scope : Scope) (f : FunctionDef) : ∀ (e : Expr Nat) (s : State),
    Yields (expr scope f e) s fun n t => InternedAll scope s n.subnodes t
  | .lit value, s => by
    rw [expr]
    exact .pure (.leaf rfl rfl)
  | .list items, s => by
    rw [expr]
    exact (exprs_interned scope f items s).bind fun ns t h => .pure (.cons rfl h)
  | .var slot, s => by
    rw [expr]
    exact (checkSlot_idle slot).bind fun _ t h => .pure (.leaf rfl h.classes)
  | .binary op left right id, s => by
    rw [expr]
    refine (claimSite_idle id).bind fun _ s₀ h₀ => ?_
    refine (expr_interned scope f left s₀).bind fun l s₁ hl => ?_
    refine (expr_interned scope f right s₁).bind fun r s₂ hr => ?_
    refine nextSite_classes.bind fun site s₃ h₃ => .pure (.cons rfl ?_)
    exact ((hl.append hr).of_eq h₀.classes).to_eq h₃
  | .call callee args id location, s => by
    rw [expr]
    refine (claimCall_idle id).bind fun _ s₀ h₀ => ?_
    refine (resolve_yields callee).bind fun resolved s₁ h₁ => ?_
    refine (exprs_interned scope f args s₁).bind fun ns s₂ hargs => ?_
    refine (target_classes resolved).bind fun t s₃ h₃ => .pure (.cons rfl ?_)
    rw [h₁.1] at hargs
    exact (hargs.of_eq h₀.classes).to_eq h₃
  | .functionRef name, s => by
    rw [expr]
    refine (resolve_yields name).bind fun resolved t h => ?_
    cases resolved <;> exact .pure (.leaf rfl (by rw [h.1]))
  | .new cls values, s => by
    rw [expr]
    refine (internClass_interned cls).bind fun c s₀ h₀ => ?_
    -- the class is made before those of the field values
    exact (fields_interned scope f values s₀).bind fun ns t h => .pure (h₀.append h)
  | .field object name, s => by
    rw [expr]
    exact (expr_interned scope f object s).bind fun n t h => .pure (.cons rfl h)

theorem exprs_interned (scope : Scope) (f : FunctionDef) : ∀ (es : List (Expr Nat)) (s : State),
    Yields (exprs scope f es) s fun ns t => InternedAll scope s (Node.subnodesAll ns) t
  | [], s => by
    rw [exprs]
    exact .pure (Interned.nil rfl)
  | e :: es, s => by
    rw [exprs]
    refine (expr_interned scope f e s).bind fun n s₁ hn => ?_
    exact (exprs_interned scope f es s₁).bind fun ns t hns => .pure (hn.append hns)

theorem fields_interned (scope : Scope) (f : FunctionDef) :
    ∀ (es : List (String × Expr Nat)) (s : State),
    Yields (fields scope f es) s fun ns t => InternedAll scope s (Node.subnodesFields ns) t
  | [], s => by
    rw [fields]
    exact .pure (Interned.nil rfl)
  | (name, e) :: es, s => by
    rw [fields]
    refine (expr_interned scope f e s).bind fun n s₁ hn => ?_
    exact (fields_interned scope f es s₁).bind fun ns t hns => .pure (hn.append hns)

end

theorem InternedAll.single {t : State} {n : Node} (h : InternedAll scope s n.subnodes t) :
    InternedAll scope s (Node.subnodesAll [n]) t := by
  rw [Node.subnodesAll, Node.subnodesAll, List.append_nil]
  exact h

theorem stmt_interned (st : Stmt Nat) (s : State) : Yields (Link.stmt scope f st) s
    fun node t => InternedAll scope s (Node.subnodesAll node.nodes) t := by
  cases st with
  | expr e => exact (expr_interned scope f e s).bind fun n t h => .pure (.single h)
  | assign slot value =>
    refine (checkSlot_idle slot).bind fun _ s₀ h₀ => ?_
    refine (expr_interned scope f value s₀).bind fun n t h => .pure (.single ?_)
    exact h.of_eq h₀.classes
  | setField object name value =>
    refine (expr_interned scope f object s).bind fun n s₁ hn => ?_
    refine (expr_interned scope f value s₁).bind fun m t hm => .pure ?_
    exact hn.append (.single hm)
  | ret value =>
    cases value with
    | none => exact .pure (Interned.nil rfl)
    | some value => exact (expr_interned scope f value s).bind fun n t h => .pure (.single h)
  | raise value location =>
    exact (expr_interned scope f value s).bind fun n t h => .pure (.single h)

theorem stmts_interned (body : List (Stmt Nat)) (s : State) : Yields (stmts scope f body) s
    fun nodes t => InternedAll scope s (Node.subnodesAll (nodes.flatMap (·.nodes))) t := by
  induction body generalizing s with
  | nil => exact .pure (Interned.nil rfl)
  | cons st body ih =>
    refine (stmt_interned st s).bind fun node s₁ hnode => ?_
    refine (ih s₁).bind fun nodes t hnodes => .pure ?_
    rw [List.flatMap_cons, Node.subnodesAll_append]
    exact hnode.append hnodes

/-! ### Functions and programs -/

theorem function_interned {classes : List ClassRef} {out : LinkedFunction × List ClassRef}
    (h : function scope f classes = .ok out) :
    Interned scope.firstClass classes (Node.classesOf out.1.subnodes) out.2 := by
  have hbody : Yields (do checkSlots f f.params; stmts scope f f.body : Linker _) { classes }
      fun nodes t => InternedAll scope { classes } (Node.subnodesAll (nodes.flatMap (·.nodes))) t := by
    refine (checkSlots_idle f.params).bind fun _ s₀ h₀ => ?_
    exact fun nodes t hrun => (stmts_interned f.body s₀ nodes t hrun).of_eq h₀.classes
  obtain ⟨linked, hrun, hout⟩ := bind_eq_ok.mp h
  cases hout
  exact hbody linked.1 linked.2 hrun

theorem functions_interned {fs : List FunctionDef} {classes : List ClassRef}
    {out : List LinkedFunction × List ClassRef} (h : functions scope fs classes = .ok out) :
    Interned scope.firstClass classes (Node.classesOf (out.1.flatMap (·.subnodes))) out.2 := by
  induction fs generalizing classes out with
  | nil =>
    cases h
    exact .nil rfl
  | cons f fs ih =>
    obtain ⟨linked, hf, hrest⟩ := bind_eq_ok.mp h
    obtain ⟨rest, hfs, hout⟩ := bind_eq_ok.mp hrest
    cases hout
    rw [List.flatMap_cons, Node.classesOf_append]
    exact (function_interned hf).append (ih hfs)

end Link

/-- The classes of a program that was linked are those of its nodes, one for
each name. -/
theorem Program.linkFrom_classified {firstClass : Nat} {p : Program} {registry : Registry}
    {linked : LinkedProgram} (h : p.linkFrom firstClass registry = .ok linked) :
    linked.Classified firstClass := by
  rw [Program.linkFrom_eq] at h
  obtain ⟨-, -, h⟩ := Link.bind_eq_ok.mp h
  obtain ⟨out, hfunctions, h⟩ := Link.bind_eq_ok.mp h
  obtain ⟨main, hmain, hout⟩ := Link.bind_eq_ok.mp h
  cases hout
  have hall := (Link.functions_interned hfunctions).append (Link.function_interned hmain)
  refine ⟨hall.table (.nil firstClass), fun c => ?_⟩
  rw [hall.mem_iff, ← Node.classesOf_append, Node.mem_classesOf]
  constructor
  · rintro (hnone | ⟨fields, hnode⟩)
    · exact absurd hnone List.not_mem_nil
    · rcases List.mem_append.mp hnode with hnode | hnode
      · obtain ⟨g, hg, hnode⟩ := List.mem_flatMap.mp hnode
        obtain ⟨index, hindex⟩ := List.mem_iff_getElem?.mp hg
        refine ⟨.user index, g, fields, ?_, hnode⟩
        rw [LinkedProgram.at?, List.getElem?_toArray, hindex]
      · exact ⟨.main, main.1, fields, rfl, hnode⟩
  · rintro ⟨key, g, fields, hg, hnode⟩
    refine .inr ⟨fields, List.mem_append.mpr ?_⟩
    cases key with
    | user index =>
      rw [LinkedProgram.at?, List.getElem?_toArray] at hg
      exact .inl (List.mem_flatMap.mpr ⟨g, List.mem_of_getElem? hg, hnode⟩)
    | main =>
      cases hg
      exact .inr hnode

end AdaptiveScript
