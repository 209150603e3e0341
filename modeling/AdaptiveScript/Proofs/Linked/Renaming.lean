import AdaptiveScript.Proofs.Linked.Classes
import AdaptiveScript.Proofs.Linked.Erasure

/-! # Programs in Another Order

  The functions of a program may be defined in any order. A call node of the
  linked program holds the position of the function that it calls, and classes
  are made where their names are used first, so another order gives another
  linked program: its functions stand elsewhere, calls lead to other positions,
  and the classes of the same names have other identities. Nothing else is
  different. The one program is the other one with positions and classes
  renamed (`Program.linkFrom_perm`).

  A function is linked twice, in two scopes that may have met different
  classes before. The two traversals are followed side by side (`Link.Both`):
  they hand out the same places, and where one of them puts a position or a
  class, the other one puts the renamed one.
-/

namespace AdaptiveScript

/-! ### Renamings -/

/-- Other positions for functions, and other classes with the same names. -/
structure Renaming where
  index : Nat → Nat
  injective : Function.Injective index
  cls : ClassRef → ClassRef
  name_cls : ∀ c, (cls c).name = c.name

/-- The target of a call, with the function at its other position. -/
def CallTarget.rename (ρ : Renaming) : CallTarget → CallTarget
  | .user index => .user (ρ.index index)
  | .builtin entry inst => .builtin entry inst

/-- The function at its other position. -/
def FunctionKey.rename (ρ : Renaming) : FunctionKey → FunctionKey
  | .user index => .user (ρ.index index)
  | .main => .main

namespace Node

mutual

/-- An expression with positions and classes renamed. -/
def rename (ρ : Renaming) : Node → Node
  | .const v => .const v
  | .list items => .list (renameAll ρ items)
  | .var slot => .var slot
  | .binary op left right site => .binary op (left.rename ρ) (right.rename ρ) site
  | .call target args location => .call (target.rename ρ) (renameAll ρ args) location
  | .new cls fields => .new (ρ.cls cls) (renameFields ρ fields)
  | .field object name => .field (object.rename ρ) name

/-- Expressions with positions and classes renamed. -/
def renameAll (ρ : Renaming) : List Node → List Node
  | [] => []
  | n :: ns => n.rename ρ :: renameAll ρ ns

/-- Field values with positions and classes renamed. -/
def renameFields (ρ : Renaming) : List (String × Node) → List (String × Node)
  | [] => []
  | (name, n) :: ns => (name, n.rename ρ) :: renameFields ρ ns

end

end Node

/-- A statement with positions and classes renamed. -/
def StmtNode.rename (ρ : Renaming) : StmtNode → StmtNode
  | .expr node => .expr (node.rename ρ)
  | .assign slot value => .assign slot (value.rename ρ)
  | .setField object name value => .setField (object.rename ρ) name (value.rename ρ)
  | .ret none => .ret none
  | .ret (some value) => .ret (some (value.rename ρ))
  | .raise value location => .raise (value.rename ρ) location

/-- A function with positions and classes renamed in its body. -/
def LinkedFunction.rename (ρ : Renaming) (f : LinkedFunction) : LinkedFunction :=
  { f with body := f.body.map (·.rename ρ) }

/-! The nodes with state are the same. -/

mutual

theorem Node.operators_rename (ρ : Renaming) : ∀ n : Node, (n.rename ρ).operators = n.operators
  | .const v => rfl
  | .list items => Node.operatorsAll_rename ρ items
  | .var slot => rfl
  | .binary op left right site => by
    rw [Node.rename, Node.operators, Node.operators, Node.operators_rename ρ left,
      Node.operators_rename ρ right]
  | .call target args location => Node.operatorsAll_rename ρ args
  | .new cls fields => Node.operatorsFields_rename ρ fields
  | .field object name => Node.operators_rename ρ object

theorem Node.operatorsAll_rename (ρ : Renaming) : ∀ ns : List Node,
    Node.operatorsAll (Node.renameAll ρ ns) = Node.operatorsAll ns
  | [] => rfl
  | n :: ns => by
    rw [Node.renameAll, Node.operatorsAll, Node.operatorsAll, Node.operators_rename ρ n,
      Node.operatorsAll_rename ρ ns]

theorem Node.operatorsFields_rename (ρ : Renaming) : ∀ ns : List (String × Node),
    Node.operatorsFields (Node.renameFields ρ ns) = Node.operatorsFields ns
  | [] => rfl
  | (name, n) :: ns => by
    rw [Node.renameFields, Node.operatorsFields, Node.operatorsFields, Node.operators_rename ρ n,
      Node.operatorsFields_rename ρ ns]

end

mutual

theorem Node.builtins_rename (ρ : Renaming) : ∀ n : Node, (n.rename ρ).builtins = n.builtins
  | .const v => rfl
  | .list items => Node.builtinsAll_rename ρ items
  | .var slot => rfl
  | .binary op left right site => by
    rw [Node.rename, Node.builtins, Node.builtins, Node.builtins_rename ρ left,
      Node.builtins_rename ρ right]
  | .call target args location => by
    rw [Node.rename, Node.builtins, Node.builtins, Node.builtinsAll_rename ρ args]
    cases target <;> rfl
  | .new cls fields => Node.builtinsFields_rename ρ fields
  | .field object name => Node.builtins_rename ρ object

theorem Node.builtinsAll_rename (ρ : Renaming) : ∀ ns : List Node,
    Node.builtinsAll (Node.renameAll ρ ns) = Node.builtinsAll ns
  | [] => rfl
  | n :: ns => by
    rw [Node.renameAll, Node.builtinsAll, Node.builtinsAll, Node.builtins_rename ρ n,
      Node.builtinsAll_rename ρ ns]

theorem Node.builtinsFields_rename (ρ : Renaming) : ∀ ns : List (String × Node),
    Node.builtinsFields (Node.renameFields ρ ns) = Node.builtinsFields ns
  | [] => rfl
  | (name, n) :: ns => by
    rw [Node.renameFields, Node.builtinsFields, Node.builtinsFields, Node.builtins_rename ρ n,
      Node.builtinsFields_rename ρ ns]

end

/-! The nodes of a renamed tree are the renamed nodes. -/

mutual

theorem Node.subnodes_rename (ρ : Renaming) : ∀ n : Node,
    (n.rename ρ).subnodes = n.subnodes.map (·.rename ρ)
  | .const v => rfl
  | .list items => congrArg (List.cons _) (Node.subnodesAll_rename ρ items)
  | .var slot => rfl
  | .binary op left right site => by
    rw [Node.rename, Node.subnodes, Node.subnodes, Node.subnodes_rename ρ left,
      Node.subnodes_rename ρ right, List.map_cons, List.map_append, Node.rename]
  | .call target args location => congrArg (List.cons _) (Node.subnodesAll_rename ρ args)
  | .new cls fields => congrArg (List.cons _) (Node.subnodesFields_rename ρ fields)
  | .field object name => congrArg (List.cons _) (Node.subnodes_rename ρ object)

theorem Node.subnodesAll_rename (ρ : Renaming) : ∀ ns : List Node,
    Node.subnodesAll (Node.renameAll ρ ns) = (Node.subnodesAll ns).map (·.rename ρ)
  | [] => rfl
  | n :: ns => by
    rw [Node.renameAll, Node.subnodesAll, Node.subnodesAll, Node.subnodes_rename ρ n,
      Node.subnodesAll_rename ρ ns, List.map_append]

theorem Node.subnodesFields_rename (ρ : Renaming) : ∀ ns : List (String × Node),
    Node.subnodesFields (Node.renameFields ρ ns) = (Node.subnodesFields ns).map (·.rename ρ)
  | [] => rfl
  | (name, n) :: ns => by
    rw [Node.renameFields, Node.subnodesFields, Node.subnodesFields, Node.subnodes_rename ρ n,
      Node.subnodesFields_rename ρ ns, List.map_append]

end

theorem Node.renameAll_append (ρ : Renaming) (ns ms : List Node) :
    renameAll ρ (ns ++ ms) = renameAll ρ ns ++ renameAll ρ ms := by
  induction ns with
  | nil => rfl
  | cons n ns ih => rw [List.cons_append, renameAll, renameAll, ih, List.cons_append]

theorem StmtNode.nodes_rename (ρ : Renaming) (s : StmtNode) :
    (s.rename ρ).nodes = Node.renameAll ρ s.nodes := by
  cases s with
  | ret value => cases value <;> rfl
  | _ => rfl

theorem LinkedFunction.nodes_rename (ρ : Renaming) (f : LinkedFunction) :
    (f.rename ρ).nodes = Node.renameAll ρ f.nodes := by
  unfold LinkedFunction.rename LinkedFunction.nodes
  induction f.body with
  | nil => rfl
  | cons s body ih =>
    rw [List.map_cons, List.flatMap_cons, List.flatMap_cons, ih, StmtNode.nodes_rename,
      Node.renameAll_append]

/-- A function that has not run has the same state at its other position. -/
theorem FunctionState.initial_rename (ρ : Renaming) (f : LinkedFunction) :
    FunctionState.initial (f.rename ρ) = .initial f := by
  have hoperators : (f.rename ρ).operators = f.operators := by
    rw [LinkedFunction.operators, f.nodes_rename, Node.operatorsAll_rename]
    rfl
  have hbuiltins : (f.rename ρ).builtins = f.builtins := by
    rw [LinkedFunction.builtins, f.nodes_rename, Node.builtinsAll_rename]
    rfl
  rw [FunctionState.initial, FunctionState.initial, hoperators, hbuiltins]
  rfl

namespace Link

variable {α β : Type} {ρ : Renaming} {scope scope' : Scope} {f : FunctionDef} {s s' : State}
  {classes classes' : List ClassRef}

/-! ### Two linkings side by side -/

/-- If both steps succeed, their results and last states are as described. -/
def Both (m m' : Linker α) (s s' : State) (post : α → State → α → State → Prop) : Prop :=
  ∀ a t a' t', m.run s = .ok (a, t) → m'.run s' = .ok (a', t') → post a t a' t'

theorem Both.of_yields {m m' : Linker α} {post post' : α → State → Prop} (h : Yields m s post)
    (h' : Yields m' s' post') : Both m m' s s' fun a t a' t' => post a t ∧ post' a' t' :=
  fun a t a' t' hrun hrun' => ⟨h a t hrun, h' a' t' hrun'⟩

theorem Both.pure {a a' : α} {post : α → State → α → State → Prop} (h : post a s a' s') :
    Both (pure a) (pure a') s s' post := by
  intro b t b' t' hrun hrun'
  cases hrun
  cases hrun'
  exact h

theorem Both.bind {m m' : Linker α} {k k' : α → Linker β}
    {mid : α → State → α → State → Prop} {post : β → State → β → State → Prop}
    (hm : Both m m' s s' mid)
    (hk : ∀ a t a' t', mid a t a' t' → Both (k a) (k' a') t t' post) :
    Both (m >>= k) (m' >>= k') s s' post := by
  intro b t b' t' hrun hrun'
  rw [StateT.run_bind] at hrun hrun'
  obtain ⟨out, hout, hrest⟩ := bind_eq_ok.mp hrun
  obtain ⟨out', hout', hrest'⟩ := bind_eq_ok.mp hrun'
  exact hk out.1 out.2 out'.1 out'.2 (hm _ _ _ _ hout hout') b t b' t' hrest hrest'

/-- The next places are the same ones. -/
structure Level (s s' : State) : Prop where
  sites : s'.siteCount = s.siteCount
  builtins : s'.builtinCount = s.builtinCount

theorem Level.idle {t t' : State} (h : Level s s') (ht : Idle s t) (ht' : Idle s' t') :
    Level t t' where
  sites := by rw [ht'.sites, h.sites, ht.sites]
  builtins := by rw [ht'.builtins, h.builtins, ht.builtins]

theorem nextSite_both (h : Level s s') :
    Both nextSite nextSite s s' fun site t site' t' => site' = site ∧ Level t t' := by
  intro site t site' t' hrun hrun'
  cases hrun
  cases hrun'
  exact ⟨h.sites, congrArg (· + 1) h.sites, h.builtins⟩

/-- What a name stands for, with the function at its other position. -/
def Callee.rename (ρ : Renaming) : Callee → Callee
  | .user index => .user (ρ.index index)
  | .builtin entry => .builtin entry

theorem target_both (h : Level s s') (callee : Callee) :
    Both (target callee) (target (callee.rename ρ)) s s'
      fun t m t' m' => t' = t.rename ρ ∧ Level m m' := by
  intro t m t' m' hrun hrun'
  cases callee with
  | user index =>
    cases hrun
    cases hrun'
    exact ⟨rfl, h⟩
  | builtin entry =>
    cases hrun
    cases hrun'
    refine ⟨?_, h.sites, congrArg (· + 1) h.builtins⟩
    exact congrArg (CallTarget.builtin entry) h.builtins

theorem internClass_level (name : String) : Yields (internClass scope name) s fun _ t =>
    t.siteCount = s.siteCount ∧ t.builtinCount = s.builtinCount := by
  refine .look ?_
  split
  · exact .pure ⟨rfl, rfl⟩
  · exact Yields.bind (.set ⟨rfl, rfl⟩) fun _ _ h => .pure h

theorem internClass_both (h : Level s s') (name : String) :
    Both (internClass scope name) (internClass scope' name) s s'
      fun c t c' t' => c'.name = c.name ∧ Level t t' := by
  intro c t c' t' hrun hrun'
  have hname := internClass_name name c t hrun
  have hname' := internClass_name name c' t' hrun'
  have ht := internClass_level name c t hrun
  have ht' := internClass_level name c' t' hrun'
  exact ⟨hname'.trans hname.symm, by rw [ht'.1, h.sites, ht.1], by rw [ht'.2, h.builtins, ht.2]⟩

/-- Two scopes in which names stand for the same up to the renaming; the
linkings end with the given classes. -/
structure Relates (ρ : Renaming) (scope scope' : Scope) (classes classes' : List ClassRef) :
    Prop where
  registry : scope'.registry = scope.registry
  functions : ∀ i, scope'.functions[ρ.index i]? = scope.functions[i]?
  mem_iff : ∀ name, name ∈ scope'.functions ↔ name ∈ scope.functions
  nodup : scope'.functions.Nodup
  classes : ∀ c ∈ classes, ∀ c' ∈ classes', c'.name = c.name → c' = ρ.cls c

/-- Two positions of one name are one position. -/
theorem index_eq_of_nodup {names : List String} (h : names.Nodup) {i j : Nat} {name : String}
    (hi : names[i]? = some name) (hj : names[j]? = some name) : i = j := by
  obtain ⟨hilt, hiname⟩ := List.getElem?_eq_some_iff.mp hi
  obtain ⟨hjlt, hjname⟩ := List.getElem?_eq_some_iff.mp hj
  exact (h.getElem_inj_iff).mp (hiname.trans hjname.symm)

theorem getElem?_of_idxOf? {names : List String} {i : Nat} {name : String}
    (h : names.idxOf? name = some i) : names[i]? = some name := by
  obtain ⟨hlt, hname, -⟩ := List.findIdx?_eq_some_iff_getElem.mp h
  rw [List.getElem?_eq_getElem hlt, beq_iff_eq.mp hname]

theorem resolve_both (h : Relates ρ scope scope' classes classes') {name : String}
    {callee callee' : Callee} (hresolve : scope.resolve name = .ok callee)
    (hresolve' : scope'.resolve name = .ok callee') : callee' = callee.rename ρ := by
  -- both scopes have the same function names, so a name cannot be a function in one of them only
  rcases resolve_ok hresolve with ⟨i, rfl, hi⟩ | ⟨entry, rfl, hnot, hentry⟩
  · rcases resolve_ok hresolve' with ⟨i', rfl, hi'⟩ | ⟨_, -, hnot, -⟩
    · rw [← h.functions i] at hi
      exact congrArg Callee.user (index_eq_of_nodup h.nodup hi' hi)
    · exact absurd (List.mem_of_getElem? hi) fun hmem => hnot ((h.mem_iff name).mpr hmem)
  · rcases resolve_ok hresolve' with ⟨i', -, hi'⟩ | ⟨entry', rfl, -, hentry'⟩
    · exact absurd (List.mem_of_getElem? hi') fun hmem => hnot ((h.mem_iff name).mp hmem)
    · rw [h.registry, hentry] at hentry'
      exact congrArg Callee.builtin (Option.some.inj hentry').symm

theorem resolve_level (h : Relates ρ scope scope' classes classes') (hs : Level s s')
    (name : String) :
    Both (liftM (scope.resolve name) : Linker Callee) (liftM (scope'.resolve name)) s s'
      fun callee t callee' t' => callee' = callee.rename ρ ∧ Level t t' := by
  intro callee t callee' t' hrun hrun'
  have hcallee := resolve_both h (resolve_yields_ok name callee t hrun)
    (resolve_yields_ok name callee' t' hrun')
  rw [(resolve_yields name callee t hrun).1, (resolve_yields name callee' t' hrun').1]
  exact ⟨hcallee, hs⟩

/-- Something holds of nodes once both linkings have ended: which class takes
the place of another one is known only then, from the classes that they end
with. -/
def Settled (classes classes' : List ClassRef) (ns ns' : List Node) (P : Prop) : Prop :=
  Node.classesOf ns ⊆ classes → Node.classesOf ns' ⊆ classes' → P

theorem Settled.append {ns ns' ms ms' : List Node} {P Q : Prop}
    (h : Settled classes classes' ns ns' P) (h' : Settled classes classes' ms ms' Q) :
    Settled classes classes' (ns ++ ms) (ns' ++ ms') (P ∧ Q) := by
  intro hsub hsub'
  rw [Node.classesOf_append, List.append_subset] at hsub hsub'
  exact ⟨h hsub.1 hsub'.1, h' hsub.2 hsub'.2⟩

theorem Settled.mono {ns ns' : List Node} {P Q : Prop} (h : Settled classes classes' ns ns' P)
    (hQ : P → Q) : Settled classes classes' ns ns' Q :=
  fun hsub hsub' => hQ (h hsub hsub')

mutual

theorem expr_both (h : Relates ρ scope scope' classes classes') (f : FunctionDef) :
    ∀ (e : Expr Nat) {s s' : State}, Level s s' → Both (expr scope f e) (expr scope' f e) s s'
      fun n t n' t' =>
        Settled classes classes' n.subnodes n'.subnodes (n' = n.rename ρ) ∧ Level t t'
  | .lit value, s, s', hs => by
    rw [expr, expr]
    exact .pure ⟨fun _ _ => rfl, hs⟩
  | .list items, s, s', hs => by
    rw [expr, expr]
    refine (exprs_both h f items hs).bind fun ns t ns' t' hns => .pure ⟨?_, hns.2⟩
    exact hns.1.mono fun heq => by rw [heq, Node.rename]
  | .var slot, s, s', hs => by
    rw [expr, expr]
    refine (Both.of_yields (checkSlot_idle slot) (checkSlot_idle slot)).bind
      fun _ t _ t' ht => .pure ⟨fun _ _ => rfl, hs.idle ht.1 ht.2⟩
  | .binary op left right id, s, s', hs => by
    rw [expr, expr]
    refine (Both.of_yields (claimSite_idle id) (claimSite_idle id)).bind fun _ s₀ _ s₀' h₀ => ?_
    refine (expr_both h f left (hs.idle h₀.1 h₀.2)).bind fun l s₁ l' s₁' hl => ?_
    refine (expr_both h f right hl.2).bind fun r s₂ r' s₂' hr => ?_
    refine (nextSite_both hr.2).bind fun site s₃ site' s₃' hsite => .pure ⟨?_, hsite.2⟩
    exact (hl.1.append hr.1).mono fun heq => by rw [heq.1, heq.2, hsite.1, Node.rename]
  | .call callee args id location, s, s', hs => by
    rw [expr, expr]
    refine (Both.of_yields (claimCall_idle id) (claimCall_idle id)).bind fun _ s₀ _ s₀' h₀ => ?_
    refine (resolve_level h (hs.idle h₀.1 h₀.2) callee).bind fun c s₁ c' s₁' hc => ?_
    obtain ⟨rfl, hs₁⟩ := hc
    refine (exprs_both h f args hs₁).bind fun ns s₂ ns' s₂' hns => ?_
    refine (target_both hns.2 c).bind fun t s₃ t' s₃' ht => .pure ⟨?_, ht.2⟩
    exact hns.1.mono fun heq => by rw [heq, ht.1, Node.rename]
  | .functionRef name, s, s', hs => by
    rw [expr, expr]
    refine (resolve_level h hs name).bind fun c t c' t' hc => ?_
    obtain ⟨rfl, ht⟩ := hc
    cases c <;> exact .pure ⟨fun _ _ => rfl, ht⟩
  | .new cls values, s, s', hs => by
    rw [expr, expr]
    refine (internClass_both hs cls).bind fun c s₀ c' s₀' hc => ?_
    refine (fields_both h f values hc.2).bind fun ns t ns' t' hns => .pure ⟨?_, hns.2⟩
    -- the two classes have one name, and each table has one class for it
    intro hsub hsub'
    rw [Node.subnodes, Node.classesOf_new, List.cons_subset] at hsub hsub'
    rw [hns.1 hsub.2 hsub'.2, h.classes c hsub.1 c' hsub'.1 hc.1, Node.rename]
  | .field object name, s, s', hs => by
    rw [expr, expr]
    refine (expr_both h f object hs).bind fun n t n' t' hn => .pure ⟨?_, hn.2⟩
    exact hn.1.mono fun heq => by rw [heq, Node.rename]

theorem exprs_both (h : Relates ρ scope scope' classes classes') (f : FunctionDef) :
    ∀ (es : List (Expr Nat)) {s s' : State}, Level s s' →
      Both (exprs scope f es) (exprs scope' f es) s s' fun ns t ns' t' =>
        Settled classes classes' (Node.subnodesAll ns) (Node.subnodesAll ns')
          (ns' = Node.renameAll ρ ns) ∧ Level t t'
  | [], s, s', hs => by
    rw [exprs, exprs]
    exact .pure ⟨fun _ _ => rfl, hs⟩
  | e :: es, s, s', hs => by
    rw [exprs, exprs]
    refine (expr_both h f e hs).bind fun n s₁ n' s₁' hn => ?_
    refine (exprs_both h f es hn.2).bind fun ns s₂ ns' s₂' hns => .pure ⟨?_, hns.2⟩
    exact (hn.1.append hns.1).mono fun heq => by rw [heq.1, heq.2, Node.renameAll]

theorem fields_both (h : Relates ρ scope scope' classes classes') (f : FunctionDef) :
    ∀ (es : List (String × Expr Nat)) {s s' : State}, Level s s' →
      Both (fields scope f es) (fields scope' f es) s s' fun ns t ns' t' =>
        Settled classes classes' (Node.subnodesFields ns) (Node.subnodesFields ns')
          (ns' = Node.renameFields ρ ns) ∧ Level t t'
  | [], s, s', hs => by
    rw [fields, fields]
    exact .pure ⟨fun _ _ => rfl, hs⟩
  | (name, e) :: es, s, s', hs => by
    rw [fields, fields]
    refine (expr_both h f e hs).bind fun n s₁ n' s₁' hn => ?_
    refine (fields_both h f es hn.2).bind fun ns s₂ ns' s₂' hns => .pure ⟨?_, hns.2⟩
    exact (hn.1.append hns.1).mono fun heq => by rw [heq.1, heq.2, Node.renameFields]

end

theorem stmt_both (h : Relates ρ scope scope' classes classes') (st : Stmt Nat) (hs : Level s s') :
    Both (Link.stmt scope f st) (Link.stmt scope' f st) s s' fun node t node' t' =>
      Settled classes classes' (Node.subnodesAll node.nodes) (Node.subnodesAll node'.nodes)
        (node' = node.rename ρ) ∧ Level t t' := by
  -- a statement with one expression is settled when the expression is
  have hone : ∀ {n n' : Node} {P : Prop}, Settled classes classes' n.subnodes n'.subnodes P →
      Settled classes classes' (Node.subnodesAll [n]) (Node.subnodesAll [n']) P := by
    intro n n' P hn
    simpa only [Node.subnodesAll, List.append_nil] using hn
  cases st with
  | expr e =>
    refine (expr_both h f e hs).bind fun n t n' t' hn => .pure ⟨hone ?_, hn.2⟩
    exact hn.1.mono (congrArg StmtNode.expr)
  | assign slot value =>
    refine (Both.of_yields (checkSlot_idle slot) (checkSlot_idle slot)).bind
      fun _ s₀ _ s₀' h₀ => ?_
    refine (expr_both h f value (hs.idle h₀.1 h₀.2)).bind fun n t n' t' hn =>
      .pure ⟨hone ?_, hn.2⟩
    exact hn.1.mono (congrArg (StmtNode.assign slot))
  | setField object name value =>
    refine (expr_both h f object hs).bind fun n s₁ n' s₁' hn => ?_
    refine (expr_both h f value hn.2).bind fun m t m' t' hm => .pure ⟨?_, hm.2⟩
    exact (hn.1.append (hone hm.1)).mono fun heq => by rw [heq.1, heq.2]; rfl
  | ret value =>
    cases value with
    | none => exact .pure ⟨fun _ _ => rfl, hs⟩
    | some value =>
      refine (expr_both h f value hs).bind fun n t n' t' hn => .pure ⟨hone ?_, hn.2⟩
      exact hn.1.mono (congrArg fun n => StmtNode.ret (some n))
  | raise value location =>
    refine (expr_both h f value hs).bind fun n t n' t' hn => .pure ⟨hone ?_, hn.2⟩
    exact hn.1.mono (congrArg fun n => StmtNode.raise n location)

theorem stmts_both (h : Relates ρ scope scope' classes classes') (body : List (Stmt Nat))
    (hs : Level s s') :
    Both (stmts scope f body) (stmts scope' f body) s s' fun nodes t nodes' t' =>
      Settled classes classes' (Node.subnodesAll (nodes.flatMap (·.nodes)))
        (Node.subnodesAll (nodes'.flatMap (·.nodes))) (nodes' = nodes.map (·.rename ρ)) ∧
      Level t t' := by
  induction body generalizing s s' with
  | nil => exact .pure ⟨fun _ _ => rfl, hs⟩
  | cons st body ih =>
    refine (stmt_both h st hs).bind fun node s₁ node' s₁' hnode => ?_
    refine (ih hnode.2).bind fun nodes t nodes' t' hnodes => .pure ⟨?_, hnodes.2⟩
    rw [List.flatMap_cons, List.flatMap_cons, Node.subnodesAll_append, Node.subnodesAll_append]
    exact (hnode.1.append hnodes.1).mono fun heq => by rw [heq.1, heq.2, List.map_cons]

/-- A function that is linked twice is the same up to the renaming. -/
theorem function_both (h : Relates ρ scope scope' classes classes') {before before' : List ClassRef}
    {out out' : LinkedFunction × List ClassRef} (hf : function scope f before = .ok out)
    (hf' : function scope' f before' = .ok out')
    (hsub : Node.classesOf out.1.subnodes ⊆ classes)
    (hsub' : Node.classesOf out'.1.subnodes ⊆ classes') : out'.1 = out.1.rename ρ := by
  -- every function starts to count at zero
  have hlevel : Level { classes := before } { classes := before' } := ⟨rfl, rfl⟩
  have hbody := (Both.of_yields (checkSlots_idle (f := f) f.params)
    (checkSlots_idle (f := f) f.params)).bind
    fun _ s₀ _ s₀' h₀ => stmts_both (f := f) h f.body (hlevel.idle h₀.1 h₀.2)
  obtain ⟨linked, hrun, hout⟩ := bind_eq_ok.mp hf
  obtain ⟨linked', hrun', hout'⟩ := bind_eq_ok.mp hf'
  cases hout
  cases hout'
  have hnodes := (hbody _ _ _ _ hrun hrun').1 hsub hsub'
  rw [LinkedFunction.rename, hnodes]

/-- Each of the functions was linked on its own, with some classes before it. -/
theorem functions_each {fs : List FunctionDef} {before : List ClassRef}
    {out : List LinkedFunction × List ClassRef} (h : functions scope fs before = .ok out) :
    List.Forall₂ (fun f g => ∃ before after, function scope f before = .ok (g, after)) fs out.1 := by
  induction fs generalizing before out with
  | nil =>
    cases h
    exact .nil
  | cons f fs ih =>
    obtain ⟨linked, hf, hrest⟩ := bind_eq_ok.mp h
    obtain ⟨rest, hfs, hout⟩ := bind_eq_ok.mp hrest
    cases hout
    exact .cons ⟨before, linked.2, hf⟩ (ih hfs)

end Link

/-! ### Another order of the functions -/

/-- The program with its functions in another order, or with other ones. -/
def Program.withFunctions (p : Program) (fs : List FunctionDef) : Program :=
  { p with functions := fs }

/-- The classes that objects can have: those that were there before the program
was linked, and those of the program. -/
def LinkedProgram.Knows (linked : LinkedProgram) (first : Nat) (c : ClassRef) : Prop :=
  c.id < first ∨ c ∈ linked.classes

/-- The classes of one linked program take the place of those of another one,
one to one. -/
structure LinkedProgram.Reclassed (first : Nat) (linked linked' : LinkedProgram)
    (cls : ClassRef → ClassRef) : Prop where
  /-- A class keeps its name. -/
  name : ∀ c, (cls c).name = c.name
  /-- Other classes stay what they are. -/
  old : ∀ c, c.id < first → cls c = c
  /-- A name leads to the class in the place of the one that it led to. -/
  found : ∀ name, linked'.class? name = (linked.class? name).map cls
  /-- Different classes stay different. -/
  same : ∀ c d, linked.Knows first c → linked.Knows first d → (cls c).same (cls d) = c.same d

/-- A linked program is another one with positions and classes renamed. -/
structure Renaming.Carries (ρ : Renaming) (first : Nat) (linked linked' : LinkedProgram) :
    Prop where
  functions : ∀ key f, linked.at? key = some f → linked'.at? (key.rename ρ) = some (f.rename ρ)
  /-- There is no function at any other position. -/
  outside : ∀ i, linked.functions[i]? = none → linked'.functions[i]? = none ∧ ρ.index i = i
  named : ∀ name, linked'.index? name = (linked.index? name).map ρ.index
  classes : linked.Reclassed first linked' ρ.cls

namespace Renaming

theorem Carries.main {ρ : Renaming} {first : Nat} {linked linked' : LinkedProgram}
    (h : ρ.Carries first linked linked') : linked'.main = linked.main.rename ρ :=
  Option.some.inj (h.functions .main linked.main rfl)

variable {names names' : List String}

/-- Where the name at a position stands in another list. -/
def position (names names' : List String) (i : Nat) : Nat :=
  match names[i]? with
  | some name => names'.idxOf name
  | none => i

theorem getElem?_position (hperm : names'.Perm names) (i : Nat) :
    names'[position names names' i]? = names[i]? := by
  unfold position
  cases hi : names[i]? with
  | some name =>
    have hmem : name ∈ names' := hperm.mem_iff.mpr (List.mem_of_getElem? hi)
    exact List.getElem?_idxOf hmem
  | none =>
    rw [List.getElem?_eq_none_iff] at hi ⊢
    rwa [hperm.length_eq]

theorem position_injective (hperm : names'.Perm names) (hnodup : names.Nodup) :
    Function.Injective (position names names') := by
  intro i j h
  have hnames : names[i]? = names[j]? := by
    rw [← getElem?_position hperm i, h, getElem?_position hperm j]
  cases hi : names[i]? with
  | some name => exact Link.index_eq_of_nodup hnodup hi (hnames ▸ hi)
  | none =>
    -- positions without a name stay where they are
    have hj : names[j]? = none := hnames ▸ hi
    simpa only [position, hi, hj] using h

/-- The class of the same name in another table, for a class that was made by a
program. -/
def reclass (first : Nat) (classes' : List ClassRef) (c : ClassRef) : ClassRef :=
  if c.id < first then c else (classes'.find? (·.name == c.name)).getD c

theorem name_reclass (first : Nat) (classes' : List ClassRef) (c : ClassRef) :
    (reclass first classes' c).name = c.name := by
  unfold reclass
  split
  · rfl
  · cases hfind : classes'.find? (·.name == c.name) with
    | none => rfl
    | some d => simpa using List.find?_some hfind

/-- The renaming from one order of the functions to another one, where the
classes end up in the given table. -/
def between (first : Nat) (hperm : names'.Perm names) (hnodup : names.Nodup)
    (classes' : List ClassRef) : Renaming where
  index := position names names'
  injective := position_injective hperm hnodup
  cls := reclass first classes'
  name_cls := name_reclass first classes'

end Renaming

namespace Program

variable {firstClass : Nat} {p : Program} {registry : Registry} {linked linked' : LinkedProgram}
  {fs : List FunctionDef}

/-- Whether a program is well-formed does not depend on the order of its
functions. -/
theorem WellFormed.perm (h : p.WellFormed registry) (hperm : fs.Perm p.functions) :
    (p.withFunctions fs).WellFormed registry := by
  have hnames := hperm.map (·.name)
  have hknown : ∀ name ∈ p.known registry, name ∈ (p.withFunctions fs).known registry := by
    intro name hname
    rcases List.mem_append.mp hname with hname | hname
    · exact List.mem_append_left _ (hnames.mem_iff.mpr hname)
    · exact List.mem_append_right _ hname
  refine ⟨⟨?_, hnames.nodup_iff.mpr h.names.nodup⟩, ?_⟩
  · intro name hname
    exact h.names.ne_program name (hnames.mem_iff.mp hname)
  · intro f hf
    have hwell := h.functions f ((hperm.append_right [p.main]).mem_iff.mp hf)
    exact { hwell with name_known := fun name hname => hknown name (hwell.name_known name hname) }

theorem linkFrom_wellFormed (h : p.linkFrom firstClass registry = .ok linked) :
    p.WellFormed registry := by
  rcases linkFrom_cases firstClass p registry with ⟨_, _, hwell⟩ | ⟨e, he, -⟩
  · exact hwell
  · rw [he] at h
    cases h

theorem WellFormed.exists_linkFrom (h : p.WellFormed registry) (firstClass : Nat) :
    ∃ linked, p.linkFrom firstClass registry = .ok linked := by
  rcases linkFrom_cases firstClass p registry with ⟨linked, hlink, -⟩ | ⟨_, _, hviolation⟩
  · exact ⟨linked, hlink⟩
  · exact absurd h hviolation.not_wellFormed

/-- A function of a program that was linked is linked in its place. -/
theorem linkFrom_at (h : p.linkFrom firstClass registry = .ok linked) {key : FunctionKey}
    {f : FunctionDef} (hf : p.at? key = some f) : ∃ out before,
      linked.at? key = some out.1 ∧
        Link.function (p.scope firstClass registry) f before = .ok out := by
  rw [linkFrom_eq] at h
  obtain ⟨-, -, h⟩ := Link.bind_eq_ok.mp h
  obtain ⟨out, hfunctions, h⟩ := Link.bind_eq_ok.mp h
  obtain ⟨main, hmain, hout⟩ := Link.bind_eq_ok.mp h
  cases hout
  cases key with
  | user index =>
    have heach := Link.functions_each hfunctions
    obtain ⟨hindex, rfl⟩ := List.getElem?_eq_some_iff.mp hf
    have hlinked : index < out.1.length := heach.length_eq ▸ hindex
    obtain ⟨before, after, hfunction⟩ := heach.get hindex hlinked
    refine ⟨(out.1[index], after), before, ?_, hfunction⟩
    rw [LinkedProgram.at?, List.getElem?_toArray, List.getElem?_eq_getElem hlinked]
  | main =>
    cases hf
    exact ⟨main, out.2, rfl, hmain⟩

theorem linkFrom_size (h : p.linkFrom firstClass registry = .ok linked) :
    linked.functions.size = p.functions.length := by
  have hlength := (linkFrom_forms h).functions.length_eq
  rw [hlength, Array.length_toList]

/-- Every linked function was linked from one of the program. -/
theorem exists_at (h : p.linkFrom firstClass registry = .ok linked) {key : FunctionKey}
    {g : LinkedFunction} (hg : linked.at? key = some g) : ∃ f, p.at? key = some f := by
  cases key with
  | main => exact ⟨p.main, rfl⟩
  | user i =>
    obtain ⟨hi, -⟩ := Array.getElem?_eq_some_iff.mp hg
    rw [linkFrom_size h] at hi
    exact ⟨p.functions[i], List.getElem?_eq_getElem hi⟩

theorem index?_eq (h : p.linkFrom firstClass registry = .ok linked) (name : String) :
    linked.index? name = (p.functions.map (·.name)).idxOf? name := by
  have hnames := (linkFrom_forms h).names
  rw [functionNames] at hnames
  rw [← hnames, List.idxOf?, List.findIdx?_map, ← List.findIdx?_toArray, Array.toArray_toList]
  rfl

section

variable (h : p.linkFrom firstClass registry = .ok linked)
  (h' : (p.withFunctions fs).linkFrom firstClass registry = .ok linked')
  (hperm : fs.Perm p.functions)

include h hperm

/-- The renaming from the order of the functions in the program to the given
one. -/
def reordering (linked' : LinkedProgram) : Renaming :=
  .between firstClass (hperm.map (·.name)) (linkFrom_wellFormed h).names.nodup linked'.classes

/-- A function is defined at its other position. -/
theorem at_rename {key : FunctionKey} {f : FunctionDef} (hf : p.at? key = some f) :
    (p.withFunctions fs).at? (key.rename (p.reordering h hperm linked')) = some f := by
  cases key with
  | main => exact hf
  | user i =>
    have hnodup := (linkFrom_wellFormed h).names.nodup
    have hname : (p.functions.map (·.name))[i]? = some f.name := by
      rw [List.getElem?_map]
      exact congrArg (Option.map (·.name)) hf
    rw [← Renaming.getElem?_position (hperm.map (·.name)) i, List.getElem?_map] at hname
    obtain ⟨g, hg, hgname⟩ := Option.map_eq_some_iff.mp hname
    -- no other function has the name
    have hgmem : g ∈ p.functions := hperm.mem_iff.mp (List.mem_of_getElem? hg)
    have hfmem : f ∈ p.functions := List.mem_of_getElem? hf
    rw [← List.inj_on_of_nodup_map hnodup hgmem hfmem hgname]
    exact hg

include h'

theorem reordering_relates : Link.Relates (p.reordering h hperm linked')
    (p.scope firstClass registry) ((p.withFunctions fs).scope firstClass registry) linked.classes
    linked'.classes where
  registry := rfl
  functions i := Renaming.getElem?_position (hperm.map fun f : FunctionDef => f.name) i
  mem_iff _ := (hperm.map (·.name)).mem_iff
  nodup := (linkFrom_wellFormed h').names.nodup
  classes := by
    -- a class that the program made is looked up in the other table under its name
    intro c hc c' hc' hname
    have hid := (linkFrom_classified h).table.first_le hc
    show c' = Renaming.reclass firstClass linked'.classes c
    rw [Renaming.reclass, if_neg (Nat.not_lt.mpr hid), ← hname,
      (linkFrom_classified h').table.find?_of_mem hc']
    rfl

theorem function_carried {key : FunctionKey} {g : LinkedFunction} (hg : linked.at? key = some g) :
    linked'.at? (key.rename (p.reordering h hperm linked')) =
      some (g.rename (p.reordering h hperm linked')) := by
  obtain ⟨f, hf⟩ := exists_at h hg
  obtain ⟨out, before, hout, hlink⟩ := linkFrom_at h hf
  obtain ⟨out', before', hout', hlink'⟩ := linkFrom_at h' (at_rename h hperm hf)
  have hrenamed := Link.function_both (reordering_relates h h' hperm) hlink hlink'
    ((linkFrom_classified h).subset hout) ((linkFrom_classified h').subset hout')
  rw [hout', hrenamed, Option.some.inj (hout.symm.trans hg)]

theorem index?_carried (name : String) :
    linked'.index? name = (linked.index? name).map (p.reordering h hperm linked').index := by
  have hrelates := reordering_relates h h' hperm
  rw [index?_eq h, index?_eq h']
  cases hindex : (p.functions.map (·.name)).idxOf? name with
  | none =>
    have hnot := List.idxOf?_eq_none_iff.mp hindex
    exact List.idxOf?_eq_none_iff.mpr fun hmem => hnot ((hrelates.mem_iff name).mp hmem)
  | some i =>
    have hi := Link.getElem?_of_idxOf? hindex
    have hi' := (hrelates.functions i).trans hi
    cases hindex' : ((p.withFunctions fs).functions.map (·.name)).idxOf? name with
    | none => exact absurd (List.mem_of_getElem? hi') (List.idxOf?_eq_none_iff.mp hindex')
    | some j =>
      have hj := Link.getElem?_of_idxOf? hindex'
      exact congrArg some (Link.index_eq_of_nodup hrelates.nodup hj hi')

/-- A class of the program has another one in its place in the other program. -/
theorem class_carried {c : ClassRef} (hc : c ∈ linked.classes) :
    (p.reordering h hperm linked').cls c ∈ linked'.classes := by
  obtain ⟨key, g, fields, hg, hnode⟩ := ((linkFrom_classified h).mem_iff c).mp hc
  have hrenamed := List.mem_map_of_mem (f := (·.rename (p.reordering h hperm linked'))) hnode
  rw [LinkedFunction.subnodes, ← Node.subnodesAll_rename, ← LinkedFunction.nodes_rename,
    Node.rename] at hrenamed
  exact ((linkFrom_classified h').mem_iff _).mpr
    ⟨_, _, _, function_carried h h' hperm hg, hrenamed⟩

theorem class?_carried (name : String) :
    linked'.class? name = (linked.class? name).map (p.reordering h hperm linked').cls := by
  cases hfind : linked.class? name with
  | some c =>
    have hc : c ∈ linked.classes := List.mem_of_find?_eq_some hfind
    have hname : c.name = name := by simpa using List.find?_some hfind
    have hfind' := (linkFrom_classified h').table.find?_of_mem (class_carried h h' hperm hc)
    rwa [(p.reordering h hperm linked').name_cls, hname] at hfind'
  | none =>
    -- a class of the name would have one in its place in the first program, by the way back
    refine List.find?_eq_none.mpr fun c' hc' hname => ?_
    have hback : ((p.withFunctions fs).withFunctions p.functions).linkFrom firstClass registry =
        .ok linked := h
    have hc := class_carried h' hback hperm.symm hc'
    apply List.find?_eq_none.mp hfind _ hc
    rw [((p.withFunctions fs).reordering h' hperm.symm linked).name_cls]
    exact hname

theorem same_carried {c d : ClassRef} (hc : c ∈ linked.classes) (hd : d ∈ linked.classes) :
    ((p.reordering h hperm linked').cls c).same ((p.reordering h hperm linked').cls d) =
      c.same d := by
  have htable := (linkFrom_classified h).table
  have htable' := (linkFrom_classified h').table
  have hname := (p.reordering h hperm linked').name_cls
  by_cases hcd : c = d
  · rw [hcd, ClassRef.same, ClassRef.same, beq_self_eq_true, beq_self_eq_true]
  · have hid : c.id ≠ d.id := fun hid => hcd (htable.eq_of_id hc hd hid)
    have hid' : ((p.reordering h hperm linked').cls c).id ≠
        ((p.reordering h hperm linked').cls d).id := by
      intro hid'
      have heq := htable'.eq_of_id (class_carried h h' hperm hc) (class_carried h h' hperm hd) hid'
      apply hcd (htable.eq_of_name hc hd ?_)
      rw [← hname c, heq, hname d]
    rw [ClassRef.same, ClassRef.same, beq_false_of_ne hid, beq_false_of_ne hid']

/-- The classes of the one program take the place of those of the other one. -/
theorem reclassed : linked.Reclassed firstClass linked' (p.reordering h hperm linked').cls := by
  have hold : ∀ c : ClassRef, c.id < firstClass → (p.reordering h hperm linked').cls c = c :=
    fun c hc => if_pos hc
  have hle : ∀ c ∈ linked.classes, firstClass ≤ c.id :=
    fun c hc => (linkFrom_classified h).table.first_le hc
  have hle' : ∀ c ∈ linked.classes, firstClass ≤ ((p.reordering h hperm linked').cls c).id :=
    fun c hc => (linkFrom_classified h').table.first_le (class_carried h h' hperm hc)
  refine ⟨(p.reordering h hperm linked').name_cls, hold, class?_carried h h' hperm, ?_⟩
  intro c d hc hd
  rcases hc with hc | hc <;> rcases hd with hd | hd
  · rw [hold c hc, hold d hd]
  -- the classes of a program have higher numbers than those before it
  · have hid := hle d hd
    have hid' := hle' d hd
    rw [hold c hc, ClassRef.same, ClassRef.same, beq_false_of_ne (by omega),
      beq_false_of_ne (by omega)]
  · have hid := hle c hc
    have hid' := hle' c hc
    rw [hold d hd, ClassRef.same, ClassRef.same, beq_false_of_ne (by omega),
      beq_false_of_ne (by omega)]
  · exact same_carried h h' hperm hc hd

end

/-- In any other order of its functions, a program that links does so again, and
yields the same up to a renaming. -/
theorem linkFrom_perm (h : p.linkFrom firstClass registry = .ok linked)
    (hperm : fs.Perm p.functions) : ∃ linked' ρ,
      (p.withFunctions fs).linkFrom firstClass registry = .ok linked' ∧
        Renaming.Carries ρ firstClass linked linked' := by
  have hwell : (p.withFunctions fs).WellFormed registry := (linkFrom_wellFormed h).perm hperm
  obtain ⟨linked', h'⟩ := hwell.exists_linkFrom firstClass
  refine ⟨linked', p.reordering h hperm linked', h', ?_, ?_, ?_, reclassed h h' hperm⟩
  · intro key g hg
    exact function_carried h h' hperm hg
  · intro i hi
    have hlength : fs.length = p.functions.length := hperm.length_eq
    have hsize' : linked'.functions.size = fs.length := linkFrom_size h'
    rw [Array.getElem?_eq_none_iff, linkFrom_size h] at hi
    refine ⟨Array.getElem?_eq_none (by omega), ?_⟩
    have hnone : (p.functions.map (·.name))[i]? = none :=
      List.getElem?_eq_none (by rw [List.length_map]; exact hi)
    show Renaming.position (p.functions.map (·.name)) (fs.map (·.name)) i = i
    rw [Renaming.position, hnone]
  · exact index?_carried h h' hperm

end Program

end AdaptiveScript
