import AdaptiveScript.Proofs.Link.WellFormed
import Mathlib.Data.List.Basic

/-! # The Nodes of a Linked Program

  Evaluation goes down a tree of nodes, and what a law says about a step
  depends on the node that the step belongs to. `Node.subnodes` lists the
  nodes of a tree. For a program that was linked, two things are known of
  them (`LinkedFunction.Placed`): an operator node holds its own place among
  the operators of its function, and a call of a builtin invokes a
  declaration of the registry.

  Places are handed out while nodes are finished, so the invariant of the
  traversal speaks of two linker states: the nodes that were linked between
  them have the places between their two counts (`Link.Laid`).
-/

namespace AdaptiveScript

/-! ### Subnodes -/

namespace Node

mutual

/-- The nodes of an expression, itself included. -/
def subnodes : Node → List Node
  | .const v => [.const v]
  | .list items => .list items :: subnodesAll items
  | .var slot => [.var slot]
  | .binary op left right site => .binary op left right site :: (left.subnodes ++ right.subnodes)
  | .call target args location => .call target args location :: subnodesAll args
  | .new cls fields => .new cls fields :: subnodesFields fields
  | .field object name => .field object name :: object.subnodes

/-- The nodes of expressions. -/
def subnodesAll : List Node → List Node
  | [] => []
  | n :: ns => n.subnodes ++ subnodesAll ns

/-- The nodes of field values. -/
def subnodesFields : List (String × Node) → List Node
  | [] => []
  | (_, n) :: ns => n.subnodes ++ subnodesFields ns

end

/-- An expression is one of its own nodes. -/
theorem mem_subnodes_self (n : Node) : n ∈ n.subnodes := by
  cases n <;> rw [subnodes] <;> exact List.mem_cons_self

theorem subnodesAll_subset {n : Node} {ns : List Node} (h : n ∈ ns) :
    n.subnodes ⊆ subnodesAll ns := by
  induction ns with
  | nil => exact absurd h List.not_mem_nil
  | cons m ns ih =>
    rw [subnodesAll]
    rcases List.mem_cons.mp h with hn | hn
    · rw [hn]
      exact List.subset_append_left _ _
    · exact List.subset_append_of_subset_right _ (ih hn)

/-- The nodes of a node below another one are among those of the latter, if
they are among the nodes below it. -/
theorem subnodes_subset_cons {m n : Node} {below : List Node} (hn : n.subnodes = n :: below)
    (hbelow : m ∈ below → m.subnodes ⊆ below) (h : m ∈ n.subnodes) :
    m.subnodes ⊆ n.subnodes := by
  rw [hn, List.mem_cons] at h
  rcases h with hself | h
  · rw [hself]
    exact List.Subset.refl _
  · rw [hn]
    exact List.subset_cons_of_subset _ (hbelow h)

mutual

/-- The nodes of a node of an expression are nodes of the expression. -/
theorem subnodes_subset_of_mem {m : Node} : ∀ {n : Node}, m ∈ n.subnodes → m.subnodes ⊆ n.subnodes
  | .const v, h => subnodes_subset_cons (by rw [subnodes]) (fun h => absurd h List.not_mem_nil) h
  | .list items, h => subnodes_subset_cons (by rw [subnodes]) subnodesAll_subset_of_mem h
  | .var slot, h => subnodes_subset_cons (by rw [subnodes]) (fun h => absurd h List.not_mem_nil) h
  | .binary op left right site, h => by
    apply subnodes_subset_cons (by rw [subnodes]) _ h
    intro hbelow
    rcases List.mem_append.mp hbelow with hleft | hright
    · exact List.subset_append_of_subset_left _ (subnodes_subset_of_mem hleft)
    · exact List.subset_append_of_subset_right _ (subnodes_subset_of_mem hright)
  | .call target args location, h =>
    subnodes_subset_cons (by rw [subnodes]) subnodesAll_subset_of_mem h
  | .new cls fields, h => subnodes_subset_cons (by rw [subnodes]) subnodesFields_subset_of_mem h
  | .field object name, h =>
    subnodes_subset_cons (by rw [subnodes]) (subnodes_subset_of_mem (n := object)) h

theorem subnodesAll_subset_of_mem {m : Node} :
    ∀ {ns : List Node}, m ∈ subnodesAll ns → m.subnodes ⊆ subnodesAll ns
  | [], h => absurd h List.not_mem_nil
  | n :: ns, h => by
    rw [subnodesAll, List.mem_append] at h
    rw [subnodesAll]
    rcases h with hhead | htail
    · exact List.subset_append_of_subset_left _ (subnodes_subset_of_mem hhead)
    · exact List.subset_append_of_subset_right _ (subnodesAll_subset_of_mem htail)

theorem subnodesFields_subset_of_mem {m : Node} :
    ∀ {ns : List (String × Node)}, m ∈ subnodesFields ns → m.subnodes ⊆ subnodesFields ns
  | [], h => absurd h List.not_mem_nil
  | (_, n) :: ns, h => by
    rw [subnodesFields, List.mem_append] at h
    rw [subnodesFields]
    rcases h with hhead | htail
    · exact List.subset_append_of_subset_left _ (subnodes_subset_of_mem hhead)
    · exact List.subset_append_of_subset_right _ (subnodesFields_subset_of_mem htail)

end

/-! ### Operator nodes with their places -/

mutual

/-- The operators of an expression with the places that their nodes hold, in
the order of `operators`. -/
def sites : Node → List (Operator × Nat)
  | .const _ => []
  | .list items => sitesAll items
  | .var _ => []
  | .binary op left right site => left.sites ++ right.sites ++ [(op, site)]
  | .call _ args _ => sitesAll args
  | .new _ fields => sitesFields fields
  | .field object _ => object.sites

/-- The operators of expressions with their places, from left to right. -/
def sitesAll : List Node → List (Operator × Nat)
  | [] => []
  | n :: ns => n.sites ++ sitesAll ns

/-- The operators of field values with their places, from left to right. -/
def sitesFields : List (String × Node) → List (Operator × Nat)
  | [] => []
  | (_, n) :: ns => n.sites ++ sitesFields ns

end

theorem operatorsAll_append (ns ms : List Node) :
    operatorsAll (ns ++ ms) = operatorsAll ns ++ operatorsAll ms := by
  induction ns with
  | nil => rfl
  | cons n ns ih => rw [List.cons_append, operatorsAll, operatorsAll, ih, List.append_assoc]

theorem sitesAll_append (ns ms : List Node) :
    sitesAll (ns ++ ms) = sitesAll ns ++ sitesAll ms := by
  induction ns with
  | nil => rfl
  | cons n ns ih => rw [List.cons_append, sitesAll, sitesAll, ih, List.append_assoc]

theorem builtinsAll_append (ns ms : List Node) :
    builtinsAll (ns ++ ms) = builtinsAll ns ++ builtinsAll ms := by
  induction ns with
  | nil => rfl
  | cons n ns ih => rw [List.cons_append, builtinsAll, builtinsAll, ih, List.append_assoc]

/-! ### What a node holds, the tree holds -/

/-- The nodes with state among those of one expression are among those of
others. -/
structure Within (m : Node) (sites : List (Operator × Nat)) (builtins : List Builtin.Entry) :
    Prop where
  sites : m.sites ⊆ sites
  builtins : m.builtins ⊆ builtins

namespace Within

variable {m : Node} {sites sites' : List (Operator × Nat)}
  {builtins builtins' : List Builtin.Entry}

theorem refl (m : Node) : m.Within m.sites m.builtins :=
  ⟨List.Subset.refl _, List.Subset.refl _⟩

theorem append_left (h : m.Within sites builtins) :
    m.Within (sites ++ sites') (builtins ++ builtins') :=
  ⟨List.subset_append_of_subset_left _ h.sites, List.subset_append_of_subset_left _ h.builtins⟩

theorem append_right (h : m.Within sites' builtins') :
    m.Within (sites ++ sites') (builtins ++ builtins') :=
  ⟨List.subset_append_of_subset_right _ h.sites, List.subset_append_of_subset_right _ h.builtins⟩

end Within

mutual

theorem within_of_mem {m : Node} : ∀ {n : Node}, m ∈ n.subnodes → m.Within n.sites n.builtins
  | .const v, h => by
    rw [subnodes, List.mem_singleton] at h
    exact h ▸ .refl m
  | .list items, h => by
    rw [subnodes, List.mem_cons] at h
    rcases h with h | h
    · exact h ▸ .refl m
    · exact withinAll_of_mem h
  | .var slot, h => by
    rw [subnodes, List.mem_singleton] at h
    exact h ▸ .refl m
  | .binary op left right site, h => by
    rw [subnodes, List.mem_cons, List.mem_append] at h
    rcases h with h | h
    · exact h ▸ .refl m
    -- the node itself adds its place after those of its operands
    · have hoperands : m.Within (left.sites ++ right.sites) (left.builtins ++ right.builtins) :=
        h.elim (fun h => (within_of_mem h).append_left) fun h => (within_of_mem h).append_right
      exact ⟨List.subset_append_of_subset_left _ hoperands.sites, hoperands.builtins⟩
  | .call target args location, h => by
    rw [subnodes, List.mem_cons] at h
    rcases h with h | h
    · exact h ▸ .refl m
    · have hargs := withinAll_of_mem h
      exact ⟨hargs.sites, List.subset_append_of_subset_left _ hargs.builtins⟩
  | .new cls fields, h => by
    rw [subnodes, List.mem_cons] at h
    rcases h with h | h
    · exact h ▸ .refl m
    · exact withinFields_of_mem h
  | .field object name, h => by
    rw [subnodes, List.mem_cons] at h
    rcases h with h | h
    · exact h ▸ .refl m
    · exact within_of_mem (n := object) h

theorem withinAll_of_mem {m : Node} :
    ∀ {ns : List Node}, m ∈ subnodesAll ns → m.Within (sitesAll ns) (builtinsAll ns)
  | [], h => absurd h List.not_mem_nil
  | n :: ns, h => by
    rw [subnodesAll, List.mem_append] at h
    exact h.elim (fun h => (within_of_mem h).append_left) fun h => (withinAll_of_mem h).append_right

theorem withinFields_of_mem {m : Node} :
    ∀ {ns : List (String × Node)},
      m ∈ subnodesFields ns → m.Within (sitesFields ns) (builtinsFields ns)
  | [], h => absurd h List.not_mem_nil
  | (_, n) :: ns, h => by
    rw [subnodesFields, List.mem_append] at h
    exact h.elim (fun h => (within_of_mem h).append_left)
      fun h => (withinFields_of_mem h).append_right

end

end Node

namespace LinkedFunction

/-- All nodes of the body. -/
def subnodes (f : LinkedFunction) : List Node := Node.subnodesAll f.nodes

/-- The nodes of a statement of the body are nodes of the function. -/
theorem subnodes_subset {f : LinkedFunction} {stmt : StmtNode} {n : Node} (hstmt : stmt ∈ f.body)
    (hn : n ∈ stmt.nodes) : n.subnodes ⊆ f.subnodes :=
  Node.subnodesAll_subset (List.mem_flatMap.mpr ⟨stmt, hstmt, hn⟩)

/-- The nodes of a linked function are in their places: operator nodes are
numbered in order, and builtins are declared. -/
structure Placed (registry : Registry) (f : LinkedFunction) : Prop where
  places : Node.sitesAll f.nodes = f.operators.zipIdx
  declared : ∀ entry ∈ f.builtins, entry ∈ registry.entries

namespace Placed

variable {registry : Registry} {f : LinkedFunction}

/-- An operator node holds the place of its operator. -/
theorem operator_at (hf : f.Placed registry) {op : Operator} {left right : Node} {site : Nat}
    (h : .binary op left right site ∈ f.subnodes) : f.operators[site]? = some op := by
  have hself : (op, site) ∈ (Node.binary op left right site).sites := by simp [Node.sites]
  have hmem : (op, site) ∈ Node.sitesAll f.nodes := (Node.withinAll_of_mem h).sites hself
  rw [hf.places] at hmem
  exact List.mk_mem_zipIdx_iff_getElem?.mp hmem

/-- A call of a builtin invokes a declaration of the registry. -/
theorem builtin_declared (hf : f.Placed registry) {entry : Builtin.Entry} {inst : Nat}
    {args : List Node} {location : Location}
    (h : .call (.builtin entry inst) args location ∈ f.subnodes) : entry ∈ registry.entries := by
  have hself : entry ∈ (Node.call (.builtin entry inst) args location).builtins := by
    simp [Node.builtins, Node.builtinOf]
  exact hf.declared entry ((Node.withinAll_of_mem h).builtins hself)

end Placed

end LinkedFunction

/-- The function of a key. -/
def LinkedProgram.at? (p : LinkedProgram) : FunctionKey → Option LinkedFunction
  | .user index => p.functions[index]?
  | .main => some p.main

/-! ### What linking yields -/

namespace Link

variable {α β : Type} {scope : Scope} {f : FunctionDef} {s : State}

/-- A sequence succeeds only through its first step. -/
theorem bind_eq_ok {x : Except LinkError α} {k : α → Except LinkError β} {b : β} :
    (x >>= k) = .ok b ↔ ∃ a, x = .ok a ∧ k a = .ok b := by
  cases x with
  | error e => simp [bind, Except.bind]
  | ok a => simp [bind, Except.bind]

/-- If the linking step succeeds, its result and its last state are as
described. -/
def Yields (m : Linker α) (s : State) (post : α → State → Prop) : Prop :=
  ∀ a s', m.run s = .ok (a, s') → post a s'

theorem Yields.pure {post : α → State → Prop} {a : α} (h : post a s) :
    Yields (pure a) s post := by
  intro a' s' hrun
  cases hrun
  exact h

theorem Yields.bind {m : Linker α} {k : α → Linker β} {mid : α → State → Prop}
    {post : β → State → Prop} (hm : Yields m s mid)
    (hk : ∀ a s', mid a s' → Yields (k a) s' post) : Yields (m >>= k) s post := by
  intro b s'' hrun
  rw [StateT.run_bind] at hrun
  obtain ⟨out, hout, hrest⟩ := bind_eq_ok.mp hrun
  exact hk out.1 out.2 (hm out.1 out.2 hout) b s'' hrest

/-- A step that first looks at the state. -/
theorem Yields.look {k : State → Linker α} {post : α → State → Prop} (h : Yields (k s) s post) :
    Yields (get >>= k) s post := h

theorem Yields.set {s' : State} {post : PUnit → State → Prop} (h : post ⟨⟩ s') :
    Yields (set s') s post := by
  intro a s'' hrun
  cases hrun
  exact h

theorem Yields.invalid (kind : IdKind) (id : Nat) {post : α → State → Prop} :
    Yields (invalid f kind id) s post := by
  intro a s' hrun
  cases hrun

/-- A step that hands out no place. -/
def Still (m : Linker α) : Prop := ∀ s, Yields m s fun _ s' => s'.siteCount = s.siteCount

theorem checkSlot_still (slot : Nat) : Still (checkSlot f slot) := by
  intro s
  unfold checkSlot
  split
  · exact .pure rfl
  · exact .invalid _ _

theorem claimSite_still (id : Nat) : Still (claimSite f id) := by
  intro s
  refine .look ?_
  split
  · exact .set rfl
  · exact .invalid _ _

theorem claimCall_still (id : Nat) : Still (claimCall f id) := by
  intro s
  refine .look ?_
  split
  · exact .set rfl
  · exact .invalid _ _

theorem internClass_still (name : String) : Still (internClass scope name) := by
  intro s
  refine .look ?_
  split
  · exact .pure rfl
  · exact Yields.bind (.set rfl) fun _ _ h => .pure h

theorem target_yields (callee : Callee) : Yields (target callee) s fun t s' =>
    s'.siteCount = s.siteCount ∧ ∀ entry inst, t = .builtin entry inst → callee = .builtin entry := by
  cases callee with
  | user index => exact .pure ⟨rfl, by simp⟩
  | builtin entry =>
    refine .look (Yields.bind (.set rfl) fun _ s' h => .pure ⟨h, ?_⟩)
    intro entry' inst ht
    cases ht
    rfl

theorem nextSite_yields : Yields nextSite s fun site s' =>
    site = s.siteCount ∧ s'.siteCount = s.siteCount + 1 :=
  .look (Yields.bind (.set rfl) fun _ _ h => .pure ⟨rfl, h⟩)

/-- A name that stands for a builtin stands for a declaration of the
registry. -/
theorem resolve_yields (name : String) :
    Yields (liftM (scope.resolve name) : Linker Callee) s fun callee s' =>
      s' = s ∧ ∀ entry, callee = .builtin entry → entry ∈ scope.registry.entries := by
  unfold Scope.resolve Registry.resolve Registry.get?
  intro callee s' hrun
  split at hrun
  · cases hrun
    exact ⟨rfl, by simp⟩
  · split at hrun
    case h_1 entry hentry =>
      cases hrun
      refine ⟨rfl, fun entry' h => ?_⟩
      cases h
      exact List.mem_of_find?_eq_some hentry
    case h_2 => cases hrun

/-! ### The invariant of the traversal -/

/-- What stands between two states of the linker: operators that hold the
places between their counts, and builtins of the registry. -/
structure Laid (scope : Scope) (s : State) (operators : List Operator)
    (sites : List (Operator × Nat)) (builtins : List Builtin.Entry) (s' : State) : Prop where
  count : s'.siteCount = s.siteCount + operators.length
  places : sites = operators.zipIdx s.siteCount
  declared : ∀ entry ∈ builtins, entry ∈ scope.registry.entries

/-- Nothing was linked. -/
theorem Laid.nil {s s' : State} (h : s'.siteCount = s.siteCount) : Laid scope s [] [] [] s' :=
  ⟨h, rfl, by simp⟩

theorem Laid.append {s₀ s₁ s₂ : State} {ops ops' : List Operator}
    {sites sites' : List (Operator × Nat)} {entries entries' : List Builtin.Entry}
    (h : Laid scope s₀ ops sites entries s₁) (h' : Laid scope s₁ ops' sites' entries' s₂) :
    Laid scope s₀ (ops ++ ops') (sites ++ sites') (entries ++ entries') s₂ where
  count := by rw [h'.count, h.count, List.length_append, Nat.add_assoc]
  places := by rw [h.places, h'.places, h.count, List.zipIdx_append]
  declared entry hentry := (List.mem_append.mp hentry).elim (h.declared entry) (h'.declared entry)

/-- Only the count of places matters of the state before. -/
theorem Laid.of_still {s₀ s₁ s₂ : State} {ops : List Operator} {sites : List (Operator × Nat)}
    {entries : List Builtin.Entry} (h : s₁.siteCount = s₀.siteCount)
    (h' : Laid scope s₁ ops sites entries s₂) : Laid scope s₀ ops sites entries s₂ := by
  have hnone : Laid scope s₀ [] [] [] s₁ := .nil h
  exact hnone.append h'

/-- Expressions were linked between two states. -/
def LaidAll (scope : Scope) (s : State) (ns : List Node) (s' : State) : Prop :=
  Laid scope s (Node.operatorsAll ns) (Node.sitesAll ns) (Node.builtinsAll ns) s'

mutual

theorem expr_laid (scope : Scope) (f : FunctionDef) : ∀ (e : Expr Nat) (s : State),
    Yields (expr scope f e) s fun n s' => Laid scope s n.operators n.sites n.builtins s'
  | .lit value, s => by
    rw [expr]
    exact .pure (.nil rfl)
  | .list items, s => by
    rw [expr]
    exact (exprs_laid scope f items s).bind fun ns s' h => .pure h
  | .var slot, s => by
    rw [expr]
    exact (checkSlot_still slot s).bind fun _ s' h => .pure (.nil h)
  | .binary op left right id, s => by
    rw [expr]
    refine (claimSite_still id s).bind fun _ s₀ h₀ => ?_
    refine (expr_laid scope f left s₀).bind fun l s₁ hl => ?_
    refine (expr_laid scope f right s₁).bind fun r s₂ hr => ?_
    refine nextSite_yields.bind fun site s₃ h₃ => .pure ?_
    obtain ⟨hsite, hcount⟩ := h₃
    -- the node's own place is the one after those of its operands
    have hself : Laid scope s₂ [op] [(op, site)] [] s₃ := ⟨hcount, by simp [hsite], by simp⟩
    have hall := Laid.of_still h₀ ((hl.append hr).append hself)
    rwa [List.append_nil] at hall
  | .call callee args id location, s => by
    rw [expr]
    refine (claimCall_still id s).bind fun _ s₀ h₀ => ?_
    refine (resolve_yields callee).bind fun resolved s₁ h₁ => ?_
    obtain ⟨hs₁, hdeclared⟩ := h₁
    subst hs₁
    -- the name is resolved before the arguments are linked, the target made after them
    refine (exprs_laid scope f args s₁).bind fun ns s₂ hargs => ?_
    refine (target_yields resolved).bind fun t s₃ h₃ => .pure ?_
    obtain ⟨hcount, htarget⟩ := h₃
    have hself : Laid scope s₂ [] [] (Node.builtinOf t) s₃ := by
      refine ⟨hcount, rfl, ?_⟩
      cases t with
      | user index => exact fun entry h => absurd h List.not_mem_nil
      | builtin entry inst =>
        intro entry' h
        rw [Node.builtinOf, List.mem_singleton] at h
        exact h ▸ hdeclared entry (htarget entry inst rfl)
    have hall := Laid.of_still h₀ (hargs.append hself)
    rwa [List.append_nil, List.append_nil] at hall
  | .functionRef name, s => by
    rw [expr]
    refine (resolve_yields name).bind fun resolved s' h => ?_
    cases resolved <;> exact .pure (.nil (by rw [h.1]))
  | .new cls values, s => by
    rw [expr]
    refine (internClass_still cls s).bind fun _ s₀ h₀ => ?_
    exact (fields_laid scope f values s₀).bind fun ns s' h => .pure (.of_still h₀ h)
  | .field object name, s => by
    rw [expr]
    exact (expr_laid scope f object s).bind fun n s' h => .pure h

theorem exprs_laid (scope : Scope) (f : FunctionDef) : ∀ (es : List (Expr Nat)) (s : State),
    Yields (exprs scope f es) s fun ns s' => LaidAll scope s ns s'
  | [], s => by
    rw [exprs]
    exact .pure (.nil rfl)
  | e :: es, s => by
    rw [exprs]
    refine (expr_laid scope f e s).bind fun n s₁ hn => ?_
    exact (exprs_laid scope f es s₁).bind fun ns s₂ hns => .pure (hn.append hns)

theorem fields_laid (scope : Scope) (f : FunctionDef) :
    ∀ (es : List (String × Expr Nat)) (s : State), Yields (fields scope f es) s fun ns s' =>
      Laid scope s (Node.operatorsFields ns) (Node.sitesFields ns) (Node.builtinsFields ns) s'
  | [], s => by
    rw [fields]
    exact .pure (.nil rfl)
  | (name, e) :: es, s => by
    rw [fields]
    refine (expr_laid scope f e s).bind fun n s₁ hn => ?_
    exact (fields_laid scope f es s₁).bind fun ns s₂ hns => .pure (hn.append hns)

end

theorem LaidAll.single {s s' : State} {n : Node}
    (h : Laid scope s n.operators n.sites n.builtins s') : LaidAll scope s [n] s' := by
  have hall := h.append (Laid.nil rfl)
  exact hall

theorem LaidAll.append {s₀ s₁ s₂ : State} {ns ms : List Node} (h : LaidAll scope s₀ ns s₁)
    (h' : LaidAll scope s₁ ms s₂) : LaidAll scope s₀ (ns ++ ms) s₂ := by
  unfold LaidAll
  rw [Node.operatorsAll_append, Node.sitesAll_append, Node.builtinsAll_append]
  exact Laid.append h h'

theorem stmt_laid (stmt : Stmt Nat) (s : State) :
    Yields (Link.stmt scope f stmt) s fun node s' => LaidAll scope s node.nodes s' := by
  cases stmt with
  | expr e => exact (expr_laid scope f e s).bind fun n s' h => .pure (.single h)
  | assign slot value =>
    refine (checkSlot_still slot s).bind fun _ s₀ h₀ => ?_
    exact (expr_laid scope f value s₀).bind fun n s' h => .pure (.single (.of_still h₀ h))
  | setField object name value =>
    refine (expr_laid scope f object s).bind fun n s₁ hn => ?_
    refine (expr_laid scope f value s₁).bind fun m s₂ hm => .pure ?_
    exact (LaidAll.single hn).append (.single hm)
  | ret value =>
    cases value with
    | none => exact .pure (.nil rfl)
    | some value => exact (expr_laid scope f value s).bind fun n s' h => .pure (.single h)
  | raise value location => exact (expr_laid scope f value s).bind fun n s' h => .pure (.single h)

theorem stmts_laid (ss : List (Stmt Nat)) (s : State) :
    Yields (stmts scope f ss) s fun nodes s' => LaidAll scope s (nodes.flatMap (·.nodes)) s' := by
  induction ss generalizing s with
  | nil => exact .pure (.nil rfl)
  | cons stmt ss ih =>
    refine (stmt_laid stmt s).bind fun node s₁ hnode => ?_
    refine (ih s₁).bind fun nodes s₂ hnodes => .pure ?_
    rw [List.flatMap_cons]
    exact hnode.append hnodes

theorem checkSlots_still (slots : List Nat) : Still (checkSlots f slots) := by
  induction slots with
  | nil => exact fun s => .pure rfl
  | cons slot slots ih =>
    intro s
    refine (checkSlot_still slot s).bind fun _ s₁ h₁ => ?_
    intro a s₂ hrun
    rw [ih s₁ a s₂ hrun, h₁]

/-! ### Functions and programs -/

theorem function_placed {classes : List ClassRef} {out : LinkedFunction × List ClassRef}
    (h : function scope f classes = .ok out) : out.1.Placed scope.registry := by
  have hbody : Yields (do checkSlots f f.params; stmts scope f f.body : Linker _) { classes }
      fun nodes s' => LaidAll scope { classes } (nodes.flatMap (·.nodes)) s' := by
    refine (checkSlots_still f.params _).bind fun _ s₀ h₀ => ?_
    exact fun nodes s' hrun => Laid.of_still h₀ (stmts_laid f.body s₀ nodes s' hrun)
  obtain ⟨linked, hrun, hout⟩ := bind_eq_ok.mp h
  cases hout
  -- every function starts to count at zero, so its places are those of `zipIdx`
  have hlaid := hbody linked.1 linked.2 hrun
  exact ⟨hlaid.places, hlaid.declared⟩

theorem functions_placed {fs : List FunctionDef} {classes : List ClassRef}
    {out : List LinkedFunction × List ClassRef} (h : functions scope fs classes = .ok out) :
    ∀ g ∈ out.1, g.Placed scope.registry := by
  induction fs generalizing classes out with
  | nil =>
    cases h
    exact fun g hg => absurd hg List.not_mem_nil
  | cons f fs ih =>
    obtain ⟨linked, hf, hrest⟩ := bind_eq_ok.mp h
    obtain ⟨rest, hfs, hout⟩ := bind_eq_ok.mp hrest
    cases hout
    intro g hg
    rcases List.mem_cons.mp hg with hg | hg
    · exact hg ▸ function_placed hf
    · exact ih hfs g hg

end Link

/-- Every function of a program that was linked has its nodes in their
places. -/
theorem Program.linkFrom_placed {firstClass : Nat} {p : Program} {registry : Registry}
    {linked : LinkedProgram} (h : p.linkFrom firstClass registry = .ok linked) {key : FunctionKey}
    {f : LinkedFunction} (hf : linked.at? key = some f) : f.Placed registry := by
  rw [Program.linkFrom_eq] at h
  -- the check of the names is behind us; what is left are the functions and main
  obtain ⟨-, -, h⟩ := Link.bind_eq_ok.mp h
  obtain ⟨out, hfunctions, h⟩ := Link.bind_eq_ok.mp h
  obtain ⟨main, hmain, hout⟩ := Link.bind_eq_ok.mp h
  cases hout
  cases key with
  | user index =>
    have hmem : f ∈ out.1 := by
      simp only [LinkedProgram.at?, List.getElem?_toArray] at hf
      exact List.mem_of_getElem? hf
    exact Link.functions_placed hfunctions f hmem
  | main =>
    cases hf
    exact Link.function_placed hmain

end AdaptiveScript
