import AdaptiveScript.Proofs.Linked.Places

/-! # The References of a Linked Program

  Linking refuses a slot that is not declared and a name that stands for
  nothing. In the program that it yields, every reference therefore stands
  for something (`LinkedFunction.Scoped`): a slot is one of the function's
  locals, and a call of a function is a call of one of the program's. A
  constant is a literal or the name of a callable, so no node brings an
  object along.

  The checks are made node by node, so what the traversal carries is a fact
  about all nodes that it has linked (`Link.expr_refers`).
-/

namespace AdaptiveScript

/-! ### What a node refers to -/

/-- A literal, or the name of a function or a builtin. -/
def Value.IsConstant (v : Value) : Prop :=
  (∃ literal : Literal, v = literal.toValue) ∨ ∃ name builtin, v = .callable name builtin

/-- The reference of a single node is in order, in a function with so many
slots and a program with so many functions. -/
def Node.Refers (slots functions : Nat) : Node → Prop
  | .const v => v.IsConstant
  | .var slot => slot < slots
  | .call (.user index) _ _ => index < functions
  | _ => True

/-- All references of a linked function are in order, in a program with so
many functions. -/
structure LinkedFunction.Scoped (functions : Nat) (f : LinkedFunction) : Prop where
  params : ∀ slot ∈ f.params, slot < f.locals.length
  assigned : ∀ slot value, .assign slot value ∈ f.body → slot < f.locals.length
  nodes : ∀ n ∈ f.subnodes, n.Refers f.locals.length functions

/-- All references of a linked program are in order. -/
def LinkedProgram.Scoped (program : LinkedProgram) : Prop :=
  ∀ ⦃key f⦄, program.at? key = some f → f.Scoped program.functions.size

theorem Node.exists_of_mem_subnodesAll {m : Node} {ns : List Node}
    (h : m ∈ Node.subnodesAll ns) : ∃ n ∈ ns, m ∈ n.subnodes := by
  induction ns with
  | nil => exact absurd h List.not_mem_nil
  | cons n ns ih =>
    rw [Node.subnodesAll, List.mem_append] at h
    rcases h with hhead | htail
    · exact ⟨n, List.mem_cons_self, hhead⟩
    · obtain ⟨n', hn', hm⟩ := ih htail
      exact ⟨n', List.mem_cons_of_mem _ hn', hm⟩

/-- A node of a function stands in a statement of its body. -/
theorem LinkedFunction.exists_stmt_of_mem {f : LinkedFunction} {m : Node} (h : m ∈ f.subnodes) :
    ∃ stmt ∈ f.body, m ∈ Node.subnodesAll stmt.nodes := by
  obtain ⟨n, hn, hm⟩ := Node.exists_of_mem_subnodesAll h
  obtain ⟨stmt, hstmt, hnode⟩ := List.mem_flatMap.mp hn
  exact ⟨stmt, hstmt, Node.subnodesAll_subset hnode hm⟩

namespace Link

variable {scope : Scope} {f : FunctionDef} {s : State}

/-! ### Single steps -/

theorem Yields.trivial {α : Type} (m : Linker α) (s : State) : Yields m s fun _ _ => True :=
  fun _ _ _ => True.intro

theorem checkSlot_yields (slot : Nat) :
    Yields (checkSlot f slot) s fun _ _ => slot < f.locals.length := by
  unfold checkSlot
  by_cases hslot : slot < f.locals.length
  · rw [if_pos hslot]
    exact .pure hslot
  · rw [if_neg hslot]
    exact .invalid _ _

/-- A name that stands for a function of the program stands for one that it
has. -/
theorem resolve_user (name : String) :
    Yields (liftM (scope.resolve name) : Linker Callee) s fun callee _ =>
      ∀ index, callee = .user index → index < scope.functions.length := by
  unfold Scope.resolve
  intro callee s' hrun index hcallee
  split at hrun
  case h_1 found hfound =>
    cases hrun
    cases hcallee
    obtain ⟨hlt, -⟩ := List.findIdx?_eq_some_iff_getElem.mp hfound
    exact hlt
  case h_2 =>
    subst hcallee
    unfold Registry.resolve at hrun
    split at hrun <;> cases hrun

/-- Only a function of the program becomes a target of that kind. -/
theorem target_user (callee : Callee) :
    Yields (target callee) s fun t _ => ∀ index, t = .user index → callee = .user index := by
  cases callee with
  | user index =>
    refine .pure fun index' h => ?_
    cases h
    rfl
  | builtin entry =>
    refine .look (Yields.bind (.trivial _ _) fun _ _ _ => .pure fun index h => ?_)
    cases h

/-! ### Expressions and statements -/

/-- All nodes of a list are in order. -/
def RefersAll (scope : Scope) (f : FunctionDef) (ns : List Node) : Prop :=
  ∀ n ∈ ns, n.Refers f.locals.length scope.functions.length

theorem RefersAll.cons {n : Node} {ns : List Node}
    (hn : n.Refers f.locals.length scope.functions.length) (hns : RefersAll scope f ns) :
    RefersAll scope f (n :: ns) := by
  intro m hm
  rcases List.mem_cons.mp hm with hself | hbelow
  · rw [hself]
    exact hn
  · exact hns m hbelow

theorem RefersAll.append {ns ms : List Node} (hns : RefersAll scope f ns)
    (hms : RefersAll scope f ms) : RefersAll scope f (ns ++ ms) := by
  intro m hm
  rcases List.mem_append.mp hm with hleft | hright
  · exact hns m hleft
  · exact hms m hright

theorem RefersAll.nil : RefersAll scope f [] := fun _ h => absurd h List.not_mem_nil

mutual

theorem expr_refers (scope : Scope) (f : FunctionDef) : ∀ (e : Expr Nat) (s : State),
    Yields (expr scope f e) s fun n _ => RefersAll scope f n.subnodes
  | .lit value, s => by
    rw [expr]
    exact .pure (.cons (.inl ⟨value, rfl⟩) .nil)
  | .list items, s => by
    rw [expr]
    exact (exprs_refers scope f items s).bind fun ns _ h => .pure (.cons True.intro h)
  | .var slot, s => by
    rw [expr]
    exact (checkSlot_yields slot).bind fun _ _ h => .pure (.cons h .nil)
  | .binary op left right id, s => by
    rw [expr]
    refine (Yields.trivial _ s).bind fun _ s₀ _ => ?_
    refine (expr_refers scope f left s₀).bind fun l s₁ hl => ?_
    refine (expr_refers scope f right s₁).bind fun r s₂ hr => ?_
    exact (Yields.trivial _ s₂).bind fun _ _ _ => .pure (.cons True.intro (hl.append hr))
  | .call callee args id location, s => by
    rw [expr]
    refine (Yields.trivial _ s).bind fun _ s₀ _ => ?_
    refine (resolve_user callee).bind fun resolved s₁ hresolved => ?_
    refine (exprs_refers scope f args s₁).bind fun ns s₂ hargs => ?_
    refine (target_user resolved).bind fun t s₃ ht => .pure (.cons ?_ hargs)
    cases t with
    | user index => exact hresolved index (ht index rfl)
    | builtin entry inst => exact True.intro
  | .functionRef name, s => by
    rw [expr]
    refine (Yields.trivial _ s).bind fun resolved s₀ _ => ?_
    cases resolved <;> exact .pure (.cons (.inr ⟨name, _, rfl⟩) .nil)
  | .new cls values, s => by
    rw [expr]
    refine (Yields.trivial _ s).bind fun _ s₀ _ => ?_
    exact (fields_refers scope f values s₀).bind fun ns _ h => .pure (.cons True.intro h)
  | .field object name, s => by
    rw [expr]
    exact (expr_refers scope f object s).bind fun n _ h => .pure (.cons True.intro h)

theorem exprs_refers (scope : Scope) (f : FunctionDef) : ∀ (es : List (Expr Nat)) (s : State),
    Yields (exprs scope f es) s fun ns _ => RefersAll scope f (Node.subnodesAll ns)
  | [], s => by
    rw [exprs]
    exact .pure .nil
  | e :: es, s => by
    rw [exprs]
    refine (expr_refers scope f e s).bind fun n s₁ hn => ?_
    exact (exprs_refers scope f es s₁).bind fun ns _ hns => .pure (hn.append hns)

theorem fields_refers (scope : Scope) (f : FunctionDef) :
    ∀ (es : List (String × Expr Nat)) (s : State),
    Yields (fields scope f es) s fun ns _ => RefersAll scope f (Node.subnodesFields ns)
  | [], s => by
    rw [fields]
    exact .pure .nil
  | (name, e) :: es, s => by
    rw [fields]
    refine (expr_refers scope f e s).bind fun n s₁ hn => ?_
    exact (fields_refers scope f es s₁).bind fun ns _ hns => .pure (hn.append hns)

end

/-- The references of a statement are in order: the slot that it assigns, and
those of its nodes. -/
structure StmtRefers (scope : Scope) (f : FunctionDef) (stmt : StmtNode) : Prop where
  assigned : ∀ slot value, stmt = .assign slot value → slot < f.locals.length
  nodes : RefersAll scope f (Node.subnodesAll stmt.nodes)

theorem RefersAll.single {n : Node} (h : RefersAll scope f n.subnodes) :
    RefersAll scope f (Node.subnodesAll [n]) := by
  rw [Node.subnodesAll, Node.subnodesAll, List.append_nil]
  exact h

theorem stmt_refers (stmt : Stmt Nat) (s : State) :
    Yields (Link.stmt scope f stmt) s fun node _ => StmtRefers scope f node := by
  -- a statement that assigns nothing is in order when its nodes are
  have hquiet : ∀ {node : StmtNode}, (∀ slot value, node ≠ .assign slot value) →
      RefersAll scope f (Node.subnodesAll node.nodes) → StmtRefers scope f node :=
    fun hne hnodes => ⟨fun slot value h => absurd h (hne slot value), hnodes⟩
  cases stmt with
  | expr e =>
    exact (expr_refers scope f e s).bind fun n _ h => .pure (hquiet (by simp) (.single h))
  | assign slot value =>
    refine (checkSlot_yields slot).bind fun _ s₀ hslot => ?_
    refine (expr_refers scope f value s₀).bind fun n _ h => .pure ⟨?_, .single h⟩
    intro slot' value' hassign
    cases hassign
    exact hslot
  | setField object name value =>
    refine (expr_refers scope f object s).bind fun n s₁ hn => ?_
    refine (expr_refers scope f value s₁).bind fun m _ hm => .pure (hquiet (by simp) ?_)
    exact hn.append (.single hm)
  | ret value =>
    cases value with
    | none => exact .pure (hquiet (by simp) .nil)
    | some value =>
      exact (expr_refers scope f value s).bind fun n _ h => .pure (hquiet (by simp) (.single h))
  | raise value location =>
    exact (expr_refers scope f value s).bind fun n _ h => .pure (hquiet (by simp) (.single h))

theorem stmts_refers (ss : List (Stmt Nat)) (s : State) :
    Yields (stmts scope f ss) s fun nodes _ => ∀ node ∈ nodes, StmtRefers scope f node := by
  induction ss generalizing s with
  | nil => exact .pure fun node h => absurd h List.not_mem_nil
  | cons stmt ss ih =>
    refine (stmt_refers stmt s).bind fun node s₁ hnode => ?_
    refine (ih s₁).bind fun nodes _ hnodes => .pure ?_
    intro node' hmem
    rcases List.mem_cons.mp hmem with hhead | htail
    · rw [hhead]
      exact hnode
    · exact hnodes node' htail

theorem checkSlots_yields (slots : List Nat) (s : State) :
    Yields (checkSlots f slots) s fun _ _ => ∀ slot ∈ slots, slot < f.locals.length := by
  induction slots generalizing s with
  | nil => exact .pure fun slot h => absurd h List.not_mem_nil
  | cons slot slots ih =>
    refine (checkSlot_yields slot).bind fun _ s₁ hslot => ?_
    intro a s₂ hrun slot' hmem
    rcases List.mem_cons.mp hmem with hhead | htail
    · rw [hhead]
      exact hslot
    · exact ih s₁ a s₂ hrun slot' htail

/-! ### Functions and programs -/

theorem function_scoped {classes : List ClassRef} {out : LinkedFunction × List ClassRef}
    (h : function scope f classes = .ok out) : out.1.Scoped scope.functions.length := by
  have hbody : Yields (do checkSlots f f.params; stmts scope f f.body : Linker _) { classes }
      fun nodes _ => (∀ slot ∈ f.params, slot < f.locals.length) ∧
        ∀ node ∈ nodes, StmtRefers scope f node := by
    refine (checkSlots_yields f.params _).bind fun _ s₀ hparams => ?_
    exact fun nodes s' hrun => ⟨hparams, stmts_refers f.body s₀ nodes s' hrun⟩
  obtain ⟨linked, hrun, hout⟩ := bind_eq_ok.mp h
  cases hout
  obtain ⟨hparams, hstmts⟩ := hbody linked.1 linked.2 hrun
  refine ⟨hparams, ?_, ?_⟩
  · intro slot value hassign
    exact (hstmts _ hassign).assigned slot value rfl
  · intro n hn
    obtain ⟨stmt, hstmt, hnode⟩ := LinkedFunction.exists_stmt_of_mem hn
    exact (hstmts stmt hstmt).nodes n hnode

theorem functions_scoped {fs : List FunctionDef} {classes : List ClassRef}
    {out : List LinkedFunction × List ClassRef} (h : functions scope fs classes = .ok out) :
    out.1.length = fs.length ∧ ∀ g ∈ out.1, g.Scoped scope.functions.length := by
  induction fs generalizing classes out with
  | nil =>
    cases h
    exact ⟨rfl, fun g hg => absurd hg List.not_mem_nil⟩
  | cons f fs ih =>
    obtain ⟨linked, hf, hrest⟩ := bind_eq_ok.mp h
    obtain ⟨rest, hfs, hout⟩ := bind_eq_ok.mp hrest
    cases hout
    obtain ⟨hlength, hscoped⟩ := ih hfs
    refine ⟨by rw [List.length_cons, List.length_cons, hlength], ?_⟩
    intro g hg
    rcases List.mem_cons.mp hg with hhead | htail
    · rw [hhead]
      exact function_scoped hf
    · exact hscoped g htail

end Link

/-- All references of a program that was linked are in order. -/
theorem Program.linkFrom_scoped {firstClass : Nat} {p : Program} {registry : Registry}
    {linked : LinkedProgram} (h : p.linkFrom firstClass registry = .ok linked) :
    linked.Scoped := by
  rw [Program.linkFrom_eq] at h
  obtain ⟨-, -, h⟩ := Link.bind_eq_ok.mp h
  obtain ⟨out, hfunctions, h⟩ := Link.bind_eq_ok.mp h
  obtain ⟨main, hmain, hout⟩ := Link.bind_eq_ok.mp h
  cases hout
  obtain ⟨hlength, hscoped⟩ := Link.functions_scoped hfunctions
  -- the names that calls are resolved against are those of the linked functions
  have hnames : (p.scope firstClass registry).functions.length = out.1.length := by
    rw [hlength]
    exact List.length_map _
  rw [hnames] at hscoped
  have hmain' := Link.function_scoped hmain
  rw [hnames] at hmain'
  intro key f hf
  cases key with
  | user index =>
    simp only [LinkedProgram.at?, List.getElem?_toArray] at hf
    exact hscoped f (List.mem_of_getElem? hf)
  | main =>
    cases hf
    exact hmain'

end AdaptiveScript
