import AdaptiveScript.Machine.State
import AdaptiveScript.Proofs.Linked.References
import AdaptiveScript.Proofs.Program.Shape
import Mathlib.Data.List.Forall2

/-! # Linking Preserves the Program

  A linked tree holds more than the tree that it was made of: places for the
  state of nodes, positions of functions, declarations of builtins, classes.
  Read back, with names in place of what they were resolved to
  (`Node.readBack?`), it is the original tree, up to the numbers of its nodes.
  Reading back is partial: a constant that no program can write, or a call of
  a function that the program does not have, is read back as nothing, and
  linking yields neither.

  What the names were resolved to is said node by node (`Node.Resolved`): a
  call invokes the function with the name if there is one and the declared
  builtin otherwise, and a reference to a callable says which of the two a
  call would invoke. Both hold of what the traversal has linked so far
  (`Link.Formed`), and the program as a whole is put together from its
  functions (`Program.linkFrom_preserves`).
-/

namespace AdaptiveScript

/-! ### Reading back -/

/-- The expression that a constant of a linked tree was written as. -/
def Value.written? {ι : Type} : Value → Option (Expr ι)
  | .nil => some (.lit .nil)
  | .bool b => some (.lit (.bool b))
  | .int n => some (.lit (.int n))
  | .float x => some (.lit (.float x))
  | .str text => some (.lit (.str text))
  | .callable name _ => some (.functionRef name)
  | .list _ => none
  | .object _ => none

/-- The name that a call target was called by, among functions with the given
names. -/
def CallTarget.name? (names : List String) : CallTarget → Option String
  | .user index => names[index]?
  | .builtin entry _ => some entry.name

namespace Node

mutual

/-- The expression that a node was linked from, with the place of every
operator node as its number, and no numbers of calls. -/
def readBack? (names : List String) : Node → Option (Expr (Option Nat))
  | .const v => v.written?
  | .list items => do return .list (← readBackAll? names items)
  | .var slot => return .var slot
  | .binary op left right site => do
    return .binary op (← left.readBack? names) (← right.readBack? names) (some site)
  | .call target args location => do
    return .call (← target.name? names) (← readBackAll? names args) none location
  | .new cls fields => do return .new cls.name (← readBackFields? names fields)
  | .field object name => do return .field (← object.readBack? names) name

/-- The expressions that nodes were linked from. -/
def readBackAll? (names : List String) : List Node → Option (List (Expr (Option Nat)))
  | [] => return []
  | n :: ns => do return (← n.readBack? names) :: (← readBackAll? names ns)

/-- The field values that nodes were linked from. -/
def readBackFields? (names : List String) :
    List (String × Node) → Option (List (String × Expr (Option Nat)))
  | [] => return []
  | (name, n) :: ns => do return (name, ← n.readBack? names) :: (← readBackFields? names ns)

end

end Node

/-- The statement that a linked one was linked from. -/
def StmtNode.readBack? (names : List String) : StmtNode → Option (Stmt (Option Nat))
  | .expr node => do return .expr (← node.readBack? names)
  | .assign slot value => do return .assign slot (← value.readBack? names)
  | .setField object name value => do
    return .setField (← object.readBack? names) name (← value.readBack? names)
  | .ret none => return .ret none
  | .ret (some value) => do return .ret (some (← value.readBack? names))
  | .raise value location => do return .raise (← value.readBack? names) location

/-- The statements that linked ones were linked from. -/
def StmtNode.readBackAll? (names : List String) :
    List StmtNode → Option (List (Stmt (Option Nat)))
  | [] => return []
  | s :: ss => do return (← s.readBack? names) :: (← readBackAll? names ss)

/-! What was read back has the operators of the tree, each with its place, and
calls without numbers. -/

section

variable {names : List String}

/-- Numbers that were read back from operator nodes with the given places. -/
structure ReadBack (places : List (Operator × Nat)) (sites : List (Operator × Option Nat))
    (calls : List (Option Nat)) : Prop where
  sites : sites = places.map fun x => (x.1, some x.2)
  calls : ∀ id ∈ calls, id = none

theorem ReadBack.nil : ReadBack [] [] [] := ⟨rfl, fun _ h => absurd h List.not_mem_nil⟩

theorem ReadBack.append {places places' : List (Operator × Nat)}
    {sites sites' : List (Operator × Option Nat)} {calls calls' : List (Option Nat)}
    (h : ReadBack places sites calls) (h' : ReadBack places' sites' calls') :
    ReadBack (places ++ places') (sites ++ sites') (calls ++ calls') := by
  refine ⟨?_, ?_⟩
  · rw [List.map_append, h.sites, h'.sites]
  · rw [List.forall_mem_append]
    exact ⟨h.calls, h'.calls⟩

theorem Value.sites_written {v : Value} {e : Expr (Option Nat)} (h : v.written? = some e) :
    ReadBack [] e.sites e.calls := by
  cases v <;> cases h <;> exact .nil

mutual

theorem Node.sites_readBack : ∀ {n : Node} {e : Expr (Option Nat)}, n.readBack? names = some e →
    ReadBack n.sites e.sites e.calls
  | .const v, e, h => Value.sites_written h
  | .list items, e, h => by
    obtain ⟨items', hitems, he⟩ := Option.bind_eq_some_iff.mp h
    cases he
    exact Node.sites_readBackAll hitems
  | .var slot, e, h => by
    cases h
    exact .nil
  | .binary op left right site, e, h => by
    obtain ⟨left', hleft, h⟩ := Option.bind_eq_some_iff.mp h
    obtain ⟨right', hright, he⟩ := Option.bind_eq_some_iff.mp h
    cases he
    have hoperands := (Node.sites_readBack hleft).append (Node.sites_readBack hright)
    have hself : ReadBack [(op, site)] [(op, some site)] [] := ⟨rfl, ReadBack.nil.calls⟩
    simpa only [Node.sites, Expr.sites, Expr.calls, List.append_nil] using hoperands.append hself
  | .call target args location, e, h => by
    obtain ⟨callee, -, h⟩ := Option.bind_eq_some_iff.mp h
    obtain ⟨args', hargs, he⟩ := Option.bind_eq_some_iff.mp h
    cases he
    have hself : ReadBack [] [] [none] := ⟨rfl, fun id hid => List.mem_singleton.mp hid⟩
    simpa only [Node.sites, Expr.sites, Expr.calls, List.append_nil] using
      (Node.sites_readBackAll hargs).append hself
  | .new cls fields, e, h => by
    obtain ⟨fields', hfields, he⟩ := Option.bind_eq_some_iff.mp h
    cases he
    exact Node.sites_readBackFields hfields
  | .field object name, e, h => by
    obtain ⟨object', hobject, he⟩ := Option.bind_eq_some_iff.mp h
    cases he
    rw [Node.sites, Expr.sites, Expr.calls]
    exact Node.sites_readBack hobject

theorem Node.sites_readBackAll : ∀ {ns : List Node} {es : List (Expr (Option Nat))},
    Node.readBackAll? names ns = some es →
    ReadBack (Node.sitesAll ns) (Expr.sitesAll es) (Expr.callsAll es)
  | [], es, h => by
    cases h
    exact .nil
  | n :: ns, es, h => by
    obtain ⟨e, he, h⟩ := Option.bind_eq_some_iff.mp h
    obtain ⟨es', hes, hout⟩ := Option.bind_eq_some_iff.mp h
    cases hout
    exact (Node.sites_readBack he).append (Node.sites_readBackAll hes)

theorem Node.sites_readBackFields :
    ∀ {ns : List (String × Node)} {es : List (String × Expr (Option Nat))},
    Node.readBackFields? names ns = some es →
    ReadBack (Node.sitesFields ns) (Expr.sitesFields es) (Expr.callsFields es)
  | [], es, h => by
    cases h
    exact .nil
  | (name, n) :: ns, es, h => by
    obtain ⟨e, he, h⟩ := Option.bind_eq_some_iff.mp h
    obtain ⟨es', hes, hout⟩ := Option.bind_eq_some_iff.mp h
    cases hout
    exact (Node.sites_readBack he).append (Node.sites_readBackFields hes)

end

/-- The expressions of a statement are read back with it. -/
theorem StmtNode.exprs_readBack {s : StmtNode} {s' : Stmt (Option Nat)}
    (h : s.readBack? names = some s') : Node.readBackAll? names s.nodes = some s'.exprs := by
  -- a statement with one expression reads back as a statement with that one
  have hone : ∀ {n : Node} {e : Expr (Option Nat)}, n.readBack? names = some e →
      Node.readBackAll? names [n] = some [e] := by
    intro n e hn
    rw [Node.readBackAll?, hn]
    rfl
  cases s with
  | expr n =>
    obtain ⟨e, hn, he⟩ := Option.bind_eq_some_iff.mp h
    cases he
    exact hone hn
  | assign slot value =>
    obtain ⟨e, hn, he⟩ := Option.bind_eq_some_iff.mp h
    cases he
    exact hone hn
  | setField object name value =>
    obtain ⟨o, hobject, h⟩ := Option.bind_eq_some_iff.mp h
    obtain ⟨v, hvalue, he⟩ := Option.bind_eq_some_iff.mp h
    cases he
    rw [StmtNode.nodes, Node.readBackAll?, hobject, hone hvalue]
    rfl
  | ret value =>
    cases value with
    | none =>
      cases h
      rfl
    | some value =>
      obtain ⟨e, hn, he⟩ := Option.bind_eq_some_iff.mp h
      cases he
      exact hone hn
  | raise value location =>
    obtain ⟨e, hn, he⟩ := Option.bind_eq_some_iff.mp h
    cases he
    exact hone hn

/-- The operators of a body are read back with their places, in order. -/
theorem StmtNode.sites_readBackAll {body : List StmtNode} {body' : List (Stmt (Option Nat))}
    (h : StmtNode.readBackAll? names body = some body') :
    ReadBack (Node.sitesAll (body.flatMap (·.nodes))) (Stmt.bodySites body')
      (Stmt.bodyCalls body') := by
  induction body generalizing body' with
  | nil =>
    cases h
    exact .nil
  | cons s body ih =>
    obtain ⟨s', hs, h⟩ := Option.bind_eq_some_iff.mp h
    obtain ⟨rest, hrest, hout⟩ := Option.bind_eq_some_iff.mp h
    cases hout
    rw [List.flatMap_cons, Node.sitesAll_append, Stmt.bodySites_cons, Stmt.bodyCalls_cons]
    exact (Node.sites_readBackAll (StmtNode.exprs_readBack hs)).append (ih hrest)

end

/-! ### What is left of a function -/

/-- A function without the numbers of its nodes. -/
structure Outline where
  name : String
  source : String
  params : List Nat
  locals : List String
  body : List (Stmt Unit)

/-- The function without its numbers. -/
def FunctionDef.outline (f : FunctionDef) : Outline :=
  { name := f.name, source := f.source, params := f.params, locals := f.locals
    body := f.body.map (·.erase) }

/-- The linked function without what linking has added. -/
def LinkedFunction.outline? (names : List String) (g : LinkedFunction) : Option Outline := do
  let body ← StmtNode.readBackAll? names g.body
  return { name := g.name, source := g.source, params := g.params, locals := g.locals
           body := body.map (·.erase) }

/-- The operator nodes of a function with the states of their sites, in the
order in which a traversal finishes them. -/
def LinkedFunction.operatorSites (g : LinkedFunction) (fs : FunctionState) :
    List (Operator × Site) :=
  (Node.sitesAll g.nodes).map fun x => (x.1, fs.site x.2)

/-! ### What names stand for -/

/-- What a call by name invokes: the function with that name, or else the
builtin that is declared under it. -/
inductive Invokes (names : List String) (registry : Registry) (name : String) :
    CallTarget → Prop where
  | user {index : Nat} : names[index]? = some name → Invokes names registry name (.user index)
  | builtin {entry : Builtin.Entry} (inst : Nat) : name ∉ names →
    registry.get? name = some entry → Invokes names registry name (.builtin entry inst)

/-- The name in a node stands for what it should. -/
def Node.Resolved (names : List String) (registry : Registry) : Node → Prop
  | .call target _ _ => ∃ name, target.name? names = some name ∧
    Invokes names registry name target
  | .const (.callable name builtin) => (∃ target, Invokes names registry name target) ∧
    (builtin = false ↔ ∃ index, Invokes names registry name (.user index))
  | _ => True

/-- The linked form of a function, in a program whose functions have the given
names. -/
structure LinkedFunction.Represents (names : List String) (registry : Registry)
    (f : FunctionDef) (g : LinkedFunction) : Prop where
  /-- Without what linking has added it is the function without its numbers. -/
  outline : g.outline? names = some f.outline
  resolved : ∀ n ∈ g.subnodes, n.Resolved names registry
  /-- Before the function has run, its sites are fresh and in the order of the
  operators of the function. -/
  fresh : g.operatorSites (.initial g) = f.sites.map fun x => (x.1, Site.fresh)
  /-- Every operator node has a site of its own. -/
  own : (Node.sitesAll g.nodes).map (·.2) = List.range (FunctionState.initial g).sites.size

/-- The function of a key. -/
def Program.at? (p : Program) : FunctionKey → Option FunctionDef
  | .user index => p.functions[index]?
  | .main => some p.main

/-- The names of the functions, in order. -/
def Program.functionNames (p : Program) : List String := p.functions.map (·.name)

/-- The linked form of a program. -/
structure LinkedProgram.Represents (p : Program) (registry : Registry) (linked : LinkedProgram) :
    Prop where
  source : linked.source = p.source
  names : linked.functions.toList.map (·.name) = p.functionNames
  functions : ∀ {key : FunctionKey} {f : FunctionDef}, p.at? key = some f →
    ∃ g, linked.at? key = some g ∧ g.Represents p.functionNames registry f
  /-- A name leads to the function that is defined under it. -/
  named : ∀ {index : Nat} {f : FunctionDef}, p.functions[index]? = some f →
    linked.function? f.name = linked.functions[index]?
  /-- No two functions are defined under one name. -/
  unique : p.functionNames.Nodup
  /-- Other names lead nowhere. -/
  unnamed : ∀ {name}, name ∉ p.functionNames → linked.function? name = none
  /-- Nor does the name of the top-level body. -/
  unnamed_main : linked.function? programName = none

theorem Registry.name_of_get? {registry : Registry} {name : String} {entry : Builtin.Entry}
    (h : registry.get? name = some entry) : entry.name = name := by
  simpa using List.find?_some h

theorem Literal.written_toValue {ι : Type} (literal : Literal) :
    literal.toValue.written? = some (.lit literal : Expr ι) := by
  cases literal <;> rfl

theorem Literal.resolved_toValue (names : List String) (registry : Registry) (literal : Literal) :
    (Node.const literal.toValue).Resolved names registry := by
  cases literal <;> trivial

namespace Link

variable {scope : Scope} {f : FunctionDef} {s : State}

/-! ### Single steps -/

/-- A name that linking accepts stands for a function of the program, or else
for a declared builtin. -/
theorem resolve_ok {name : String} {callee : Callee} (h : scope.resolve name = .ok callee) :
    (∃ index, callee = .user index ∧ scope.functions[index]? = some name) ∨
      ∃ entry, callee = .builtin entry ∧ name ∉ scope.functions ∧
        scope.registry.get? name = some entry := by
  unfold Scope.resolve at h
  cases hindex : scope.functions.idxOf? name with
  | some index =>
    rw [hindex] at h
    cases h
    obtain ⟨hlt, hname, -⟩ := List.findIdx?_eq_some_iff_getElem.mp hindex
    refine .inl ⟨index, rfl, ?_⟩
    rw [List.getElem?_eq_getElem hlt, beq_iff_eq.mp hname]
  | none =>
    rw [hindex] at h
    unfold Registry.resolve at h
    cases hentry : scope.registry.get? name with
    | none =>
      simp only [hentry] at h
      cases h
    | some entry =>
      simp only [hentry] at h
      cases h
      exact .inr ⟨entry, rfl, List.idxOf?_eq_none_iff.mp hindex, rfl⟩

theorem resolve_yields_ok (name : String) :
    Yields (liftM (scope.resolve name) : Linker Callee) s fun callee _ =>
      scope.resolve name = .ok callee := by
  intro callee s' hrun
  cases hresolve : scope.resolve name with
  | error e =>
    rw [hresolve] at hrun
    cases hrun
  | ok found =>
    rw [hresolve] at hrun
    cases hrun
    rfl

/-- The target of a call invokes what the name stands for, and has that
name. -/
theorem target_invokes {name : String} {callee : Callee}
    (hresolve : scope.resolve name = .ok callee) :
    Yields (target callee) s fun t _ => t.name? scope.functions = some name ∧
      Invokes scope.functions scope.registry name t := by
  rcases resolve_ok hresolve with ⟨index, rfl, hindex⟩ | ⟨entry, rfl, hnot, hentry⟩
  · exact .pure ⟨hindex, .user hindex⟩
  · refine .look (Yields.bind (.trivial _ _) fun _ s' _ => .pure ⟨?_, .builtin _ hnot hentry⟩)
    exact congrArg some (Registry.name_of_get? hentry)

theorem internClass_name (name : String) :
    Yields (internClass scope name) s fun c _ => c.name = name := by
  refine .look ?_
  split
  case h_1 c hc => exact .pure (by simpa using List.find?_some hc)
  case h_2 => exact Yields.bind (.trivial _ _) fun _ _ _ => .pure rfl

/-! ### Expressions and statements -/

/-- A node was linked from an expression: it reads back as one of the same
shape, and the names in it stand for what they should. -/
structure Formed (scope : Scope) (e : Expr Nat) (n : Node) : Prop where
  reads : ∃ e', n.readBack? scope.functions = some e' ∧ e'.erase = e.erase
  resolved : ∀ m ∈ n.subnodes, m.Resolved scope.functions scope.registry

/-- Nodes were linked from expressions. -/
structure FormedAll (scope : Scope) (es : List (Expr Nat)) (ns : List Node) : Prop where
  reads : ∃ es', Node.readBackAll? scope.functions ns = some es' ∧
    Expr.eraseAll es' = Expr.eraseAll es
  resolved : ∀ m ∈ Node.subnodesAll ns, m.Resolved scope.functions scope.registry

/-- Nodes were linked from field values. -/
structure FormedFields (scope : Scope) (es : List (String × Expr Nat))
    (ns : List (String × Node)) : Prop where
  reads : ∃ es', Node.readBackFields? scope.functions ns = some es' ∧
    Expr.eraseFields es' = Expr.eraseFields es
  resolved : ∀ m ∈ Node.subnodesFields ns, m.Resolved scope.functions scope.registry

mutual

theorem expr_formed (scope : Scope) (f : FunctionDef) : ∀ (e : Expr Nat) (s : State),
    Yields (expr scope f e) s fun n _ => Formed scope e n
  | .lit value, s => by
    rw [expr]
    refine .pure ⟨⟨.lit value, ?_, rfl⟩, ?_⟩
    · rw [Node.readBack?, Literal.written_toValue]
    · rw [Node.subnodes, List.forall_mem_singleton]
      exact Literal.resolved_toValue _ _ value
  | .list items, s => by
    rw [expr]
    refine (exprs_formed scope f items s).bind fun ns _ h => .pure ?_
    obtain ⟨⟨items', hread, herase⟩, hresolved⟩ := h
    refine ⟨⟨.list items', ?_, ?_⟩, ?_⟩
    · rw [Node.readBack?, hread]
      rfl
    · exact congrArg Expr.list herase
    · rw [Node.subnodes, List.forall_mem_cons]
      exact ⟨trivial, hresolved⟩
  | .var slot, s => by
    rw [expr]
    refine (Yields.trivial _ s).bind fun _ _ _ => .pure ⟨⟨.var slot, rfl, rfl⟩, ?_⟩
    rw [Node.subnodes, List.forall_mem_singleton]
    trivial
  | .binary op left right id, s => by
    rw [expr]
    refine (Yields.trivial _ s).bind fun _ s₀ _ => ?_
    refine (expr_formed scope f left s₀).bind fun l s₁ hl => ?_
    refine (expr_formed scope f right s₁).bind fun r s₂ hr => ?_
    refine (Yields.trivial _ s₂).bind fun site _ _ => .pure ?_
    obtain ⟨⟨left', hleft, hleftErase⟩, hleftResolved⟩ := hl
    obtain ⟨⟨right', hright, hrightErase⟩, hrightResolved⟩ := hr
    refine ⟨⟨.binary op left' right' (some site), ?_, ?_⟩, ?_⟩
    · rw [Node.readBack?, hleft, hright]
      rfl
    · exact congrArg₂ (fun l r => Expr.binary op l r ()) hleftErase hrightErase
    · rw [Node.subnodes, List.forall_mem_cons, List.forall_mem_append]
      exact ⟨trivial, hleftResolved, hrightResolved⟩
  | .call callee args id location, s => by
    rw [expr]
    refine (Yields.trivial _ s).bind fun _ s₀ _ => ?_
    refine (resolve_yields_ok callee).bind fun resolved s₁ hresolve => ?_
    refine (exprs_formed scope f args s₁).bind fun ns s₂ hargs => ?_
    refine (target_invokes hresolve).bind fun t s₃ ht => .pure ?_
    obtain ⟨⟨args', hread, herase⟩, hresolved⟩ := hargs
    obtain ⟨hname, hinvokes⟩ := ht
    refine ⟨⟨.call callee args' none location, ?_, ?_⟩, ?_⟩
    · rw [Node.readBack?, hname, hread]
      rfl
    · exact congrArg (fun args => Expr.call callee args () location) herase
    · rw [Node.subnodes, List.forall_mem_cons]
      exact ⟨⟨callee, hname, hinvokes⟩, hresolved⟩
  | .functionRef name, s => by
    rw [expr]
    refine (resolve_yields_ok name).bind fun resolved s₀ hresolve => ?_
    -- the two kinds of names become constants of one shape, which differ in their flag
    rcases resolve_ok hresolve with ⟨index, rfl, hindex⟩ | ⟨entry, rfl, hnot, hentry⟩
    · refine .pure ⟨⟨.functionRef name, rfl, rfl⟩, ?_⟩
      rw [Node.subnodes, List.forall_mem_singleton]
      have huser : Invokes scope.functions scope.registry name (.user index) := .user hindex
      exact ⟨⟨_, huser⟩, ⟨fun _ => ⟨index, huser⟩, fun _ => rfl⟩⟩
    · refine .pure ⟨⟨.functionRef name, rfl, rfl⟩, ?_⟩
      rw [Node.subnodes, List.forall_mem_singleton]
      refine ⟨⟨_, .builtin 0 hnot hentry⟩, ⟨fun h => absurd h (by decide), ?_⟩⟩
      rintro ⟨index, ⟨hindex⟩⟩
      exact absurd (List.mem_of_getElem? hindex) hnot
  | .new cls values, s => by
    rw [expr]
    refine (internClass_name cls).bind fun c s₀ hname => ?_
    refine (fields_formed scope f values s₀).bind fun ns _ h => .pure ?_
    obtain ⟨⟨values', hread, herase⟩, hresolved⟩ := h
    refine ⟨⟨.new cls values', ?_, ?_⟩, ?_⟩
    · rw [Node.readBack?, hread, hname]
      rfl
    · exact congrArg (Expr.new cls) herase
    · rw [Node.subnodes, List.forall_mem_cons]
      exact ⟨trivial, hresolved⟩
  | .field object name, s => by
    rw [expr]
    refine (expr_formed scope f object s).bind fun n _ h => .pure ?_
    obtain ⟨⟨object', hread, herase⟩, hresolved⟩ := h
    refine ⟨⟨.field object' name, ?_, ?_⟩, ?_⟩
    · rw [Node.readBack?, hread]
      rfl
    · exact congrArg (fun object => Expr.field object name) herase
    · rw [Node.subnodes, List.forall_mem_cons]
      exact ⟨trivial, hresolved⟩

theorem exprs_formed (scope : Scope) (f : FunctionDef) : ∀ (es : List (Expr Nat)) (s : State),
    Yields (exprs scope f es) s fun ns _ => FormedAll scope es ns
  | [], s => by
    rw [exprs]
    exact .pure ⟨⟨[], rfl, rfl⟩, fun m hm => absurd hm List.not_mem_nil⟩
  | e :: es, s => by
    rw [exprs]
    refine (expr_formed scope f e s).bind fun n s₁ hn => ?_
    refine (exprs_formed scope f es s₁).bind fun ns _ hns => .pure ?_
    obtain ⟨⟨e', hread, herase⟩, hresolved⟩ := hn
    obtain ⟨⟨es', hreads, herases⟩, hresolveds⟩ := hns
    refine ⟨⟨e' :: es', ?_, ?_⟩, ?_⟩
    · rw [Node.readBackAll?, hread, hreads]
      rfl
    · exact congrArg₂ List.cons herase herases
    · rw [Node.subnodesAll, List.forall_mem_append]
      exact ⟨hresolved, hresolveds⟩

theorem fields_formed (scope : Scope) (f : FunctionDef) :
    ∀ (es : List (String × Expr Nat)) (s : State),
    Yields (fields scope f es) s fun ns _ => FormedFields scope es ns
  | [], s => by
    rw [fields]
    exact .pure ⟨⟨[], rfl, rfl⟩, fun m hm => absurd hm List.not_mem_nil⟩
  | (name, e) :: es, s => by
    rw [fields]
    refine (expr_formed scope f e s).bind fun n s₁ hn => ?_
    refine (fields_formed scope f es s₁).bind fun ns _ hns => .pure ?_
    obtain ⟨⟨e', hread, herase⟩, hresolved⟩ := hn
    obtain ⟨⟨es', hreads, herases⟩, hresolveds⟩ := hns
    refine ⟨⟨(name, e') :: es', ?_, ?_⟩, ?_⟩
    · rw [Node.readBackFields?, hread, hreads]
      rfl
    · exact congrArg₂ (fun e es => (name, e) :: es) herase herases
    · rw [Node.subnodesFields, List.forall_mem_append]
      exact ⟨hresolved, hresolveds⟩

end

/-- A linked statement was linked from a statement. -/
structure StmtFormed (scope : Scope) (st : Stmt Nat) (node : StmtNode) : Prop where
  reads : ∃ st', node.readBack? scope.functions = some st' ∧ st'.erase = st.erase
  resolved : ∀ m ∈ Node.subnodesAll node.nodes, m.Resolved scope.functions scope.registry

theorem stmt_formed (st : Stmt Nat) (s : State) :
    Yields (Link.stmt scope f st) s fun node _ => StmtFormed scope st node := by
  have hsingle : ∀ {e : Expr Nat} {n : Node}, Formed scope e n →
      ∀ m ∈ Node.subnodesAll [n], m.Resolved scope.functions scope.registry := by
    intro e n h
    rw [Node.subnodesAll, Node.subnodesAll, List.append_nil]
    exact h.resolved
  cases st with
  | expr e =>
    refine (expr_formed scope f e s).bind fun n _ h => .pure ⟨?_, hsingle h⟩
    obtain ⟨e', hread, herase⟩ := h.reads
    refine ⟨.expr e', ?_, congrArg Stmt.expr herase⟩
    rw [StmtNode.readBack?, hread]
    rfl
  | assign slot value =>
    refine (Yields.trivial _ s).bind fun _ s₀ _ => ?_
    refine (expr_formed scope f value s₀).bind fun n _ h => .pure ⟨?_, hsingle h⟩
    obtain ⟨value', hread, herase⟩ := h.reads
    refine ⟨.assign slot value', ?_, congrArg (Stmt.assign slot) herase⟩
    rw [StmtNode.readBack?, hread]
    rfl
  | setField object name value =>
    refine (expr_formed scope f object s).bind fun n s₁ hn => ?_
    refine (expr_formed scope f value s₁).bind fun m _ hm => .pure ⟨?_, ?_⟩
    · obtain ⟨object', hobject, hobjectErase⟩ := hn.reads
      obtain ⟨value', hvalue, hvalueErase⟩ := hm.reads
      refine ⟨.setField object' name value', ?_,
        congrArg₂ (fun o v => Stmt.setField o name v) hobjectErase hvalueErase⟩
      rw [StmtNode.readBack?, hobject, hvalue]
      rfl
    · rw [StmtNode.nodes, Node.subnodesAll, List.forall_mem_append]
      exact ⟨hn.resolved, hsingle hm⟩
  | ret value =>
    cases value with
    | none => exact .pure ⟨⟨.ret none, rfl, rfl⟩, fun m hm => absurd hm List.not_mem_nil⟩
    | some value =>
      refine (expr_formed scope f value s).bind fun n _ h => .pure ⟨?_, hsingle h⟩
      obtain ⟨value', hread, herase⟩ := h.reads
      refine ⟨.ret (some value'), ?_, congrArg (fun v => Stmt.ret (some v)) herase⟩
      rw [StmtNode.readBack?, hread]
      rfl
  | raise value location =>
    refine (expr_formed scope f value s).bind fun n _ h => .pure ⟨?_, hsingle h⟩
    obtain ⟨value', hread, herase⟩ := h.reads
    refine ⟨.raise value' location, ?_, congrArg (fun v => Stmt.raise v location) herase⟩
    rw [StmtNode.readBack?, hread]
    rfl

/-- Linked statements were linked from statements. -/
structure BodyFormed (scope : Scope) (body : List (Stmt Nat)) (nodes : List StmtNode) : Prop where
  reads : ∃ body', StmtNode.readBackAll? scope.functions nodes = some body' ∧
    body'.map (·.erase) = body.map (·.erase)
  resolved : ∀ node ∈ nodes, ∀ m ∈ Node.subnodesAll node.nodes,
    m.Resolved scope.functions scope.registry

theorem stmts_formed (body : List (Stmt Nat)) (s : State) :
    Yields (stmts scope f body) s fun nodes _ => BodyFormed scope body nodes := by
  induction body generalizing s with
  | nil => exact .pure ⟨⟨[], rfl, rfl⟩, fun node h => absurd h List.not_mem_nil⟩
  | cons st body ih =>
    refine (stmt_formed st s).bind fun node s₁ hnode => ?_
    refine (ih s₁).bind fun nodes _ hnodes => .pure ⟨?_, ?_⟩
    · obtain ⟨st', hread, herase⟩ := hnode.reads
      obtain ⟨body', hreads, herases⟩ := hnodes.reads
      refine ⟨st' :: body', ?_, congrArg₂ List.cons herase herases⟩
      rw [StmtNode.readBackAll?, hread, hreads]
      rfl
    · rw [List.forall_mem_cons]
      exact ⟨hnode.resolved, hnodes.resolved⟩

/-! ### Functions and programs -/

/-- Linking keeps everything of a function but its body, and the body is linked
from the body. -/
theorem function_formed {classes : List ClassRef} {out : LinkedFunction × List ClassRef}
    (h : function scope f classes = .ok out) :
    BodyFormed scope f.body out.1.body ∧
      out.1 = { name := f.name, source := f.source, params := f.params, locals := f.locals
                body := out.1.body } := by
  have hbody : Yields (do checkSlots f f.params; stmts scope f f.body : Linker _) { classes }
      fun nodes _ => BodyFormed scope f.body nodes := by
    refine (Yields.trivial _ _).bind fun _ s₀ _ => ?_
    exact stmts_formed f.body s₀
  obtain ⟨linked, hrun, hout⟩ := bind_eq_ok.mp h
  cases hout
  exact ⟨hbody linked.1 linked.2 hrun, rfl⟩

theorem function_represents {classes : List ClassRef} {out : LinkedFunction × List ClassRef}
    (h : function scope f classes = .ok out) :
    out.1.Represents scope.functions scope.registry f := by
  obtain ⟨hformed, hg⟩ := function_formed h
  obtain ⟨body', hread, herase⟩ := hformed.reads
  have hplaced := function_placed h
  refine ⟨?_, ?_, ?_, ?_⟩
  · rw [LinkedFunction.outline?, hread, hg]
    exact congrArg (fun body => some ({ f.outline with body } : Outline)) herase
  · intro n hn
    obtain ⟨node, hnode, hn⟩ := LinkedFunction.exists_stmt_of_mem hn
    exact hformed.resolved node hnode n hn
  · -- no site of a function that has not run is anything but fresh
    have hfresh : ∀ i, (FunctionState.initial out.1).site i = .fresh := by
      intro i
      simp only [FunctionState.site, FunctionState.initial, List.getElem?_toArray,
        List.getElem?_map]
      cases out.1.operators[i]? <;> rfl
    have hoperators := Stmt.operators_of_erase herase
    rw [(StmtNode.sites_readBackAll hread).sites, List.map_map] at hoperators
    calc out.1.operatorSites (.initial out.1)
      _ = (Node.sitesAll out.1.nodes).map fun x => (x.1, Site.fresh) :=
        List.map_congr_left fun x _ => by rw [hfresh]
      _ = ((Node.sitesAll out.1.nodes).map (·.1)).map (·, Site.fresh) := by
        rw [List.map_map]
        rfl
      _ = (f.sites.map (·.1)).map (·, Site.fresh) := congrArg (List.map _) hoperators
      _ = f.sites.map fun x => (x.1, Site.fresh) := List.map_map ..
  · rw [hplaced.places, List.zipIdx_map_snd, ← List.range_eq_range', FunctionState.initial]
    simp only [List.size_toArray, List.length_map]

/-- The linked functions are the linked forms of the functions, in order. -/
theorem functions_represents {fs : List FunctionDef} {classes : List ClassRef}
    {out : List LinkedFunction × List ClassRef} (h : functions scope fs classes = .ok out) :
    List.Forall₂ (LinkedFunction.Represents scope.functions scope.registry) fs out.1 := by
  induction fs generalizing classes out with
  | nil =>
    cases h
    exact .nil
  | cons f fs ih =>
    obtain ⟨linked, hf, hrest⟩ := bind_eq_ok.mp h
    obtain ⟨rest, hfs, hout⟩ := bind_eq_ok.mp hrest
    cases hout
    exact .cons (function_represents hf) (ih hfs)

end Link

namespace LinkedFunction.Represents

variable {names : List String} {registry : Registry} {f : FunctionDef} {g : LinkedFunction}

/-- The linked form of a function has the name of the function. -/
theorem name_eq (h : g.Represents names registry f) : g.name = f.name := by
  obtain ⟨body, -, hout⟩ := Option.bind_eq_some_iff.mp h.outline
  exact congrArg Outline.name (Option.some.inj hout)

end LinkedFunction.Represents

/-- What a program is linked to, function by function. -/
structure LinkedProgram.Forms (p : Program) (registry : Registry) (linked : LinkedProgram) :
    Prop where
  source : linked.source = p.source
  functions : List.Forall₂ (LinkedFunction.Represents p.functionNames registry) p.functions
    linked.functions.toList
  main : linked.main.Represents p.functionNames registry p.main

theorem Program.linkFrom_forms {firstClass : Nat} {p : Program} {registry : Registry}
    {linked : LinkedProgram} (h : p.linkFrom firstClass registry = .ok linked) :
    linked.Forms p registry := by
  rw [Program.linkFrom_eq] at h
  obtain ⟨-, -, h⟩ := Link.bind_eq_ok.mp h
  obtain ⟨out, hfunctions, h⟩ := Link.bind_eq_ok.mp h
  obtain ⟨main, hmain, hout⟩ := Link.bind_eq_ok.mp h
  cases hout
  exact ⟨rfl, Link.functions_represents hfunctions, Link.function_represents hmain⟩

namespace LinkedProgram.Forms

variable {p : Program} {registry : Registry} {linked : LinkedProgram}

/-- The functions are linked in place. -/
theorem at_key (h : linked.Forms p registry) {key : FunctionKey} {f : FunctionDef}
    (hf : p.at? key = some f) :
    ∃ g, linked.at? key = some g ∧ g.Represents p.functionNames registry f := by
  cases key with
  | user index =>
    obtain ⟨hindex, rfl⟩ := List.getElem?_eq_some_iff.mp hf
    have hlinked : index < linked.functions.toList.length := h.functions.length_eq ▸ hindex
    refine ⟨linked.functions.toList[index], ?_, h.functions.get hindex hlinked⟩
    rw [LinkedProgram.at?, ← Array.getElem?_toList, List.getElem?_eq_getElem hlinked]
  | main =>
    cases hf
    exact ⟨linked.main, rfl, h.main⟩

theorem names (h : linked.Forms p registry) :
    linked.functions.toList.map (·.name) = p.functionNames := by
  rw [← List.forall₂_eq_eq_eq]
  refine List.forall₂_map_left_iff.mpr (List.forall₂_map_right_iff.mpr ?_)
  exact h.functions.flip.imp fun g f hg => hg.name_eq

/-- A name that no function has leads nowhere. -/
theorem unnamed (h : linked.Forms p registry) {name : String} (hname : name ∉ p.functionNames) :
    linked.function? name = none := by
  rw [LinkedProgram.function?, ← Array.find?_toList, List.find?_eq_none]
  intro g hg heq
  rw [← h.names] at hname
  exact hname (List.mem_map.mpr ⟨g, hg, beq_iff_eq.mp heq⟩)

/-- Where no two functions have one name, the name of a function leads to it. -/
theorem named (h : linked.Forms p registry) (hnodup : p.functionNames.Nodup) {index : Nat}
    {f : FunctionDef} (hf : p.functions[index]? = some f) :
    linked.function? f.name = linked.functions[index]? := by
  have hkey : p.at? (.user index) = some f := hf
  obtain ⟨g, hg, hrepresents⟩ := h.at_key hkey
  rw [LinkedProgram.at?] at hg
  rw [LinkedProgram.function?, hg, ← Array.find?_toList, List.find?_eq_some_iff_getElem]
  rw [← Array.getElem?_toList] at hg
  obtain ⟨hindex, hget⟩ := List.getElem?_eq_some_iff.mp hg
  refine ⟨beq_iff_eq.mpr hrepresents.name_eq, index, hindex, hget, fun j hj => ?_⟩
  -- an earlier function with the name would be a second definition
  rw [← h.names] at hnodup
  have hne := List.pairwise_iff_getElem.mp hnodup j index (by rw [List.length_map]; omega)
    (by rw [List.length_map]; exact hindex) hj
  rw [List.getElem_map, List.getElem_map, hget, hrepresents.name_eq] at hne
  simpa using hne

end LinkedProgram.Forms

/-- A program that links is represented by what it is linked to. -/
theorem Program.linkFrom_preserves {firstClass : Nat} {p : Program} {registry : Registry}
    {linked : LinkedProgram} (h : p.linkFrom firstClass registry = .ok linked) :
    linked.Represents p registry := by
  have hproper : ProperNames p.functionNames := by
    rcases Program.linkFrom_cases firstClass p registry with ⟨_, _, hwell⟩ | ⟨e, he, -⟩
    · exact hwell.names
    · rw [he] at h
      cases h
  have hforms := Program.linkFrom_forms h
  have hmain : programName ∉ p.functionNames :=
    fun hmem => hproper.ne_program programName hmem rfl
  exact ⟨hforms.source, hforms.names, hforms.at_key, hforms.named hproper.nodup, hproper.nodup,
    hforms.unnamed, hforms.unnamed hmain⟩

/-! ### A function with the name of a builtin -/

/-- A program with an `abs` of its own, which is called and referred to next to
a builtin. Its operator nodes are numbered from the outside in. -/
def shadowing : Program :=
  { source := "main"
    functions :=
      [ { name := "abs", source := "main", params := [0], locals := ["x"]
          body := [.ret (some (.binary .add (.call "hex" [.var 0] 0 ⟨2, 12⟩)
            (.binary .mul (.var 0) (.lit (.int 2)) 1) 0))]
          siteCount := 2, callCount := 1 } ]
    main :=
      { name := programName, source := "main", params := [], locals := []
        body := [.expr (.list [.functionRef "abs", .functionRef "hex"]),
          .expr (.call "abs" [.lit (.int 7)] 0 ⟨5, 1⟩)]
        siteCount := 0, callCount := 1 } }

/-- `shadowing`, linked. -/
def linkedShadowing : LinkedProgram :=
  { source := "main"
    functions :=
      #[ { name := "abs", source := "main", params := [0], locals := ["x"]
           body := [.ret (some (.binary .add
             (.call (.builtin { name := "hex", variadic := false, arity := 1, run := Builtin.hex } 0)
               [.var 0] ⟨2, 12⟩)
             (.binary .mul (.var 0) (.const (.int 2)) 0) 1))] } ]
    main :=
      { name := programName, source := "main", params := [], locals := []
        body := [.expr (.list [.const (.callable "abs" false), .const (.callable "hex" true)]),
          .expr (.call (.user 0) [.const (.int 7)] ⟨5, 1⟩)] }
    classes := [] }

/-- The function is found under the name, and the places of its operators are
not their numbers. -/
theorem shadowing_preserved :
    shadowing.linkFrom 0 .core = .ok linkedShadowing ∧
      linkedShadowing.Represents shadowing .core ∧
      linkedShadowing.function? "abs" = linkedShadowing.functions[0]? ∧
      ∃ f g, shadowing.functions[0]? = some f ∧ linkedShadowing.functions[0]? = some g ∧
        f.sites = [(.mul, 1), (.add, 0)] ∧ Node.sitesAll g.nodes = [(.mul, 0), (.add, 1)] := by
  have hlink : shadowing.linkFrom 0 .core = .ok linkedShadowing := rfl
  have hpreserved := Program.linkFrom_preserves hlink
  have hfunction : shadowing.functions[0]? = some shadowing.functions[0] := rfl
  exact ⟨hlink, hpreserved, hpreserved.named hfunction, _, _, hfunction, rfl, rfl, rfl⟩

end AdaptiveScript
