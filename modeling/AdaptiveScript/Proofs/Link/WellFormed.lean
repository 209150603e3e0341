import AdaptiveScript.Linked.Link
import Mathlib.Tactic.ByContra

/-! # Which Programs Link

  A function refers to slots, to the numbers of its operator and call nodes,
  and to functions and builtins by name. `FunctionDef.references` lists all
  of that in the order in which a reader would look at it: parameters first,
  then the statements, and every node before its operands.

  A program links exactly when all its references are in order
  (`Program.WellFormed`), and otherwise the error is that of the first
  reference which is not (`Program.Violation`). The traversal keeps two sets
  of numbers; what they hold at a node is what the references before it are,
  and that is the invariant of the proof (`Link.Tracks`).
-/

namespace AdaptiveScript

/-! ### References -/

/-- Something that a function refers to. -/
inductive Reference where
  | slot (slot : Nat)
  /-- The number of an operator node. -/
  | site (id : Nat)
  /-- The number of a call node. -/
  | call (id : Nat)
  /-- The name of a function or a builtin. -/
  | name (name : String)
  deriving DecidableEq, Repr

namespace Expr

mutual

/-- The references of an expression. -/
def references : Expr Nat → List Reference
  | .lit _ => []
  | .list items => referencesAll items
  | .var slot => [.slot slot]
  | .binary _ left right id => .site id :: (left.references ++ right.references)
  | .call callee args id _ => .call id :: .name callee :: referencesAll args
  | .functionRef name => [.name name]
  | .new _ fields => referencesFields fields
  | .field object _ => object.references

/-- The references of expressions, from left to right. -/
def referencesAll : List (Expr Nat) → List Reference
  | [] => []
  | e :: es => e.references ++ referencesAll es

/-- The references of field values, from left to right. -/
def referencesFields : List (String × Expr Nat) → List Reference
  | [] => []
  | (_, e) :: es => e.references ++ referencesFields es

end

end Expr

/-- The references of a statement. -/
def Stmt.references : Stmt Nat → List Reference
  | .expr e => e.references
  | .assign slot value => .slot slot :: value.references
  | .setField object _ value => object.references ++ value.references
  | .ret none => []
  | .ret (some value) => value.references
  | .raise value _ => value.references

/-- The references of a function: its parameters, then its body. -/
def FunctionDef.references (f : FunctionDef) : List Reference :=
  f.params.map .slot ++ f.body.flatMap (·.references)

/-! ### Well-formed programs -/

/-- The references of a function are in order, given the names that can be
called: slots are declared, numbers are below their bound and used once, and
names are known. -/
structure FunctionDef.WellFormed (known : List String) (f : FunctionDef) : Prop where
  slot_lt : ∀ slot, .slot slot ∈ f.references → slot < f.locals.length
  site_lt : ∀ id, .site id ∈ f.references → id < f.siteCount
  site_once : ∀ id, f.references.count (.site id) ≤ 1
  call_lt : ∀ id, .call id ∈ f.references → id < f.callCount
  call_once : ∀ id, f.references.count (.call id) ≤ 1
  name_known : ∀ name, .name name ∈ f.references → name ∈ known

/-- The names that a function of the program can refer to. -/
def Program.known (p : Program) (registry : Registry) : List String :=
  p.functions.map (·.name) ++ registry.names

/-- Function names are different from each other and from the name of the
top-level body. -/
structure ProperNames (names : List String) : Prop where
  ne_program : ∀ name ∈ names, name ≠ programName
  nodup : names.Nodup

/-- The names of the functions are proper, and all references are in order. -/
structure Program.WellFormed (p : Program) (registry : Registry) : Prop where
  names : ProperNames (p.functions.map (·.name))
  functions : ∀ f ∈ p.functions ++ [p.main], f.WellFormed (p.known registry)

/-! ### The first violation -/

namespace FunctionDef

/-- A reference is in order, given the references before it. -/
def Passes (known : List String) (f : FunctionDef) (before : List Reference) : Reference → Prop
  | .slot slot => slot < f.locals.length
  | .site id => id < f.siteCount ∧ .site id ∉ before
  | .call id => id < f.callCount ∧ .call id ∉ before
  | .name name => name ∈ known

/-- All references of a list are in order, given those before the list. -/
def AllPass (known : List String) (f : FunctionDef) (before : List Reference) :
    List Reference → Prop
  | [] => True
  | r :: rs => f.Passes known before r ∧ f.AllPass known (before ++ [r]) rs

/-- The error for a reference that is not in order. -/
def errorOf (f : FunctionDef) : Reference → LinkError
  | .slot slot => .invalidId f.name .slot slot
  | .site id => .invalidId f.name .site id
  | .call id => .invalidId f.name .call id
  | .name name => .unresolvedBuiltin name

/-- The error for the first reference of a list that is not in order. -/
def FirstFailure (known : List String) (f : FunctionDef) (before refs : List Reference)
    (e : LinkError) : Prop :=
  ∃ passed r rest, refs = passed ++ r :: rest ∧ f.AllPass known before passed ∧
    ¬ f.Passes known (before ++ passed) r ∧ e = f.errorOf r

end FunctionDef

/-- The error for the first thing that is wrong with a program: function
names are looked at first, then the functions in order and the top-level
body last. -/
inductive Program.Violation (p : Program) (registry : Registry) : LinkError → Prop where
  | functionName {before after : List String} {name : String}
      (names : p.functions.map (·.name) = before ++ name :: after)
      (proper : ProperNames before)
      (wrong : name = programName ∨ name ∈ before) :
      p.Violation registry (.duplicateFunction name)
  | reference {before after : List FunctionDef} {f : FunctionDef} {e : LinkError}
      (names : ProperNames (p.functions.map (·.name)))
      (functions : p.functions ++ [p.main] = before ++ f :: after)
      (proper : ∀ g ∈ before, g.WellFormed (p.known registry))
      (wrong : f.FirstFailure (p.known registry) [] f.references e) :
      p.Violation registry e

/-! ### Passing one by one and being in order -/

namespace FunctionDef

variable {known : List String} {f : FunctionDef}

theorem allPass_append {before refs refs' : List Reference} :
    f.AllPass known before (refs ++ refs') ↔
      f.AllPass known before refs ∧ f.AllPass known (before ++ refs) refs' := by
  induction refs generalizing before with
  | nil => simp [AllPass]
  | cons r rs ih => simp [AllPass, ih, and_assoc]

theorem count_cons_le_one {r x : Reference} {rs : List Reference} :
    (r :: rs).count x ≤ 1 ↔ rs.count x ≤ 1 ∧ (r = x → x ∉ rs) := by
  by_cases h : r = x
  · subst h
    rw [List.count_cons_self, ← List.count_eq_zero]
    simp only [true_implies]
    omega
  · rw [List.count_cons_of_ne h]
    simp [h]

/-- Passing one by one, said of all the references at once. -/
theorem allPass_iff {before refs : List Reference} :
    f.AllPass known before refs ↔
      (∀ slot, .slot slot ∈ refs → slot < f.locals.length) ∧
      (∀ id, .site id ∈ refs → id < f.siteCount ∧ .site id ∉ before) ∧
      (∀ id, refs.count (.site id) ≤ 1) ∧
      (∀ id, .call id ∈ refs → id < f.callCount ∧ .call id ∉ before) ∧
      (∀ id, refs.count (.call id) ≤ 1) ∧
      (∀ name, .name name ∈ refs → name ∈ known) := by
  induction refs generalizing before with
  | nil => simp [AllPass]
  | cons r rs ih =>
    simp only [AllPass, ih, count_cons_le_one, List.mem_append, List.mem_singleton]
    -- the first reference joins those before: each kind of number is counted
    -- among its own, so the four kinds do not mix
    cases r with
    | slot slot => grind [Passes]
    | site id => grind [Passes]
    | call id => grind [Passes]
    | name name => grind [Passes]

theorem allPass_references_iff : f.AllPass known [] f.references ↔ f.WellFormed known := by
  rw [allPass_iff]
  constructor
  · intro h
    obtain ⟨hslot, hsite, hsites, hcall, hcalls, hname⟩ := h
    exact ⟨hslot, fun id h => (hsite id h).1, hsites, fun id h => (hcall id h).1, hcalls, hname⟩
  · intro h
    refine ⟨h.slot_lt, ?_, h.site_once, ?_, h.call_once, h.name_known⟩
    · exact fun id hid => ⟨h.site_lt id hid, List.not_mem_nil⟩
    · exact fun id hid => ⟨h.call_lt id hid, List.not_mem_nil⟩

/-! What comes after a first failure does not matter, nor do passing
references before it. -/

theorem FirstFailure.append {before refs : List Reference} {e : LinkError}
    (h : f.FirstFailure known before refs e) (refs' : List Reference) :
    f.FirstFailure known before (refs ++ refs') e := by
  obtain ⟨passed, r, rest, rfl, hpassed, hr, he⟩ := h
  exact ⟨passed, r, rest ++ refs', by simp, hpassed, hr, he⟩

theorem FirstFailure.after {before refs refs' : List Reference} {e : LinkError}
    (hrefs : f.AllPass known before refs) (h : f.FirstFailure known (before ++ refs) refs' e) :
    f.FirstFailure known before (refs ++ refs') e := by
  obtain ⟨passed, r, rest, rfl, hpassed, hr, he⟩ := h
  refine ⟨refs ++ passed, r, rest, by simp, ?_, ?_, he⟩
  · exact allPass_append.mpr ⟨hrefs, hpassed⟩
  · rwa [List.append_assoc] at hr

theorem FirstFailure.single {before : List Reference} {r : Reference}
    (h : ¬ f.Passes known before r) : f.FirstFailure known before [r] (f.errorOf r) :=
  ⟨[], r, [], rfl, trivial, by rwa [List.append_nil], rfl⟩

/-- A list of references with a first failure does not pass. -/
theorem FirstFailure.not_allPass {before refs : List Reference} {e : LinkError}
    (h : f.FirstFailure known before refs e) : ¬ f.AllPass known before refs := by
  obtain ⟨passed, r, rest, rfl, _, hr, _⟩ := h
  intro hall
  exact hr (allPass_append.mp hall).2.1

end FunctionDef

/-! ### The traversal of a function -/

namespace Link

variable {α β : Type} {scope : Scope} {f : FunctionDef}

/-- The names that can be called. -/
def Scope.known (scope : Scope) : List String := scope.functions ++ scope.registry.names

/-- The numbers that the linker has met are those of the references so far. -/
structure Tracks (before : List Reference) (s : State) : Prop where
  sites : ∀ id, id ∈ s.sites ↔ .site id ∈ before
  calls : ∀ id, id ∈ s.calls ↔ .call id ∈ before

/-- A linking step looks at the given references, in order: it succeeds if
they all pass, and otherwise fails with the error of the first that does
not. -/
def Follows (scope : Scope) (f : FunctionDef) (m : Linker α) (refs : List Reference) : Prop :=
  ∀ before s, Tracks before s →
    match m.run s with
    | .ok (_, s') => f.AllPass scope.known before refs ∧ Tracks (before ++ refs) s'
    | .error e => f.FirstFailure scope.known before refs e

/-! Steps that look at nothing. -/

/-- A step that succeeds without meeting a number. -/
theorem Follows.of_ok {m : Linker α}
    (h : ∀ s, ∃ a s', m.run s = .ok (a, s') ∧ s'.sites = s.sites ∧ s'.calls = s.calls) :
    Follows scope f m [] := by
  intro before s hs
  obtain ⟨a, s', hrun, hsites, hcalls⟩ := h s
  rw [hrun]
  refine ⟨trivial, ?_, ?_⟩
  · rw [hsites, List.append_nil]
    exact hs.sites
  · rw [hcalls, List.append_nil]
    exact hs.calls

theorem Follows.pure (a : α) : Follows scope f (pure a) [] :=
  .of_ok fun s => ⟨a, s, rfl, rfl, rfl⟩

theorem nextSite_follows : Follows scope f nextSite [] :=
  .of_ok fun s => ⟨s.siteCount, { s with siteCount := s.siteCount + 1 }, rfl, rfl, rfl⟩

theorem target_follows (callee : Callee) : Follows scope f (target callee) [] := by
  cases callee with
  | user index => exact .pure _
  | builtin entry =>
    exact .of_ok fun s => ⟨.builtin entry s.builtinCount,
      { s with builtinCount := s.builtinCount + 1 }, rfl, rfl, rfl⟩

theorem internClass_follows (name : String) : Follows scope f (internClass scope name) [] := by
  refine .of_ok fun s => ?_
  cases hc : s.classes.find? (·.name == name) with
  | some c => exact ⟨c, s, by simp [internClass, hc]; rfl, rfl, rfl⟩
  | none =>
    let c : ClassRef := { id := scope.firstClass + s.classes.length, name }
    exact ⟨c, { s with classes := s.classes ++ [c] }, by simp [internClass, hc]; rfl, rfl, rfl⟩

/-! Sequences of steps. -/

theorem Follows.bind {m : Linker α} {k : α → Linker β} {refs refs' : List Reference}
    (hm : Follows scope f m refs) (hk : ∀ a, Follows scope f (k a) refs') :
    Follows scope f (m >>= k) (refs ++ refs') := by
  intro before s hs
  have hfirst := hm before s hs
  rw [StateT.run_bind]
  cases hrun : m.run s with
  | error e =>
    rw [hrun] at hfirst
    exact hfirst.append refs'
  | ok out =>
    obtain ⟨a, s'⟩ := out
    rw [hrun] at hfirst
    obtain ⟨hpass, htracks⟩ := hfirst
    -- the second step starts with the references of the first behind it
    have hsecond := hk a (before ++ refs) s' htracks
    show match (k a).run s' with
      | .ok (_, s') => f.AllPass scope.known before (refs ++ refs') ∧
          Tracks (before ++ (refs ++ refs')) s'
      | .error e => f.FirstFailure scope.known before (refs ++ refs') e
    cases hrun' : (k a).run s' with
    | error e =>
      rw [hrun'] at hsecond
      exact hsecond.after hpass
    | ok out' =>
      rw [hrun'] at hsecond
      refine ⟨FunctionDef.allPass_append.mpr ⟨hpass, hsecond.1⟩, ?_⟩
      rw [← List.append_assoc]
      exact hsecond.2

/-- A last step that looks at nothing. -/
theorem Follows.map {m : Linker α} {k : α → Linker β} {refs : List Reference}
    (hm : Follows scope f m refs) (hk : ∀ a, Follows scope f (k a) []) :
    Follows scope f (m >>= k) refs := by
  have h := hm.bind hk
  rwa [List.append_nil] at h

/-! The checks. -/

/-- A check of one reference either meets its number or fails with its
error. -/
theorem Follows.of_check {m : Linker Unit} {r : Reference}
    (h : ∀ before s, Tracks before s →
      (f.Passes scope.known before r ∧ ∃ s', m.run s = .ok ((), s') ∧ Tracks (before ++ [r]) s') ∨
      (¬ f.Passes scope.known before r ∧ m.run s = .error (f.errorOf r))) :
    Follows scope f m [r] := by
  intro before s hs
  rcases h before s hs with ⟨hpass, s', hrun, htracks⟩ | ⟨hfail, hrun⟩
  · rw [hrun]
    exact ⟨⟨hpass, trivial⟩, htracks⟩
  · rw [hrun]
    exact .single hfail

theorem checkSlot_follows (slot : Nat) : Follows scope f (checkSlot f slot) [.slot slot] := by
  refine .of_check fun before s hs => ?_
  unfold checkSlot
  by_cases h : slot < f.locals.length
  · refine .inl ⟨h, s, by rw [if_pos h]; rfl, ?_, ?_⟩
    · simpa using hs.sites
    · simpa using hs.calls
  · exact .inr ⟨h, by rw [if_neg h]; rfl⟩

theorem claimSite_follows (id : Nat) : Follows scope f (claimSite f id) [.site id] := by
  refine .of_check fun before s hs => ?_
  have hpasses : f.Passes scope.known before (.site id) ↔ id < f.siteCount ∧ id ∉ s.sites := by
    simp only [FunctionDef.Passes, hs.sites]
  rw [hpasses]
  by_cases h : id < f.siteCount ∧ id ∉ s.sites
  · refine .inl ⟨h, { s with sites := id :: s.sites }, by simp [claimSite, h]; rfl, ?_, ?_⟩
    · intro id'
      simp [hs.sites, or_comm]
    · simpa using hs.calls
  · exact .inr ⟨h, by simp [claimSite, h]; rfl⟩

theorem claimCall_follows (id : Nat) : Follows scope f (claimCall f id) [.call id] := by
  refine .of_check fun before s hs => ?_
  have hpasses : f.Passes scope.known before (.call id) ↔ id < f.callCount ∧ id ∉ s.calls := by
    simp only [FunctionDef.Passes, hs.calls]
  rw [hpasses]
  by_cases h : id < f.callCount ∧ id ∉ s.calls
  · refine .inl ⟨h, { s with calls := id :: s.calls }, by simp [claimCall, h]; rfl, ?_, ?_⟩
    · simpa using hs.sites
    · intro id'
      simp [hs.calls, or_comm]
  · exact .inr ⟨h, by simp [claimCall, h]; rfl⟩

theorem Scope.resolve_cases (scope : Scope) (name : String) :
    (name ∈ scope.known ∧ ∃ callee, scope.resolve name = .ok callee) ∨
      (name ∉ scope.known ∧ scope.resolve name = .error (.unresolvedBuiltin name)) := by
  unfold Scope.resolve Scope.known
  cases hindex : scope.functions.idxOf? name with
  | some index =>
    have hmem : name ∈ scope.functions := by
      by_contra hnot
      rw [List.idxOf?_eq_none_iff.mpr hnot] at hindex
      cases hindex
    exact .inl ⟨List.mem_append_left _ hmem, _, rfl⟩
  | none =>
    have hnot : name ∉ scope.functions := List.idxOf?_eq_none_iff.mp hindex
    unfold Registry.resolve Registry.get? Registry.names
    cases hentry : scope.registry.entries.find? (·.name == name) with
    | some entry =>
      have hname : entry.name = name := by simpa using List.find?_some hentry
      have hmem := List.mem_map_of_mem (f := (·.name)) (List.mem_of_find?_eq_some hentry)
      exact .inl ⟨List.mem_append_right _ (hname ▸ hmem), _, rfl⟩
    | none =>
      refine .inr ⟨?_, rfl⟩
      intro hmem
      rcases List.mem_append.mp hmem with hmem | hmem
      · exact hnot hmem
      · obtain ⟨entry, hin, hname⟩ := List.mem_map.mp hmem
        have := List.find?_eq_none.mp hentry entry hin
        simp [hname] at this

theorem resolve_follows (name : String) :
    Follows scope f (liftM (scope.resolve name) : Linker Callee) [.name name] := by
  intro before s hs
  rcases scope.resolve_cases name with ⟨hknown, callee, hresolve⟩ | ⟨hunknown, hresolve⟩
  · rw [hresolve]
    refine ⟨⟨hknown, trivial⟩, ?_, ?_⟩
    · simpa using hs.sites
    · simpa using hs.calls
  · rw [hresolve]
    exact .single hunknown

/-! Trees: one case for each constructor. -/

mutual

theorem expr_follows (scope : Scope) (f : FunctionDef) :
    ∀ e : Expr Nat, Follows scope f (expr scope f e) e.references
  | .lit value => by
    rw [expr, Expr.references]
    exact .pure _
  | .list items => by
    rw [expr, Expr.references]
    exact (exprs_follows scope f items).map fun _ => .pure _
  | .var slot => by
    rw [expr, Expr.references]
    exact (checkSlot_follows slot).map fun _ => .pure _
  | .binary op left right id => by
    rw [expr, Expr.references]
    refine (claimSite_follows id).bind fun _ => ?_
    refine (expr_follows scope f left).bind fun _ => ?_
    refine (expr_follows scope f right).map fun _ => ?_
    exact nextSite_follows.map fun _ => .pure _
  | .call callee args id location => by
    rw [expr, Expr.references]
    refine (claimCall_follows id).bind fun _ => ?_
    refine (resolve_follows callee).bind fun _ => ?_
    refine (exprs_follows scope f args).map fun _ => ?_
    exact (target_follows _).map fun _ => .pure _
  | .functionRef name => by
    rw [expr, Expr.references]
    refine (resolve_follows name).map fun callee => ?_
    cases callee <;> exact .pure _
  | .new cls values => by
    rw [expr, Expr.references]
    refine (internClass_follows cls).bind fun _ => ?_
    exact (fields_follows scope f values).map fun _ => .pure _
  | .field object name => by
    rw [expr, Expr.references]
    exact (expr_follows scope f object).map fun _ => .pure _

theorem exprs_follows (scope : Scope) (f : FunctionDef) :
    ∀ es : List (Expr Nat), Follows scope f (exprs scope f es) (Expr.referencesAll es)
  | [] => by
    rw [exprs, Expr.referencesAll]
    exact .pure _
  | e :: es => by
    rw [exprs, Expr.referencesAll]
    refine (expr_follows scope f e).bind fun _ => ?_
    exact (exprs_follows scope f es).map fun _ => .pure _

theorem fields_follows (scope : Scope) (f : FunctionDef) :
    ∀ es : List (String × Expr Nat), Follows scope f (fields scope f es) (Expr.referencesFields es)
  | [] => by
    rw [fields, Expr.referencesFields]
    exact .pure _
  | (name, e) :: es => by
    rw [fields, Expr.referencesFields]
    refine (expr_follows scope f e).bind fun _ => ?_
    exact (fields_follows scope f es).map fun _ => .pure _

end

theorem stmt_follows (s : Stmt Nat) : Follows scope f (stmt scope f s) s.references := by
  cases s with
  | expr e => exact (expr_follows scope f e).map fun _ => .pure _
  | assign slot value =>
    refine (checkSlot_follows slot).bind fun _ => ?_
    exact (expr_follows scope f value).map fun _ => .pure _
  | setField object name value =>
    refine (expr_follows scope f object).bind fun _ => ?_
    exact (expr_follows scope f value).map fun _ => .pure _
  | ret value =>
    cases value with
    | none => exact .pure _
    | some value => exact (expr_follows scope f value).map fun _ => .pure _
  | raise value location => exact (expr_follows scope f value).map fun _ => .pure _

theorem stmts_follows (ss : List (Stmt Nat)) :
    Follows scope f (stmts scope f ss) (ss.flatMap (·.references)) := by
  induction ss with
  | nil => exact .pure _
  | cons s ss ih =>
    rw [List.flatMap_cons]
    refine (stmt_follows s).bind fun _ => ?_
    exact ih.map fun _ => .pure _

theorem checkSlots_follows (slots : List Nat) :
    Follows scope f (checkSlots f slots) (slots.map .slot) := by
  induction slots with
  | nil => exact .pure _
  | cons slot slots ih => exact (checkSlot_follows slot).bind fun _ => ih

/-! ### Functions and names -/

/-- A function links if its references are in order, and otherwise fails
with the error of the first that is not. -/
theorem function_cases (scope : Scope) (f : FunctionDef) (classes : List ClassRef) :
    (∃ out, function scope f classes = .ok out ∧ f.WellFormed scope.known) ∨
      (∃ e, function scope f classes = .error e ∧
        f.FirstFailure scope.known [] f.references e) := by
  have hfollows : Follows scope f (do checkSlots f f.params; stmts scope f f.body)
      f.references :=
    (checkSlots_follows f.params).bind fun _ => stmts_follows f.body
  have hrun := hfollows [] { classes } ⟨by simp, by simp⟩
  unfold function
  cases hout : StateT.run (do checkSlots f f.params; stmts scope f f.body : Linker _)
      { classes } with
  | error e =>
    rw [hout] at hrun
    exact .inr ⟨e, rfl, hrun⟩
  | ok out =>
    rw [hout] at hrun
    exact .inl ⟨_, rfl, FunctionDef.allPass_references_iff.mp hrun.1⟩

theorem functions_cases (scope : Scope) (fs : List FunctionDef) (classes : List ClassRef) :
    (∃ out, functions scope fs classes = .ok out ∧ ∀ f ∈ fs, f.WellFormed scope.known) ∨
      (∃ e before f after, functions scope fs classes = .error e ∧ fs = before ++ f :: after ∧
        (∀ g ∈ before, g.WellFormed scope.known) ∧
        f.FirstFailure scope.known [] f.references e) := by
  induction fs generalizing classes with
  | nil => exact .inl ⟨_, rfl, by simp⟩
  | cons f fs ih =>
    unfold functions
    rcases function_cases scope f classes with ⟨out, hrun, hwell⟩ | ⟨e, hrun, hfail⟩
    -- the first function is in order: the others decide
    · rw [hrun]
      rcases ih out.2 with ⟨out', hrest, hall⟩ | ⟨e, before, g, after, hrest, hsplit, hall, hfail⟩
      · refine .inl ⟨(out.1 :: out'.1, out'.2), ?_, ?_⟩
        · simp only [bind, Except.bind, hrest]; rfl
        · simpa using ⟨hwell, hall⟩
      · refine .inr ⟨e, f :: before, g, after, ?_, by rw [hsplit]; rfl, ?_, hfail⟩
        · simp only [bind, Except.bind, hrest]
        · simpa using ⟨hwell, hall⟩
    -- the first function fails, and nothing stands before it
    · rw [hrun]
      exact .inr ⟨e, [], f, fs, rfl, rfl, by simp, hfail⟩

/-- The check of the function names, given the names before them. -/
theorem checkNames_cases (seen before names : List String) (hseen : ∀ n, n ∈ seen ↔ n ∈ before)
    (hbefore : ProperNames before) :
    (checkNames seen names = .ok () ∧ ProperNames (before ++ names)) ∨
      (∃ passed name after, checkNames seen names = .error (.duplicateFunction name) ∧
        names = passed ++ name :: after ∧ ProperNames (before ++ passed) ∧
        (name = programName ∨ name ∈ before ++ passed)) := by
  induction names generalizing seen before with
  | nil => exact .inl ⟨rfl, by rwa [List.append_nil]⟩
  | cons name names ih =>
    unfold checkNames
    by_cases h : name = programName ∨ name ∈ seen
    -- the check stops at this name
    · rw [if_pos h]
      refine .inr ⟨[], name, names, rfl, rfl, by rwa [List.append_nil], ?_⟩
      rwa [List.append_nil, ← hseen]
    · rw [if_neg h]
      rw [not_or, hseen] at h
      have hnext : ProperNames (before ++ [name]) := by
        refine ⟨?_, ?_⟩
        · intro n hn
          rcases List.mem_append.mp hn with hn | hn
          · exact hbefore.ne_program n hn
          · rw [List.mem_singleton.mp hn]
            exact h.1
        · rw [List.nodup_append]
          refine ⟨hbefore.nodup, by simp, ?_⟩
          intro a ha b hb hab
          rw [List.mem_singleton.mp hb] at hab
          exact h.2 (hab ▸ ha)
      rcases ih (name :: seen) (before ++ [name]) (by simp [hseen, or_comm]) hnext with
        ⟨hok, hproper⟩ | ⟨passed, n, after, herror, hsplit, hproper, hwrong⟩
      · exact .inl ⟨hok, by simpa using hproper⟩
      · refine .inr ⟨name :: passed, n, after, herror, by rw [hsplit]; rfl, ?_, ?_⟩
        · simpa using hproper
        · simpa using hwrong

end Link

/-! ### Programs -/

/-- Two splits of a list at an element are the same if neither element is in
the other's front part at its own place. -/
theorem split_unique {α : Type} {a b a' b' : List α} {x x' : α}
    (h : a ++ x :: b = a' ++ x' :: b') (hne : ∀ t, a' ≠ a ++ x :: t)
    (hne' : ∀ t, a ≠ a' ++ x' :: t) : a = a' ∧ x = x' := by
  -- one front part extends the other by `t`; a `t` that is not empty starts
  -- with the element of the shorter split
  rcases List.append_eq_append_iff.mp h with ⟨t, ha, hx⟩ | ⟨t, ha, hx⟩
  · cases t with
    | nil => exact ⟨by simpa using ha.symm, by simpa using (List.cons.inj hx).1⟩
    | cons y t =>
      rw [List.cons_append, List.cons.injEq] at hx
      exact absurd (hx.1 ▸ ha) (hne t)
  · cases t with
    | nil => exact ⟨by simpa using ha, by simpa using (List.cons.inj hx).1.symm⟩
    | cons y t =>
      rw [List.cons_append, List.cons.injEq] at hx
      exact absurd (hx.1 ▸ ha) (hne' t)

theorem FunctionDef.FirstFailure.unique {known : List String} {f : FunctionDef}
    {before refs : List Reference} {e e' : LinkError} (h : f.FirstFailure known before refs e)
    (h' : f.FirstFailure known before refs e') : e = e' := by
  obtain ⟨passed, r, rest, hsplit, hpassed, hr, rfl⟩ := h
  obtain ⟨passed', r', rest', hsplit', hpassed', hr', rfl⟩ := h'
  -- what passes before one failure cannot hold the other
  obtain ⟨_, rfl⟩ : passed = passed' ∧ r = r' := by
    refine split_unique (hsplit.symm.trans hsplit') ?_ ?_
    · intro t ht
      rw [ht, allPass_append] at hpassed'
      exact hr hpassed'.2.1
    · intro t ht
      rw [ht, allPass_append] at hpassed
      exact hr' hpassed.2.1
  rfl

/-- Improper names make no proper list. -/
theorem ProperNames.not_of_split {before after : List String} {name : String}
    (wrong : name = programName ∨ name ∈ before) : ¬ ProperNames (before ++ name :: after) := by
  intro h
  rcases wrong with wrong | wrong
  · exact h.ne_program name (by simp) wrong
  · have hnodup := (List.nodup_append.mp h.nodup).2.2
    exact hnodup name wrong name (by simp) rfl

namespace Program

variable {p : Program} {registry : Registry}

/-- A well-formed program has no violation. -/
theorem Violation.not_wellFormed {e : LinkError} (h : p.Violation registry e) :
    ¬ p.WellFormed registry := by
  intro hwell
  cases h with
  | functionName names _ wrong => exact ProperNames.not_of_split wrong (names ▸ hwell.names)
  | @reference _ _ f _ _ functions _ wrong =>
    have hf : f.WellFormed (p.known registry) := hwell.functions f (by simp [functions])
    exact wrong.not_allPass (FunctionDef.allPass_references_iff.mpr hf)

/-- A program has one violation at most. -/
theorem Violation.unique {e e' : LinkError} (h : p.Violation registry e)
    (h' : p.Violation registry e') : e = e' := by
  cases h with
  | functionName names proper wrong =>
    cases h' with
    | functionName names' proper' wrong' =>
      obtain ⟨_, rfl⟩ := split_unique (names.symm.trans names')
        (fun t ht => ProperNames.not_of_split wrong (ht ▸ proper'))
        (fun t ht => ProperNames.not_of_split wrong' (ht ▸ proper))
      rfl
    | reference names' => exact absurd (names ▸ names') (ProperNames.not_of_split wrong)
  | @reference _ _ f _ names functions proper wrong =>
    cases h' with
    | functionName names' _ wrong' => exact absurd (names' ▸ names) (ProperNames.not_of_split wrong')
    | @reference _ _ f' _ _ functions' proper' wrong' =>
      -- neither function is in order, so neither stands before the other
      have hnot : ¬ f.WellFormed (p.known registry) := fun hf =>
        wrong.not_allPass (FunctionDef.allPass_references_iff.mpr hf)
      have hnot' : ¬ f'.WellFormed (p.known registry) := fun hf =>
        wrong'.not_allPass (FunctionDef.allPass_references_iff.mpr hf)
      obtain ⟨_, rfl⟩ := split_unique (functions.symm.trans functions')
        (fun t ht => hnot (proper' f (by simp [ht])))
        (fun t ht => hnot' (proper f' (by simp [ht])))
      exact wrong.unique wrong'

/-- What the names of the program stand for. -/
def scope (p : Program) (firstClass : Nat) (registry : Registry) : Link.Scope :=
  { functions := p.functions.map (·.name), registry, firstClass }

theorem linkFrom_eq (firstClass : Nat) (p : Program) (registry : Registry) :
    p.linkFrom firstClass registry = do
      Link.checkNames [] (p.functions.map (·.name))
      let out ← Link.functions (p.scope firstClass registry) p.functions []
      let main ← Link.function (p.scope firstClass registry) p.main out.2
      return { source := p.source, functions := out.1.toArray, main := main.1, classes := main.2 } :=
  rfl

/-- Linking succeeds on a well-formed program and otherwise reports its
violation. -/
theorem linkFrom_cases (firstClass : Nat) (p : Program) (registry : Registry) :
    (∃ linked, p.linkFrom firstClass registry = .ok linked ∧ p.WellFormed registry) ∨
      (∃ e, p.linkFrom firstClass registry = .error e ∧ p.Violation registry e) := by
  rw [linkFrom_eq]
  rcases Link.checkNames_cases [] [] (p.functions.map (·.name)) (by simp) ⟨by simp, by simp⟩ with
    ⟨hnames, hproper⟩ | ⟨before, name, after, hnames, hsplit, hproper, hwrong⟩
  · rw [List.nil_append] at hproper
    rcases Link.functions_cases (p.scope firstClass registry) p.functions [] with
      ⟨out, hfunctions, hall⟩ | ⟨e, before, f, after, hfunctions, hsplit, hall, hfail⟩
    -- the top-level body comes last
    · rcases Link.function_cases (p.scope firstClass registry) p.main out.2 with
        ⟨main, hmain, hwell⟩ | ⟨e, hmain, hfail⟩
      · refine .inl ⟨_, by simp only [hnames, hfunctions, hmain, bind, Except.bind]; rfl,
          hproper, ?_⟩
        intro f hf
        rcases List.mem_append.mp hf with hf | hf
        · exact hall f hf
        · rw [List.mem_singleton.mp hf]
          exact hwell
      · refine .inr ⟨e, by simp only [hnames, hfunctions, hmain, bind, Except.bind], ?_⟩
        exact .reference hproper rfl hall hfail
    · have hall' : p.functions ++ [p.main] = before ++ f :: (after ++ [p.main]) := by
        rw [hsplit, List.append_assoc]; rfl
      refine .inr ⟨e, by simp only [hnames, hfunctions, bind, Except.bind], ?_⟩
      exact .reference hproper hall' hall hfail
  · refine .inr ⟨.duplicateFunction name, by simp only [hnames, bind, Except.bind], ?_⟩
    exact .functionName hsplit hproper hwrong

/-- A program links exactly when it is well-formed, and otherwise the error
is that of its first violation. -/
theorem linkFrom_decides (firstClass : Nat) (p : Program) (registry : Registry) :
    ((∃ linked, p.linkFrom firstClass registry = .ok linked) ↔ p.WellFormed registry) ∧
      ∀ e, p.linkFrom firstClass registry = .error e ↔ p.Violation registry e := by
  rcases linkFrom_cases firstClass p registry with ⟨linked, hok, hwell⟩ | ⟨e, herror, hviolation⟩
  · refine ⟨⟨fun _ => hwell, fun _ => ⟨linked, hok⟩⟩, fun e => ⟨?_, ?_⟩⟩
    · intro h
      rw [hok] at h
      cases h
    · intro h
      exact absurd hwell h.not_wellFormed
  · refine ⟨⟨?_, ?_⟩, fun e' => ⟨?_, ?_⟩⟩
    · intro h
      obtain ⟨linked, hok⟩ := h
      rw [herror] at hok
      cases hok
    · intro h
      exact absurd h hviolation.not_wellFormed
    · intro h
      rw [herror] at h
      cases h
      exact hviolation
    · intro h
      rw [herror, hviolation.unique h]

end Program

end AdaptiveScript
