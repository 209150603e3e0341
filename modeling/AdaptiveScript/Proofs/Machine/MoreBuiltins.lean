import AdaptiveScript.Proofs.Builtin.Merge
import AdaptiveScript.Proofs.Linked.Renaming
import AdaptiveScript.Proofs.Machine.CallPath
import AdaptiveScript.Proofs.Machine.Refinement

/-! # Programs and More Builtins

  Linking asks the registry only for the names that a program refers to and
  does not define itself. Sources that are merged after others leave every
  earlier declaration where it is (`Registry.Extends`), so a program that
  links without the later sources links with them, to the same tree, even
  where a later builtin has the name of one of its functions
  (`Program.linkFrom_extends`).

  That linking reads its scope at the references of a function and nowhere
  else is a congruence (`Link.Scope.AgreesOn`): two scopes that give these
  names the same meaning make the traversals equal, node by node.
-/

namespace AdaptiveScript

/-! ### Registries with more builtins -/

namespace Registry

variable {r r' : Registry}

/-- Every declaration of the first registry is one of the second, under the
same name. -/
def Extends (r r' : Registry) : Prop :=
  ∀ name ∈ r.names, r'.get? name = r.get? name

theorem extends_extend (r : Registry) (es : List Builtin.Entry) : r.Extends (r.extend es) := by
  intro name hname
  obtain ⟨e, he⟩ := Option.isSome_iff_exists.mp (contains_iff.mpr hname)
  have hfound : r.entries.find? (·.name == name) = some e := he
  rw [he, get?, extend, List.find?_append, hfound, Option.some_or]

/-- Sources that are merged later take no declaration away. -/
theorem extends_of_ofSources {sources extra : List (List Builtin.Entry)}
    (h : ofSources sources = .ok r) (h' : ofSources (sources ++ extra) = .ok r') :
    r.Extends r' := by
  obtain ⟨-, rfl⟩ := ofSources_eq_ok_iff.mp h
  obtain ⟨-, rfl⟩ := ofSources_eq_ok_iff.mp h'
  rw [List.flatten_append]
  exact extends_extend _ _

theorem Extends.resolve (h : r.Extends r') {name : String} (hname : name ∈ r.names) :
    r'.resolve name = r.resolve name := by
  rw [Registry.resolve, Registry.resolve, h name hname]

end Registry

/-! ### Scopes that agree -/

namespace Link

/-- Two scopes give the names among some references the same meaning, and
number classes alike. -/
structure Scope.AgreesOn (refs : List Reference) (scope scope' : Scope) : Prop where
  resolve : ∀ name, .name name ∈ refs → scope'.resolve name = scope.resolve name
  firstClass : scope'.firstClass = scope.firstClass

variable {scope scope' : Scope} {refs refs' : List Reference}

theorem Scope.AgreesOn.mono (h : scope.AgreesOn refs scope') (hsub : refs' ⊆ refs) :
    scope.AgreesOn refs' scope' :=
  ⟨fun name hname => h.resolve name (hsub hname), h.firstClass⟩

theorem Scope.AgreesOn.left (h : scope.AgreesOn (refs ++ refs') scope') :
    scope.AgreesOn refs scope' :=
  h.mono (List.subset_append_left refs refs')

theorem Scope.AgreesOn.right (h : scope.AgreesOn (refs ++ refs') scope') :
    scope.AgreesOn refs' scope' :=
  h.mono (List.subset_append_right refs refs')

theorem Scope.AgreesOn.tail {r : Reference} (h : scope.AgreesOn (r :: refs) scope') :
    scope.AgreesOn refs scope' :=
  h.mono (List.subset_cons_self r refs)

theorem internClass_congr (h : scope.AgreesOn refs scope') (name : String) :
    internClass scope' name = internClass scope name := by
  rw [internClass, internClass, h.firstClass]

mutual

theorem expr_congr (f : FunctionDef) : ∀ e : Expr Nat, scope.AgreesOn e.references scope' →
    expr scope' f e = expr scope f e
  | .lit value, _ => rfl
  | .list items, h => by
    rw [expr, expr, exprs_congr f items h]
  | .var slot, _ => rfl
  | .binary op left right id, h => by
    rw [Expr.references] at h
    rw [expr, expr, expr_congr f left h.tail.left, expr_congr f right h.tail.right]
  | .call callee args id location, h => by
    rw [Expr.references] at h
    have hcallee := h.resolve callee (by simp)
    rw [expr, expr, hcallee, exprs_congr f args h.tail.tail]
  | .functionRef name, h => by
    rw [Expr.references] at h
    rw [expr, expr, h.resolve name List.mem_cons_self]
  | .new cls values, h => by
    rw [expr, expr, internClass_congr h, fields_congr f values h]
  | .field object name, h => by
    rw [expr, expr, expr_congr f object h]

theorem exprs_congr (f : FunctionDef) : ∀ es : List (Expr Nat),
    scope.AgreesOn (Expr.referencesAll es) scope' → exprs scope' f es = exprs scope f es
  | [], _ => rfl
  | e :: es, h => by
    rw [Expr.referencesAll] at h
    rw [exprs, exprs, expr_congr f e h.left, exprs_congr f es h.right]

theorem fields_congr (f : FunctionDef) : ∀ es : List (String × Expr Nat),
    scope.AgreesOn (Expr.referencesFields es) scope' → fields scope' f es = fields scope f es
  | [], _ => rfl
  | (name, e) :: es, h => by
    rw [Expr.referencesFields] at h
    rw [fields, fields, expr_congr f e h.left, fields_congr f es h.right]

end

theorem stmt_congr (f : FunctionDef) (s : Stmt Nat) (h : scope.AgreesOn s.references scope') :
    stmt scope' f s = stmt scope f s := by
  cases s with
  | expr e => rw [stmt, stmt, expr_congr f e h]
  | assign slot value => rw [stmt, stmt, expr_congr f value h.tail]
  | setField object name value =>
    rw [stmt, stmt, expr_congr f object h.left, expr_congr f value h.right]
  | ret value =>
    cases value with
    | none => rfl
    | some value => rw [stmt, stmt, expr_congr f value h]
  | raise value location => rw [stmt, stmt, expr_congr f value h]

theorem stmts_congr (f : FunctionDef) (body : List (Stmt Nat))
    (h : scope.AgreesOn (body.flatMap (·.references)) scope') :
    stmts scope' f body = stmts scope f body := by
  induction body with
  | nil => rfl
  | cons s body ih =>
    rw [List.flatMap_cons] at h
    rw [stmts, stmts, stmt_congr f s h.left, ih h.right]

theorem function_congr (f : FunctionDef) (classes : List ClassRef)
    (h : scope.AgreesOn f.references scope') :
    function scope' f classes = function scope f classes := by
  rw [function, function, stmts_congr f f.body h.right]

theorem functions_congr (fs : List FunctionDef) (classes : List ClassRef)
    (h : ∀ f ∈ fs, scope.AgreesOn f.references scope') :
    functions scope' fs classes = functions scope fs classes := by
  induction fs generalizing classes with
  | nil => rfl
  | cons f fs ih =>
    have hrest := fun classes => ih classes fun g hg => h g (List.mem_cons_of_mem f hg)
    simp only [functions, function_congr f classes (h f List.mem_cons_self), hrest]

end Link

/-! ### Linking with more builtins -/

namespace Program

variable {p : Program} {r r' : Registry} {firstClass : Nat} {linked : LinkedProgram}

/-- A name that the program can refer to keeps its meaning: that of a function
comes first, with whatever builtins. -/
theorem scope_resolve_extends (h : r.Extends r') {name : String} (hname : name ∈ p.known r) :
    (p.scope firstClass r').resolve name = (p.scope firstClass r).resolve name := by
  unfold Link.Scope.resolve
  by_cases hfunction : name ∈ p.functions.map (·.name)
  · obtain ⟨index, hindex⟩ := Option.isSome_iff_exists.mp (List.isSome_idxOf?.mpr hfunction)
    simp only [scope, hindex]
  · have hbuiltin : name ∈ r.names := (List.mem_append.mp hname).resolve_left hfunction
    simp only [scope, h.resolve hbuiltin]

theorem scope_agreesOn_extends (h : r.Extends r') {f : FunctionDef}
    (hf : f.WellFormed (p.known r)) :
    (p.scope firstClass r).AgreesOn f.references (p.scope firstClass r') where
  resolve name hname := scope_resolve_extends h (hf.name_known name hname)
  firstClass := rfl

/-- A program that links against a registry links against one with more
builtins, to the same tree. -/
theorem linkFrom_extends (h : r.Extends r') (hlink : p.linkFrom firstClass r = .ok linked) :
    p.linkFrom firstClass r' = .ok linked := by
  have hwell := linkFrom_wellFormed hlink
  have hagree : ∀ f ∈ p.functions ++ [p.main],
      (p.scope firstClass r).AgreesOn f.references (p.scope firstClass r') :=
    fun f hf => scope_agreesOn_extends h (hwell.functions f hf)
  have hfunctions := Link.functions_congr p.functions [] fun f hf =>
    hagree f (List.mem_append_left [p.main] hf)
  have hmain := fun classes => Link.function_congr p.main classes
    (hagree p.main (List.mem_append_right p.functions List.mem_cons_self))
  rw [linkFrom_eq] at hlink ⊢
  simp only [hfunctions, hmain]
  exact hlink

end Program

namespace Machine

/-- Builtins that are added after others change nothing for a program that
links without them: it links with them to the same tree, with the same
targets and constants, and every session of the one program is one of the
other, in the same surroundings: the readings of the clock, the addresses of
objects and the hasher. -/
theorem session_more_builtins {sources extra : List (List Builtin.Entry)} {r r' : Registry}
    {p : Program} {firstClass : Nat} {linked : LinkedProgram}
    (hr : Registry.ofSources sources = .ok r) (hr' : Registry.ofSources (sources ++ extra) = .ok r')
    (hlink : p.linkFrom firstClass r = .ok linked) :
    ∃ linked', p.linkFrom firstClass r' = .ok linked' ∧ linked' = linked ∧
      ∀ policy mode heap surroundings requests,
        session policy linked' (.initial linked' mode heap surroundings) requests =
          session policy linked (.initial linked mode heap surroundings) requests := by
  have hextends := Registry.extends_of_ofSources hr hr'
  have hlink' := Program.linkFrom_extends hextends hlink
  refine ⟨linked, hlink', rfl, ?_⟩
  intro policy mode heap surroundings requests
  rfl

/-- A source with a builtin `relay`, which `alarm` defines as a function. -/
def relaySource : List Builtin.Entry :=
  [{ name := "relay", variadic := true, arity := 0, run := Builtin.print }]

/-- `alarm` calls its own `relay`, whether or not there is a builtin of that
name. -/
theorem session_alarm_relay :
    ∃ r', Registry.ofSources [Builtin.core] = .ok .core ∧
      Registry.ofSources ([Builtin.core] ++ [relaySource]) = .ok r' ∧
      r'.contains "relay" = true ∧ alarm.linkFrom 0 .core = .ok linkedAlarm ∧
      ∃ linked', alarm.linkFrom 0 r' = .ok linked' ∧ linked' = linkedAlarm ∧
        ∀ policy mode heap surroundings requests,
          session policy linked' (.initial linked' mode heap surroundings) requests =
            session policy linkedAlarm (.initial linkedAlarm mode heap surroundings) requests := by
  have hr := Registry.ofSources_core
  have hr' : Registry.ofSources ([Builtin.core] ++ [relaySource]) =
      .ok ⟨Builtin.core ++ relaySource⟩ := rfl
  have hlink : alarm.linkFrom 0 .core = .ok linkedAlarm := rfl
  exact ⟨_, hr, hr', rfl, hlink, session_more_builtins hr hr' hlink⟩

end Machine

end AdaptiveScript
