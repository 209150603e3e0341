import AdaptiveScript.Program.Basic

/-! # Trees and Their Numbers

  Operator and call nodes carry numbers, and everything else about a tree is
  its shape. Here the two are taken apart. `Expr.erase` is the shape of a
  tree; `Expr.sites` and `Expr.calls` list the numbers of its operator nodes
  and of its calls, each node after its operands and left before right.

  Nothing else is in a tree: one that has the shape of another and numbers
  that correspond to those of the other is the other with its numbers
  replaced (`eq_renumberBody`).
-/

namespace AdaptiveScript

variable {ι κ : Type}

/-! ### Replacing and erasing numbers -/

namespace Expr

mutual

/-- The expression with the number of every operator node replaced by `site`,
and that of every call by `call`. -/
def renumber (site call : ι → κ) : Expr ι → Expr κ
  | .lit v => .lit v
  | .list items => .list (renumberAll site call items)
  | .var slot => .var slot
  | .binary op left right id =>
    .binary op (left.renumber site call) (right.renumber site call) (site id)
  | .call callee args id location =>
    .call callee (renumberAll site call args) (call id) location
  | .functionRef name => .functionRef name
  | .new cls fields => .new cls (renumberFields site call fields)
  | .field object name => .field (object.renumber site call) name

/-- Expressions with their numbers replaced. -/
def renumberAll (site call : ι → κ) : List (Expr ι) → List (Expr κ)
  | [] => []
  | e :: es => e.renumber site call :: renumberAll site call es

/-- Field values with their numbers replaced. -/
def renumberFields (site call : ι → κ) : List (String × Expr ι) → List (String × Expr κ)
  | [] => []
  | (name, e) :: es => (name, e.renumber site call) :: renumberFields site call es

end

/-- The expression without its numbers. -/
def erase (e : Expr ι) : Expr Unit := e.renumber (fun _ => ()) (fun _ => ())

/-- Expressions without their numbers. -/
def eraseAll (es : List (Expr ι)) : List (Expr Unit) :=
  renumberAll (fun _ => ()) (fun _ => ()) es

/-- Field values without their numbers. -/
def eraseFields (es : List (String × Expr ι)) : List (String × Expr Unit) :=
  renumberFields (fun _ => ()) (fun _ => ()) es

/-! ### Numbers in order -/

mutual

/-- The operators of an expression with the numbers of their nodes, operands
first and left before right. -/
def sites : Expr ι → List (Operator × ι)
  | .lit _ => []
  | .list items => sitesAll items
  | .var _ => []
  | .binary op left right id => left.sites ++ right.sites ++ [(op, id)]
  | .call _ args _ _ => sitesAll args
  | .functionRef _ => []
  | .new _ fields => sitesFields fields
  | .field object _ => object.sites

/-- The operators of expressions with their numbers, from left to right. -/
def sitesAll : List (Expr ι) → List (Operator × ι)
  | [] => []
  | e :: es => e.sites ++ sitesAll es

/-- The operators of field values with their numbers, from left to right. -/
def sitesFields : List (String × Expr ι) → List (Operator × ι)
  | [] => []
  | (_, e) :: es => e.sites ++ sitesFields es

end

mutual

/-- The numbers of the calls of an expression, arguments first. -/
def calls : Expr ι → List ι
  | .lit _ => []
  | .list items => callsAll items
  | .var _ => []
  | .binary _ left right _ => left.calls ++ right.calls
  | .call _ args id _ => callsAll args ++ [id]
  | .functionRef _ => []
  | .new _ fields => callsFields fields
  | .field object _ => object.calls

/-- The numbers of the calls of expressions, from left to right. -/
def callsAll : List (Expr ι) → List ι
  | [] => []
  | e :: es => e.calls ++ callsAll es

/-- The numbers of the calls of field values, from left to right. -/
def callsFields : List (String × Expr ι) → List ι
  | [] => []
  | (_, e) :: es => e.calls ++ callsFields es

end

theorem sitesAll_append (es es' : List (Expr ι)) :
    sitesAll (es ++ es') = sitesAll es ++ sitesAll es' := by
  induction es with
  | nil => rfl
  | cons e es ih => rw [List.cons_append, sitesAll, sitesAll, ih, List.append_assoc]

theorem callsAll_append (es es' : List (Expr ι)) :
    callsAll (es ++ es') = callsAll es ++ callsAll es' := by
  induction es with
  | nil => rfl
  | cons e es ih => rw [List.cons_append, callsAll, callsAll, ih, List.append_assoc]

/-! The numbers after a replacement. -/

mutual

theorem sites_renumber (site call : ι → κ) : ∀ e : Expr ι,
    (e.renumber site call).sites = e.sites.map fun x => (x.1, site x.2)
  | .lit v => by simp [renumber, sites]
  | .list items => by simp [renumber, sites, sitesAll_renumber site call items]
  | .var slot => by simp [renumber, sites]
  | .binary op left right id => by
    simp [renumber, sites, sites_renumber site call left, sites_renumber site call right]
  | .call callee args id location => by simp [renumber, sites, sitesAll_renumber site call args]
  | .functionRef name => by simp [renumber, sites]
  | .new cls fields => by simp [renumber, sites, sitesFields_renumber site call fields]
  | .field object name => by simp [renumber, sites, sites_renumber site call object]

theorem sitesAll_renumber (site call : ι → κ) : ∀ es : List (Expr ι),
    sitesAll (renumberAll site call es) = (sitesAll es).map fun x => (x.1, site x.2)
  | [] => by simp [renumberAll, sitesAll]
  | e :: es => by
    simp [renumberAll, sitesAll, sites_renumber site call e, sitesAll_renumber site call es]

theorem sitesFields_renumber (site call : ι → κ) : ∀ es : List (String × Expr ι),
    sitesFields (renumberFields site call es) = (sitesFields es).map fun x => (x.1, site x.2)
  | [] => by simp [renumberFields, sitesFields]
  | (name, e) :: es => by
    simp [renumberFields, sitesFields, sites_renumber site call e,
      sitesFields_renumber site call es]

end

mutual

theorem calls_renumber (site call : ι → κ) : ∀ e : Expr ι,
    (e.renumber site call).calls = e.calls.map call
  | .lit v => by simp [renumber, calls]
  | .list items => by simp [renumber, calls, callsAll_renumber site call items]
  | .var slot => by simp [renumber, calls]
  | .binary op left right id => by
    simp [renumber, calls, calls_renumber site call left, calls_renumber site call right]
  | .call callee args id location => by simp [renumber, calls, callsAll_renumber site call args]
  | .functionRef name => by simp [renumber, calls]
  | .new cls fields => by simp [renumber, calls, callsFields_renumber site call fields]
  | .field object name => by simp [renumber, calls, calls_renumber site call object]

theorem callsAll_renumber (site call : ι → κ) : ∀ es : List (Expr ι),
    callsAll (renumberAll site call es) = (callsAll es).map call
  | [] => by simp [renumberAll, callsAll]
  | e :: es => by
    simp [renumberAll, callsAll, calls_renumber site call e, callsAll_renumber site call es]

theorem callsFields_renumber (site call : ι → κ) : ∀ es : List (String × Expr ι),
    callsFields (renumberFields site call es) = (callsFields es).map call
  | [] => by simp [renumberFields, callsFields]
  | (name, e) :: es => by
    simp [renumberFields, callsFields, calls_renumber site call e,
      callsFields_renumber site call es]

end

/-! ### Shape and numbers determine the tree -/

/-- Numbers that correspond to each other, of trees with one shape. -/
structure Corresponds (site call : ι → κ) (sites : List (Operator × ι)) (calls : List ι)
    (sites' : List (Operator × κ)) (calls' : List κ) : Prop where
  sites : sites'.map (·.2) = sites.map fun x => site x.2
  calls : calls' = calls.map call

/-- Where two stretches correspond to two others of the same lengths, the
first ones correspond, and the second ones. -/
theorem Corresponds.split {site call : ι → κ} {s t : List (Operator × ι)} {c d : List ι}
    {s' t' : List (Operator × κ)} {c' d' : List κ}
    (h : Corresponds site call (s ++ t) (c ++ d) (s' ++ t') (c' ++ d'))
    (hsites : s'.length = s.length) (hcalls : c'.length = c.length) :
    Corresponds site call s c s' c' ∧ Corresponds site call t d t' d' := by
  obtain ⟨hs, hc⟩ := h
  rw [List.map_append, List.map_append] at hs
  rw [List.map_append] at hc
  obtain ⟨hs₁, hs₂⟩ := List.append_inj hs (by simp [hsites])
  obtain ⟨hc₁, hc₂⟩ := List.append_inj hc (by simp [hcalls])
  exact ⟨⟨hs₁, hc₁⟩, ⟨hs₂, hc₂⟩⟩

/-- An operator node that comes last. -/
theorem Corresponds.last_site {site call : ι → κ} {s : List (Operator × ι)} {c : List ι}
    {s' : List (Operator × κ)} {c' : List κ} {x : Operator × ι} {x' : Operator × κ}
    (h : Corresponds site call (s ++ [x]) c (s' ++ [x']) c') :
    Corresponds site call s c s' c' ∧ x'.2 = site x.2 := by
  obtain ⟨hs, hc⟩ := h
  rw [List.map_append, List.map_append] at hs
  obtain ⟨hs, hid⟩ := List.append_inj' hs rfl
  exact ⟨⟨hs, hc⟩, List.singleton_inj.mp hid⟩

/-- A call that comes last. -/
theorem Corresponds.last_call {site call : ι → κ} {s : List (Operator × ι)} {c : List ι}
    {s' : List (Operator × κ)} {c' : List κ} {id : ι} {id' : κ}
    (h : Corresponds site call s (c ++ [id]) s' (c' ++ [id'])) :
    Corresponds site call s c s' c' ∧ id' = call id := by
  obtain ⟨hs, hc⟩ := h
  rw [List.map_append] at hc
  obtain ⟨hc, hid⟩ := List.append_inj' hc rfl
  exact ⟨⟨hs, hc⟩, List.singleton_inj.mp hid⟩

/-- The numbers of two expressions with one shape, and what follows them. -/
theorem Corresponds.split_expr {site call : ι → κ} {e : Expr ι} {e' : Expr κ}
    {t : List (Operator × ι)} {d : List ι} {t' : List (Operator × κ)} {d' : List κ}
    (h : Corresponds site call (e.sites ++ t) (e.calls ++ d) (e'.sites ++ t') (e'.calls ++ d'))
    (herase : e'.erase = e.erase) :
    Corresponds site call e.sites e.calls e'.sites e'.calls ∧ Corresponds site call t d t' d' := by
  have hsites := congrArg (fun x => x.sites.length) herase
  have hcalls := congrArg (fun x => x.calls.length) herase
  simp only [erase, sites_renumber, calls_renumber, List.length_map] at hsites hcalls
  exact h.split hsites hcalls

/-- The numbers of two lists of expressions with one shape, and what follows
them. -/
theorem Corresponds.split_exprs {site call : ι → κ} {es : List (Expr ι)} {es' : List (Expr κ)}
    {t : List (Operator × ι)} {d : List ι} {t' : List (Operator × κ)} {d' : List κ}
    (h : Corresponds site call (sitesAll es ++ t) (callsAll es ++ d) (sitesAll es' ++ t')
      (callsAll es' ++ d')) (herase : eraseAll es' = eraseAll es) :
    Corresponds site call (sitesAll es) (callsAll es) (sitesAll es') (callsAll es') ∧
      Corresponds site call t d t' d' := by
  have hsites := congrArg (fun x => (sitesAll x).length) herase
  have hcalls := congrArg (fun x => (callsAll x).length) herase
  simp only [eraseAll, sitesAll_renumber, callsAll_renumber, List.length_map] at hsites hcalls
  exact h.split hsites hcalls

mutual

theorem eq_renumber {site call : ι → κ} : ∀ {e : Expr ι} {e' : Expr κ}, e'.erase = e.erase →
    Corresponds site call e.sites e.calls e'.sites e'.calls → e' = e.renumber site call
  | .lit v, e', herase, _ => by
    cases e' <;> simp_all [erase, renumber]
  | .list items, e', herase, h => by
    cases e' <;> simp only [erase, renumber, reduceCtorEq, list.injEq] at herase
    rw [renumber, ← eq_renumberAll herase h]
  | .var slot, e', herase, _ => by
    cases e' <;> simp_all [erase, renumber]
  | .binary op left right id, e', herase, h => by
    cases e' <;> simp only [erase, renumber, reduceCtorEq, binary.injEq, and_true] at herase
    obtain ⟨hop, hleft, hright⟩ := herase
    simp only [sites, calls] at h
    obtain ⟨hoperands, hid⟩ := h.last_site
    obtain ⟨hl, hr⟩ := hoperands.split_expr hleft
    rw [renumber, ← eq_renumber hleft hl, ← eq_renumber hright hr, ← hid, hop]
  | .call callee args id location, e', herase, h => by
    cases e' <;> simp only [erase, renumber, reduceCtorEq, Expr.call.injEq, true_and] at herase
    obtain ⟨hcallee, hargs, hlocation⟩ := herase
    simp only [sites, calls] at h
    obtain ⟨hnumbers, hid⟩ := h.last_call
    rw [renumber, ← eq_renumberAll hargs hnumbers, ← hid, hcallee, hlocation]
  | .functionRef name, e', herase, _ => by
    cases e' <;> simp_all [erase, renumber]
  | .new cls fields, e', herase, h => by
    cases e' <;> simp only [erase, renumber, reduceCtorEq, new.injEq] at herase
    obtain ⟨hcls, hfields⟩ := herase
    rw [renumber, ← eq_renumberFields hfields h, hcls]
  | .field object name, e', herase, h => by
    cases e' <;> simp only [erase, renumber, reduceCtorEq, field.injEq] at herase
    obtain ⟨hobject, hname⟩ := herase
    rw [renumber, ← eq_renumber hobject h, hname]

theorem eq_renumberAll {site call : ι → κ} : ∀ {es : List (Expr ι)} {es' : List (Expr κ)},
    eraseAll es' = eraseAll es →
    Corresponds site call (sitesAll es) (callsAll es) (sitesAll es') (callsAll es') →
    es' = renumberAll site call es
  | [], es', herase, _ => by
    cases es' <;> simp_all [eraseAll, renumberAll]
  | e :: es, es', herase, h => by
    cases es' with
    | nil => simp [eraseAll, renumberAll] at herase
    | cons e' es' =>
      simp only [eraseAll, renumberAll, List.cons.injEq] at herase
      obtain ⟨he, hes⟩ := herase
      obtain ⟨hhead, htail⟩ := h.split_expr he
      rw [renumberAll, ← eq_renumber he hhead, ← eq_renumberAll hes htail]

theorem eq_renumberFields {site call : ι → κ} :
    ∀ {es : List (String × Expr ι)} {es' : List (String × Expr κ)},
    eraseFields es' = eraseFields es →
    Corresponds site call (sitesFields es) (callsFields es) (sitesFields es') (callsFields es') →
    es' = renumberFields site call es
  | [], es', herase, _ => by
    cases es' <;> simp_all [eraseFields, renumberFields]
  | (name, e) :: es, es', herase, h => by
    cases es' with
    | nil => simp [eraseFields, renumberFields] at herase
    | cons e' es' =>
      obtain ⟨name', e'⟩ := e'
      simp only [eraseFields, renumberFields, List.cons.injEq, Prod.mk.injEq] at herase
      obtain ⟨⟨hname, he⟩, hes⟩ := herase
      obtain ⟨hhead, htail⟩ := h.split_expr he
      rw [renumberFields, ← eq_renumber he hhead, ← eq_renumberFields hes htail, hname]

end

end Expr

/-! ### Statements and functions -/

namespace Stmt

/-- The expressions of a statement, in the order of evaluation. -/
def exprs : Stmt ι → List (Expr ι)
  | .expr e => [e]
  | .assign _ value => [value]
  | .setField object _ value => [object, value]
  | .ret none => []
  | .ret (some value) => [value]
  | .raise value _ => [value]

/-- The statement with its numbers replaced. -/
def renumber (site call : ι → κ) : Stmt ι → Stmt κ
  | .expr e => .expr (e.renumber site call)
  | .assign slot value => .assign slot (value.renumber site call)
  | .setField object name value =>
    .setField (object.renumber site call) name (value.renumber site call)
  | .ret value => .ret (value.map (·.renumber site call))
  | .raise value location => .raise (value.renumber site call) location

/-- The statement without its numbers. -/
def erase (s : Stmt ι) : Stmt Unit := s.renumber (fun _ => ()) (fun _ => ())

theorem exprs_renumber (site call : ι → κ) (s : Stmt ι) :
    (s.renumber site call).exprs = Expr.renumberAll site call s.exprs := by
  cases s with
  | ret value => cases value <;> rfl
  | _ => rfl

/-- The expressions of statements with one shape have one shape. -/
theorem eraseAll_exprs {s : Stmt ι} {s' : Stmt κ} (h : s'.erase = s.erase) :
    Expr.eraseAll s'.exprs = Expr.eraseAll s.exprs := by
  have hexprs := congrArg exprs h
  rwa [erase, exprs_renumber, erase, exprs_renumber] at hexprs

theorem eq_renumber {site call : ι → κ} {s : Stmt ι} {s' : Stmt κ} (herase : s'.erase = s.erase)
    (h : Expr.Corresponds site call (Expr.sitesAll s.exprs) (Expr.callsAll s.exprs)
      (Expr.sitesAll s'.exprs) (Expr.callsAll s'.exprs)) : s' = s.renumber site call := by
  have hexprs := Expr.eq_renumberAll (eraseAll_exprs herase) h
  -- the rest of a statement is in its shape
  cases s with
  | ret value =>
    cases s' with
    | ret value' =>
      cases value <;> cases value' <;> simp_all [exprs, renumber, Expr.renumberAll]
    | _ => simp [erase, renumber] at herase
  | _ => cases s' <;> simp_all [erase, renumber, exprs, Expr.renumberAll]

/-- The expressions of a body, in order. -/
def bodyExprs (body : List (Stmt ι)) : List (Expr ι) := body.flatMap (·.exprs)

/-- The operators of a body with the numbers of their nodes, in order. -/
def bodySites (body : List (Stmt ι)) : List (Operator × ι) := Expr.sitesAll (bodyExprs body)

/-- The numbers of the calls of a body, in order. -/
def bodyCalls (body : List (Stmt ι)) : List ι := Expr.callsAll (bodyExprs body)

theorem bodySites_cons (s : Stmt ι) (body : List (Stmt ι)) :
    bodySites (s :: body) = Expr.sitesAll s.exprs ++ bodySites body := by
  rw [bodySites, bodyExprs, List.flatMap_cons, Expr.sitesAll_append]
  rfl

theorem bodyCalls_cons (s : Stmt ι) (body : List (Stmt ι)) :
    bodyCalls (s :: body) = Expr.callsAll s.exprs ++ bodyCalls body := by
  rw [bodyCalls, bodyExprs, List.flatMap_cons, Expr.callsAll_append]
  rfl

theorem bodySites_renumber (site call : ι → κ) (body : List (Stmt ι)) :
    bodySites (body.map (·.renumber site call)) = (bodySites body).map fun x => (x.1, site x.2) := by
  induction body with
  | nil => rfl
  | cons s body ih =>
    rw [List.map_cons, bodySites_cons, bodySites_cons, exprs_renumber, Expr.sitesAll_renumber, ih,
      List.map_append]

theorem bodyCalls_renumber (site call : ι → κ) (body : List (Stmt ι)) :
    bodyCalls (body.map (·.renumber site call)) = (bodyCalls body).map call := by
  induction body with
  | nil => rfl
  | cons s body ih =>
    rw [List.map_cons, bodyCalls_cons, bodyCalls_cons, exprs_renumber, Expr.callsAll_renumber, ih,
      List.map_append]

/-- Bodies with one shape have the same operators. -/
theorem operators_of_erase {body : List (Stmt ι)} {body' : List (Stmt κ)}
    (h : body'.map erase = body.map erase) :
    (bodySites body').map (·.1) = (bodySites body).map (·.1) := by
  have hshape : ∀ {μ : Type} (b : List (Stmt μ)),
      (bodySites (b.map erase)).map (·.1) = (bodySites b).map (·.1) := by
    intro μ b
    have hsites := bodySites_renumber (fun _ => ()) (fun _ => ()) b
    exact (congrArg (List.map (·.1)) hsites).trans (List.map_map ..)
  rw [← hshape, h, hshape]

/-- Bodies with one shape have equally many calls. -/
theorem length_calls_of_erase {body : List (Stmt ι)} {body' : List (Stmt κ)}
    (h : body'.map erase = body.map erase) :
    (bodyCalls body').length = (bodyCalls body).length := by
  have hshape : ∀ {μ : Type} (b : List (Stmt μ)),
      (bodyCalls (b.map erase)).length = (bodyCalls b).length := by
    intro μ b
    have hcalls := bodyCalls_renumber (fun _ => ()) (fun _ => ()) b
    exact (congrArg List.length hcalls).trans (List.length_map ..)
  rw [← hshape, h, hshape]

/-- A body with the shape of another one and numbers that correspond to those
of the other is the other one with its numbers replaced. -/
theorem eq_renumberBody {site call : ι → κ} {body : List (Stmt ι)} {body' : List (Stmt κ)}
    (herase : body'.map erase = body.map erase)
    (h : Expr.Corresponds site call (bodySites body) (bodyCalls body) (bodySites body')
      (bodyCalls body')) : body' = body.map (·.renumber site call) := by
  induction body generalizing body' with
  | nil => simpa using herase
  | cons s body ih =>
    cases body' with
    | nil => simp at herase
    | cons s' body' =>
      rw [List.map_cons, List.map_cons, List.cons.injEq] at herase
      obtain ⟨hs, hrest⟩ := herase
      rw [bodySites_cons, bodySites_cons, bodyCalls_cons, bodyCalls_cons] at h
      obtain ⟨hfirst, hrest'⟩ := h.split_exprs (eraseAll_exprs hs)
      rw [List.map_cons, ← eq_renumber hs hfirst, ← ih hrest hrest']

end Stmt

/-- The operators of the body, each with the number of its node, operands
first and left before right. -/
def FunctionDef.sites (f : FunctionDef) : List (Operator × Nat) := Stmt.bodySites f.body

/-- The numbers of the calls of the body, arguments first and left before
right. -/
def FunctionDef.calls (f : FunctionDef) : List Nat := Stmt.bodyCalls f.body

end AdaptiveScript
