import AdaptiveScript.Proofs.Linked.Erasure
import AdaptiveScript.Proofs.Program.Numbering
import Mathlib.Data.List.Nodup

/-! # Linking What Was Built

  Linking looks at a node before its operands, and a builder numbers it after
  them. What linking asks of numbers does not depend on the order: each lies
  below its bound and is used once. The numbers that a builder hands out are
  such, so the only numbers that linking can object to in a function that was
  built are slots, and only those that its builder has not handed out.

  The place of a node among the nodes with state is counted after its operands
  again. So the number that the builder has given to an operator node is its
  place in the linked function (`Script.program_agrees`).
-/

namespace AdaptiveScript

/-! ### Numbers among the references -/

/-- The numbers among references are those of operator nodes and calls, each as
often as there. -/
structure Counted (refs : List Reference) (sites : List (Operator × Nat)) (calls : List Nat) :
    Prop where
  site : ∀ id, refs.count (.site id) = (sites.map (·.2)).count id
  call : ∀ id, refs.count (.call id) = calls.count id

namespace Counted

variable {refs refs' : List Reference} {sites sites' : List (Operator × Nat)}
  {calls calls' : List Nat}

theorem nil : Counted [] [] [] := ⟨fun _ => rfl, fun _ => rfl⟩

theorem append (h : Counted refs sites calls) (h' : Counted refs' sites' calls') :
    Counted (refs ++ refs') (sites ++ sites') (calls ++ calls') := by
  refine ⟨fun id => ?_, fun id => ?_⟩
  · rw [List.map_append, List.count_append, List.count_append, h.site, h'.site]
  · rw [List.count_append, List.count_append, h.call, h'.call]

theorem slot (slot : Nat) (h : Counted refs sites calls) :
    Counted (.slot slot :: refs) sites calls := by
  refine ⟨fun id => ?_, fun id => ?_⟩
  · rw [List.count_cons_of_ne (by simp), h.site]
  · rw [List.count_cons_of_ne (by simp), h.call]

theorem name (name : String) (h : Counted refs sites calls) :
    Counted (.name name :: refs) sites calls := by
  refine ⟨fun id => ?_, fun id => ?_⟩
  · rw [List.count_cons_of_ne (by simp), h.site]
  · rw [List.count_cons_of_ne (by simp), h.call]

/-- An operator node, which is looked at first and finished last. -/
theorem binary (op : Operator) (id : Nat) (h : Counted refs sites calls) :
    Counted (.site id :: refs) (sites ++ [(op, id)]) calls := by
  refine ⟨fun id' => ?_, fun id' => ?_⟩
  · rw [List.map_append, List.count_append, List.count_cons, h.site]
    simp [List.count_cons, List.count_nil]
  · rw [List.count_cons_of_ne (by simp), h.call]

/-- A call, which is looked at first and finished last. -/
theorem invocation (id : Nat) (h : Counted refs sites calls) :
    Counted (.call id :: refs) sites (calls ++ [id]) := by
  refine ⟨fun id' => ?_, fun id' => ?_⟩
  · rw [List.count_cons_of_ne (by simp), h.site]
  · rw [List.count_append, List.count_cons, h.call]
    simp [List.count_cons, List.count_nil]

end Counted

namespace Expr

mutual

theorem counted : ∀ e : Expr Nat, Counted e.references e.sites e.calls
  | .lit _ => .nil
  | .list items => countedAll items
  | .var slot => .slot slot .nil
  | .binary op left right id => ((counted left).append (counted right)).binary op id
  | .call callee args id _ => ((countedAll args).name callee).invocation id
  | .functionRef name => .name name .nil
  | .new _ fields => countedFields fields
  | .field object _ => counted object

theorem countedAll : ∀ es : List (Expr Nat), Counted (referencesAll es) (sitesAll es) (callsAll es)
  | [] => .nil
  | e :: es => (counted e).append (countedAll es)

theorem countedFields : ∀ es : List (String × Expr Nat),
    Counted (referencesFields es) (sitesFields es) (callsFields es)
  | [] => .nil
  | (_, e) :: es => (counted e).append (countedFields es)

end

end Expr

theorem Stmt.counted (s : Stmt Nat) :
    Counted s.references (Expr.sitesAll s.exprs) (Expr.callsAll s.exprs) := by
  have hone : ∀ e : Expr Nat, Counted e.references (Expr.sitesAll [e]) (Expr.callsAll [e]) := by
    intro e
    simpa only [Expr.referencesAll, List.append_nil] using Expr.countedAll [e]
  cases s with
  | expr e => exact hone e
  | assign slot value => exact (hone value).slot slot
  | setField object name value => exact (Expr.counted object).append (hone value)
  | ret value =>
    cases value with
    | none => exact .nil
    | some value => exact hone value
  | raise value location => exact hone value

/-- The numbers among the references of a function are those of its nodes. -/
theorem FunctionDef.counted (f : FunctionDef) : Counted f.references f.sites f.calls := by
  have hbody : ∀ body : List (Stmt Nat), Counted (body.flatMap (·.references))
      (Stmt.bodySites body) (Stmt.bodyCalls body) := by
    intro body
    induction body with
    | nil => exact .nil
    | cons s body ih =>
      rw [List.flatMap_cons, Stmt.bodySites_cons, Stmt.bodyCalls_cons]
      exact s.counted.append ih
  have hparams : ∀ params : List Nat, Counted (params.map .slot) [] [] := by
    intro params
    induction params with
    | nil => exact .nil
    | cons slot params ih => exact ih.slot slot
  exact (hparams f.params).append (hbody f.body)

/-! ### What linking can object to -/

/-- Among references in which the numbers of one kind are dense, each is below
the bound and stands nowhere before. -/
theorem below_and_new {refs passed rest : List Reference} {r : Reference} {id n : Nat}
    (hrefs : refs = passed ++ r :: rest) (hcount : refs.count r = (List.range n).count id) :
    id < n ∧ r ∉ passed := by
  rw [hrefs, List.count_append, List.count_cons_self] at hcount
  have hpos : 0 < (List.range n).count id := by omega
  have honce : (List.range n).count id ≤ 1 :=
    List.nodup_iff_count_le_one.mp List.nodup_range id
  refine ⟨List.mem_range.mp (List.count_pos_iff.mp hpos), fun hmem => ?_⟩
  have hpassed : 0 < passed.count r := List.count_pos_iff.mpr hmem
  omega

namespace Script

variable {script : Script}

/-- A statement uses a slot that its builder has not handed out. -/
def UsesForeign (script : Script) (slot : Nat) : Prop :=
  slot ∉ script.slots ∧ ∃ st ∈ script.build.body, .slot slot ∈ st.references

/-- A number of a function that was built is objected to only if it is a slot
that was not handed out. -/
theorem Numbered.invalid (h : script.Numbered) {known : List String} {name : String}
    {kind : IdKind} {id : Nat} (hfail : script.build.FirstFailure known [] script.build.references
      (.invalidId name kind id)) :
    kind = .slot ∧ name = script.name ∧ script.UsesForeign id := by
  obtain ⟨passed, r, rest, hrefs, -, hnot, herror⟩ := hfail
  rw [List.nil_append] at hnot
  cases r with
  | name n => cases herror
  | site n =>
    have hcount := script.build.counted.site n
    rw [h.sites] at hcount
    exact absurd (below_and_new hrefs hcount) hnot
  | call n =>
    have hcount := script.build.counted.call n
    rw [h.calls] at hcount
    exact absurd (below_and_new hrefs hcount) hnot
  | slot n =>
    cases herror
    have hforeign : id ∉ script.slots := by
      rw [h.slots, List.mem_range]
      exact hnot
    have hmem : .slot id ∈ script.build.references := by
      rw [hrefs]
      exact List.mem_append_right _ List.mem_cons_self
    refine ⟨rfl, script.build_name, hforeign, ?_⟩
    rcases List.mem_append.mp hmem with hparam | hbody
    · -- the slots of parameters were handed out
      obtain ⟨slot, hslot, heq⟩ := List.mem_map.mp hparam
      cases heq
      exact absurd (h.params id hslot) hforeign
    · exact List.mem_flatMap.mp hbody

end Script

/-! ### Numbers and places -/

/-- The operator nodes of a linked function stand in the places that their
numbers say. -/
structure LinkedFunction.KeepsNumbers (names : List String) (f : FunctionDef)
    (g : LinkedFunction) : Prop where
  /-- Read back with places for numbers, the body is the body of the function. -/
  body : StmtNode.readBackAll? names g.body = some (f.body.map (·.renumber some fun _ => none))
  /-- The site at a position is that of the node with the position as its
  number. -/
  sites : ∀ (fs : FunctionState) {op : Operator} {k : Nat}, (op, k) ∈ f.sites →
    (g.operatorSites fs)[k]? = some (op, fs.site k)
  length : ∀ fs : FunctionState, (g.operatorSites fs).length = f.siteCount

/-- In the linked form of a function whose numbers are dense, operator nodes
keep their numbers as places. -/
theorem LinkedFunction.Represents.keepsNumbers {names : List String} {registry : Registry}
    {f : FunctionDef} {g : LinkedFunction} (h : g.Represents names registry f)
    (hdense : f.sites.map (·.2) = List.range f.siteCount) : g.KeepsNumbers names f := by
  obtain ⟨body, hread, hout⟩ := Option.bind_eq_some_iff.mp h.outline
  have herase : body.map (·.erase) = f.body.map (·.erase) :=
    congrArg Outline.body (Option.some.inj hout)
  have hback := StmtNode.sites_readBackAll hread
  have hoperators : (Node.sitesAll g.nodes).map (·.1) = f.sites.map (·.1) := by
    have hshape := Stmt.operators_of_erase herase
    rw [hback.sites, List.map_map] at hshape
    exact hshape
  -- places and numbers are counted alike, so the nodes are the same in the same order
  have hlength : (Node.sitesAll g.nodes).length = f.sites.length := by
    simpa only [List.length_map] using congrArg List.length hoperators
  have hplaces : (Node.sitesAll g.nodes).map (·.2) = f.sites.map (·.2) := by
    have hsize := congrArg List.length h.own
    have hcount := congrArg List.length hdense
    rw [List.length_map, List.length_range] at hsize hcount
    rw [h.own, hdense, ← hsize, ← hcount, hlength]
  have hsites : Node.sitesAll g.nodes = f.sites :=
    (List.zip_of_prod hoperators hplaces).trans (List.zip_of_prod rfl rfl).symm
  have hbody : body = f.body.map (·.renumber some fun _ => none) := by
    refine Stmt.eq_renumberBody herase ⟨?_, ?_⟩
    · rw [hback.sites, List.map_map]
      exact congrArg (List.map fun x => some x.2) hsites
    · rw [List.map_const', ← Stmt.length_calls_of_erase herase]
      exact List.eq_replicate_iff.mpr ⟨rfl, hback.calls⟩
  refine ⟨hbody ▸ hread, ?_, ?_⟩
  · intro fs op k hmem
    obtain ⟨i, hi⟩ := List.getElem?_of_mem hmem
    have hnumber : (List.range f.siteCount)[i]? = some k := by
      rw [← hdense, List.getElem?_map, hi]
      rfl
    obtain ⟨hlt, hik⟩ := List.getElem?_eq_some_iff.mp hnumber
    rw [List.getElem_range] at hik
    rw [LinkedFunction.operatorSites, hsites, List.getElem?_map, ← hik, hi, ← hik]
    rfl
  · intro fs
    have hcount := congrArg List.length hdense
    rw [List.length_map, List.length_range] at hcount
    rw [LinkedFunction.operatorSites, List.length_map, hsites, hcount]

/-! ### Programs that were built -/

theorem Program.mem_of_at {p : Program} {key : FunctionKey} {f : FunctionDef}
    (h : p.at? key = some f) : f ∈ p.functions ++ [p.main] := by
  cases key with
  | user index => exact List.mem_append_left _ (List.mem_of_getElem? h)
  | main =>
    cases h
    exact List.mem_append_right _ List.mem_cons_self

namespace Script

/-- The program of functions that are built. -/
def program (source : String) (functions : List Script) (main : Script) : Program :=
  { source, functions := functions.map (·.build), main := main.build }

/-- A function of a program that was built has a script. -/
theorem exists_of_mem {source : String} {functions : List Script} {main : Script}
    {f : FunctionDef}
    (h : f ∈ (program source functions main).functions ++ [(program source functions main).main]) :
    ∃ script ∈ functions ++ [main], script.build = f := by
  have hall : (program source functions main).functions ++ [(program source functions main).main] =
      (functions ++ [main]).map (·.build) := by
    rw [List.map_append]
    rfl
  rw [hall] at h
  exact List.mem_map.mp h

/-- Where no node brings a number of its own and the numbers suffice, the
builder and linking agree on them: the numbers of every function are dense; the
only numbers that linking can object to are slots that were not handed out; and
in the linked program operator nodes have their numbers as places. -/
theorem program_agrees {functions : List Script} {main : Script}
    (hfits : ∀ script ∈ functions ++ [main], script.Fits) (source : String) (firstClass : Nat)
    (registry : Registry) :
    (∀ script ∈ functions ++ [main], script.Numbered) ∧
      (∀ {name : String} {kind : IdKind} {id : Nat},
        (program source functions main).linkFrom firstClass registry =
          .error (.invalidId name kind id) →
        kind = .slot ∧ ∃ script ∈ functions ++ [main],
          name = script.name ∧ script.UsesForeign id) ∧
      ∀ {linked : LinkedProgram},
        (program source functions main).linkFrom firstClass registry = .ok linked →
        ∀ {key : FunctionKey} {f : FunctionDef}, (program source functions main).at? key = some f →
          ∃ g, linked.at? key = some g ∧
            g.KeepsNumbers (program source functions main).functionNames f := by
  have hnumbered : ∀ script ∈ functions ++ [main], script.Numbered :=
    fun script hscript => build_numbered (hfits script hscript)
  refine ⟨hnumbered, ?_, ?_⟩
  · intro name kind id herror
    rcases Program.linkFrom_cases firstClass (program source functions main) registry with
      ⟨linked, hok, -⟩ | ⟨e, he, hviolation⟩
    · rw [hok] at herror
      cases herror
    · rw [he] at herror
      cases herror
      cases hviolation with
      | @reference before after f _ _ hsplit _ hwrong =>
        obtain ⟨script, hscript, rfl⟩ := exists_of_mem
          (hsplit ▸ List.mem_append_right before List.mem_cons_self)
        obtain ⟨hkind, hname, hforeign⟩ := (hnumbered script hscript).invalid hwrong
        exact ⟨hkind, script, hscript, hname, hforeign⟩
  · intro linked hlink key f hf
    obtain ⟨g, hg, hrepresents⟩ := (Program.linkFrom_forms hlink).at_key hf
    obtain ⟨script, hscript, rfl⟩ := exists_of_mem (Program.mem_of_at hf)
    exact ⟨g, hg, hrepresents.keepsNumbers (hnumbered script hscript).sites⟩

/-! ### A function that is built in stages -/

/-- A function that doubles its argument and prints on the way. A local is
declared between two statements. -/
def twice : Script :=
  { name := "twice", source := "main"
    steps :=
      [ .declare (.param "x"),
        .append (.expr (.call "print"
          [.binary .add (.call "hex" [.var 0] none ⟨2, 11⟩) (.lit (.str "!")) none] none ⟨2, 5⟩)),
        .declare (.plain "y"),
        .append (.assign 1 (.binary .mul (.var 0) (.lit (.int 2)) none)),
        .append (.ret (some (.var 1))) ] }

/-- A top-level body that calls `twice`, written down as a whole. -/
def callsTwice : FunctionDraft :=
  { name := programName, declarations := []
    body := [.expr (.call "twice" [.lit (.int 4)] none ⟨7, 1⟩)] }

/-- A top-level body that uses a slot which it has not declared. -/
def borrowsSlot : Script :=
  { name := programName, source := "main", steps := [.append (.expr (.var 1))] }

/-- `twice` can be called, and its operator nodes keep their numbers; in the
program of the other body, linking objects to the slot. -/
theorem twice_agrees :
    (∀ script ∈ [twice] ++ [callsTwice.script "main"], script.Fits) ∧
      (∀ script ∈ [] ++ [borrowsSlot], script.Fits) ∧
      (program "main" [twice] (callsTwice.script "main")).main = callsTwice.build "main" ∧
      twice.build.sites = [(.add, 0), (.mul, 1)] ∧ twice.build.calls = [0, 1] ∧
      twice.slots = [0, 1] ∧
      (∃ linked g,
        (program "main" [twice] (callsTwice.script "main")).linkFrom 0 .core = .ok linked ∧
          linked.at? (.user 0) = some g ∧ g.KeepsNumbers ["twice"] twice.build) ∧
      (program "main" [] borrowsSlot).linkFrom 0 .core =
        .error (.invalidId programName .slot 1) ∧
      borrowsSlot.UsesForeign 1 := by
  have htwice : twice.Fits := ⟨by decide, by decide, by decide, by decide, by decide⟩
  have hcalls : ∀ script ∈ [twice] ++ [callsTwice.script "main"], script.Fits := by
    rw [List.forall_mem_append, List.forall_mem_singleton, List.forall_mem_singleton]
    exact ⟨htwice, by decide, by decide, by decide, by decide, by decide⟩
  have hborrows : ∀ script ∈ [] ++ [borrowsSlot], script.Fits := by
    rw [List.nil_append, List.forall_mem_singleton]
    exact ⟨by decide, by decide, by decide, by decide, by decide⟩
  obtain ⟨-, -, hlinked⟩ := program_agrees hcalls "main" 0 .core
  obtain ⟨-, hinvalid, -⟩ := program_agrees hborrows "main" 0 .core
  have hok : ((program "main" [twice] (callsTwice.script "main")).linkFrom 0 .core).isOk = true := by
    decide +kernel
  obtain ⟨linked, hlink⟩ : ∃ linked,
      (program "main" [twice] (callsTwice.script "main")).linkFrom 0 .core = .ok linked := by
    cases hcase : (program "main" [twice] (callsTwice.script "main")).linkFrom 0 .core with
    | error e =>
      rw [hcase] at hok
      cases hok
    | ok linked => exact ⟨linked, rfl⟩
  have hfirst : (program "main" [twice] (callsTwice.script "main")).at? (.user 0) =
      some twice.build := rfl
  obtain ⟨g, hg, hkeeps⟩ := hlinked hlink hfirst
  have herror : (program "main" [] borrowsSlot).linkFrom 0 .core =
      .error (.invalidId programName .slot 1) := rfl
  obtain ⟨-, script, hscript, -, hforeign⟩ := hinvalid herror
  rw [List.nil_append, List.mem_singleton] at hscript
  exact ⟨hcalls, hborrows, (FunctionDraft.build_eq callsTwice "main").symm, by decide, by decide,
    by decide, ⟨linked, g, hlink, hg, hkeeps⟩, herror, hscript ▸ hforeign⟩

end Script

end AdaptiveScript
