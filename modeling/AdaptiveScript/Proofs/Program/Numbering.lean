import AdaptiveScript.Program.Builder
import AdaptiveScript.Proofs.Program.Shape
import Mathlib.Data.List.Basic

/-! # The Numbers That a Builder Hands Out

  A function is built step by step: locals are declared, and statements are
  numbered and appended (`Script`). Where no node brings a number of its own,
  the numbers of the operator nodes of the finished body are `0, 1, 2, …` in the
  order in which the nodes are finished, up to the function's bound, those of
  the calls are as well, and so are the slots that were handed out
  (`Script.build_numbered`).

  Counters stay at the largest number once they have reached it. What is carried
  along a traversal is therefore an implication (`Hands`): as long as the
  counters have room for the nodes, the nodes get the next numbers. Both sides
  of it are about lists, so that the parts of a tree are put together by
  `Hands.append` alone.
-/

namespace AdaptiveScript

/-! ### Room for numbers -/

/-- The nodes with these numbers have none of their own, and the counters have
room for them. -/
structure Counters.Room (c : Counters) (sites : List (Operator × Option Nat))
    (calls : List (Option Nat)) : Prop where
  sites_none : ∀ x ∈ sites, x.2 = none
  calls_none : ∀ id ∈ calls, id = none
  site_le : c.site + sites.length ≤ maxId
  call_le : c.call + calls.length ≤ maxId

/-- Operator nodes and calls were given the next numbers, in order. -/
structure Counters.Gives (c : Counters) (draftSites : List (Operator × Option Nat))
    (draftCalls : List (Option Nat)) (sites : List (Operator × Nat)) (calls : List Nat)
    (c' : Counters) : Prop where
  sites : sites = (draftSites.map (·.1)).zipIdx c.site
  calls : calls = List.range' c.call draftCalls.length
  site : c'.site = c.site + draftSites.length
  call : c'.call = c.call + draftCalls.length

/-- The next numbers are given to the nodes of a draft, if there is room for
them. -/
def Hands (c : Counters) (draftSites : List (Operator × Option Nat))
    (draftCalls : List (Option Nat)) (sites : List (Operator × Nat)) (calls : List Nat)
    (c' : Counters) : Prop :=
  c.Room draftSites draftCalls → c.Gives draftSites draftCalls sites calls c'

namespace Hands

variable {c c₁ c₂ : Counters} {s t : List (Operator × Option Nat)} {k l : List (Option Nat)}
  {s' t' : List (Operator × Nat)} {k' l' : List Nat}

theorem nil (c : Counters) : Hands c [] [] [] [] c := fun _ => ⟨rfl, rfl, rfl, rfl⟩

/-- Two parts of a tree, one after the other. -/
theorem append (h : Hands c s k s' k' c₁) (h' : Hands c₁ t l t' l' c₂) :
    Hands c (s ++ t) (k ++ l) (s' ++ t') (k' ++ l') c₂ := by
  rintro ⟨hsites, hcalls, hsite, hcall⟩
  rw [List.forall_mem_append] at hsites hcalls
  rw [List.length_append] at hsite hcall
  have hfirst := h ⟨hsites.1, hcalls.1, by omega, by omega⟩
  have hsite₁ := hfirst.site
  have hcall₁ := hfirst.call
  -- the second part starts where the first one has ended
  have hsecond := h' ⟨hsites.2, hcalls.2, by omega, by omega⟩
  have hsite₂ := hsecond.site
  have hcall₂ := hsecond.call
  refine ⟨?_, ?_, by rw [List.length_append]; omega, by rw [List.length_append]; omega⟩
  · rw [hfirst.sites, hsecond.sites, List.map_append, List.zipIdx_append, hsite₁, List.length_map]
  · rw [hfirst.calls, hsecond.calls, hcall₁, List.length_append, List.range'_append_1]

/-- An operator node. -/
theorem site (op : Operator) (id : Option Nat) :
    Hands c [(op, id)] [] [(op, (c.takeSite id).1)] [] (c.takeSite id).2 := by
  rintro ⟨hnone, -, hroom, -⟩
  have hid : id = none := hnone (op, id) List.mem_cons_self
  subst hid
  have hnext : nextId c.site = c.site + 1 := Nat.min_eq_left hroom
  exact ⟨rfl, rfl, hnext, rfl⟩

/-- A call. -/
theorem call (id : Option Nat) :
    Hands c [] [id] [] [(c.takeCall id).1] (c.takeCall id).2 := by
  rintro ⟨-, hnone, -, hroom⟩
  have hid : id = none := hnone id List.mem_cons_self
  subst hid
  have hnext : nextId c.call = c.call + 1 := Nat.min_eq_left hroom
  exact ⟨rfl, rfl, rfl, hnext⟩

end Hands

/-! ### Expressions and statements -/

namespace Expr

mutual

theorem number_hands : ∀ (e : DraftExpr) (c : Counters),
    Hands c e.sites e.calls (e.number c).1.sites (e.number c).1.calls (e.number c).2
  | .lit v, c => .nil c
  | .list items, c => numberAll_hands items c
  | .var slot, c => .nil c
  | .binary op left right id, c => by
    have hleft := number_hands left c
    have hright := number_hands right (left.number c).2
    have hself := Hands.site (c := (right.number (left.number c).2).2) op id
    have hall := (hleft.append hright).append hself
    rw [List.append_nil, List.append_nil] at hall
    exact hall
  | .call callee args id location, c => by
    have hargs := numberAll_hands args c
    have hself := Hands.call (c := (numberAll args c).2) id
    have hall := hargs.append hself
    rw [List.append_nil, List.append_nil] at hall
    exact hall
  | .functionRef name, c => .nil c
  | .new cls fields, c => numberFields_hands fields c
  | .field object name, c => number_hands object c

theorem numberAll_hands : ∀ (es : List DraftExpr) (c : Counters),
    Hands c (sitesAll es) (callsAll es) (sitesAll (numberAll es c).1) (callsAll (numberAll es c).1)
      (numberAll es c).2
  | [], c => .nil c
  | e :: es, c => (number_hands e c).append (numberAll_hands es (e.number c).2)

theorem numberFields_hands : ∀ (es : List (String × DraftExpr)) (c : Counters),
    Hands c (sitesFields es) (callsFields es) (sitesFields (numberFields es c).1)
      (callsFields (numberFields es c).1) (numberFields es c).2
  | [], c => .nil c
  | (_, e) :: es, c => (number_hands e c).append (numberFields_hands es (e.number c).2)

end

/-! Numbering replaces numbers and nothing else. -/

mutual

theorem erase_number : ∀ (e : DraftExpr) (c : Counters), (e.number c).1.erase = e.erase
  | .lit _, _ => rfl
  | .list items, c => congrArg Expr.list (eraseAll_numberAll items c)
  | .var _, _ => rfl
  | .binary op left right _, c =>
    congrArg₂ (fun l r => Expr.binary op l r ()) (erase_number left c)
      (erase_number right (left.number c).2)
  | .call callee args _ location, c =>
    congrArg (fun args => Expr.call callee args () location) (eraseAll_numberAll args c)
  | .functionRef _, _ => rfl
  | .new cls fields, c => congrArg (Expr.new cls) (eraseFields_numberFields fields c)
  | .field object name, c => congrArg (fun o => Expr.field o name) (erase_number object c)

theorem eraseAll_numberAll : ∀ (es : List DraftExpr) (c : Counters),
    eraseAll (numberAll es c).1 = eraseAll es
  | [], _ => rfl
  | e :: es, c => congrArg₂ List.cons (erase_number e c) (eraseAll_numberAll es (e.number c).2)

theorem eraseFields_numberFields : ∀ (es : List (String × DraftExpr)) (c : Counters),
    eraseFields (numberFields es c).1 = eraseFields es
  | [], _ => rfl
  | (name, e) :: es, c =>
    congrArg₂ (fun e es => (name, e) :: es) (erase_number e c)
      (eraseFields_numberFields es (e.number c).2)

end

end Expr

namespace Stmt

theorem number_hands (s : DraftStmt) (c : Counters) :
    Hands c (Expr.sitesAll s.exprs) (Expr.callsAll s.exprs) (Expr.sitesAll (s.number c).1.exprs)
      (Expr.callsAll (s.number c).1.exprs) (s.number c).2 := by
  cases s with
  | expr e => exact Expr.numberAll_hands [e] c
  | assign slot value => exact Expr.numberAll_hands [value] c
  | setField object name value => exact Expr.numberAll_hands [object, value] c
  | ret value =>
    cases value with
    | none => exact .nil c
    | some value => exact Expr.numberAll_hands [value] c
  | raise value location => exact Expr.numberAll_hands [value] c

theorem erase_number (s : DraftStmt) (c : Counters) : (s.number c).1.erase = s.erase := by
  cases s with
  | expr e => exact congrArg Stmt.expr (Expr.erase_number e c)
  | assign slot value => exact congrArg (Stmt.assign slot) (Expr.erase_number value c)
  | setField object name value =>
    exact congrArg₂ (fun o v => Stmt.setField o name v) (Expr.erase_number object c)
      (Expr.erase_number value (object.number c).2)
  | ret value =>
    cases value with
    | none => rfl
    | some value => exact congrArg (fun v => Stmt.ret (some v)) (Expr.erase_number value c)
  | raise value location =>
    exact congrArg (fun v => Stmt.raise v location) (Expr.erase_number value c)

end Stmt

/-! ### Building a function -/

/-- One step of building a function. -/
inductive BuildStep where
  /-- A local is declared. -/
  | declare (d : Declaration)
  /-- A statement is numbered and appended. -/
  | append (s : DraftStmt)

/-- The statements that steps append, in order. -/
def BuildStep.statements : List BuildStep → List DraftStmt
  | [] => []
  | .declare _ :: steps => statements steps
  | .append s :: steps => s :: statements steps

/-- The declarations that steps make, in order. -/
def BuildStep.declarations : List BuildStep → List Declaration
  | [] => []
  | .declare d :: steps => d :: declarations steps
  | .append _ :: steps => declarations steps

/-- The name of the local. -/
def Declaration.name : Declaration → String
  | .param name => name
  | .plain name => name

namespace FunctionBuilder

/-- The builder after a step. -/
def perform (b : FunctionBuilder) : BuildStep → FunctionBuilder
  | .declare d => b.declare d
  | .append s => b.append s

/-- The slots that a builder hands out in the course of steps, in order. -/
def handsOut (b : FunctionBuilder) : List BuildStep → List Nat
  | [] => []
  | .declare d :: steps => b.nextSlot :: (b.declare d).handsOut steps
  | .append s :: steps => (b.append s).handsOut steps

end FunctionBuilder

/-- How a function is built: the steps, in order. -/
structure Script where
  name : String
  source : String
  steps : List BuildStep

namespace Script

/-- The builder at the start. -/
def start (script : Script) : FunctionBuilder := { name := script.name, source := script.source }

/-- The function that is built. -/
def build (script : Script) : FunctionDef :=
  (script.steps.foldl FunctionBuilder.perform script.start).finish

/-- The slots that are handed out, in order. -/
def slots (script : Script) : List Nat := script.start.handsOut script.steps

/-- The statements that are appended, in order. -/
def statements (script : Script) : List DraftStmt := BuildStep.statements script.steps

/-- The declarations that are made, in order. -/
def declarations (script : Script) : List Declaration := BuildStep.declarations script.steps

/-- No node has a number of its own, and the numbers suffice. -/
structure Fits (script : Script) : Prop where
  sites_none : ∀ x ∈ Stmt.bodySites script.statements, x.2 = none
  calls_none : ∀ id ∈ Stmt.bodyCalls script.statements, id = none
  sites_le : (Stmt.bodySites script.statements).length ≤ maxId
  calls_le : (Stmt.bodyCalls script.statements).length ≤ maxId
  locals_le : script.declarations.length ≤ maxId + 1

/-- The numbers of the function that is built are dense, in order. -/
structure Numbered (script : Script) : Prop where
  sites : script.build.sites.map (·.2) = List.range script.build.siteCount
  calls : script.build.calls = List.range script.build.callCount
  slots : script.slots = List.range script.build.locals.length
  /-- The locals are those declared. -/
  locals : script.build.locals = script.declarations.map (·.name)
  /-- The parameters were handed out. -/
  params : ∀ slot ∈ script.build.params, slot ∈ script.slots
  /-- The body is made of the statements. -/
  body : script.build.body.map (·.erase) = script.statements.map (·.erase)

end Script

namespace FunctionBuilder

/-- No step changes the name. -/
theorem name_performAll (steps : List BuildStep) (b : FunctionBuilder) :
    (steps.foldl perform b).name = b.name := by
  induction steps generalizing b with
  | nil => rfl
  | cons step steps ih =>
    rw [List.foldl_cons, ih]
    cases step with
    | declare d => cases d <;> rfl
    | append s => rfl

/-- What a builder comes to by steps: statements are added to its body, and
their nodes are given the next numbers. -/
theorem body_performAll (steps : List BuildStep) (b : FunctionBuilder) :
    ∃ added, (steps.foldl perform b).body = b.body ++ added ∧
      added.map (·.erase) = (BuildStep.statements steps).map (·.erase) ∧
      Hands b.counters (Stmt.bodySites (BuildStep.statements steps))
        (Stmt.bodyCalls (BuildStep.statements steps)) (Stmt.bodySites added)
        (Stmt.bodyCalls added) (steps.foldl perform b).counters := by
  induction steps generalizing b with
  | nil => exact ⟨[], (List.append_nil _).symm, rfl, .nil _⟩
  | cons step steps ih =>
    obtain ⟨added, hbody, hshape, hnumbers⟩ := ih (b.perform step)
    cases step with
    | declare d =>
      -- a declaration touches neither the body nor the counters
      have hsame : (b.declare d).body = b.body ∧ (b.declare d).counters = b.counters := by
        cases d <;> exact ⟨rfl, rfl⟩
      refine ⟨added, hbody.trans (congrArg (· ++ added) hsame.1), hshape, ?_⟩
      rw [← hsame.2]
      exact hnumbers
    | append s =>
      refine ⟨(s.number b.counters).1 :: added, ?_, ?_, ?_⟩
      · exact hbody.trans (List.append_assoc ..)
      · exact congrArg₂ List.cons (Stmt.erase_number s b.counters) hshape
      · rw [BuildStep.statements, Stmt.bodySites_cons, Stmt.bodyCalls_cons, Stmt.bodySites_cons,
          Stmt.bodyCalls_cons]
        exact (Stmt.number_hands s b.counters).append hnumbers

/-- The locals that a builder comes to by steps, and the slots of parameters. -/
theorem locals_performAll (steps : List BuildStep) (b : FunctionBuilder) :
    (steps.foldl perform b).locals =
        b.locals ++ (BuildStep.declarations steps).map (·.name) ∧
      ∀ slot ∈ (steps.foldl perform b).params, slot ∈ b.params ∨ slot ∈ b.handsOut steps := by
  induction steps generalizing b with
  | nil => exact ⟨(List.append_nil _).symm, fun slot h => .inl h⟩
  | cons step steps ih =>
    obtain ⟨hlocals, hparams⟩ := ih (b.perform step)
    cases step with
    | append s => exact ⟨hlocals, hparams⟩
    | declare d =>
      refine ⟨?_, ?_⟩
      · have hone : (b.declare d).locals = b.locals ++ [d.name] := by cases d <;> rfl
        rw [List.foldl_cons, hlocals, perform, hone, List.append_assoc]
        rfl
      · intro slot hslot
        rw [handsOut, List.mem_cons]
        rcases hparams slot hslot with hbefore | hlater
        · cases d with
          | plain name => exact .inl hbefore
          | param name =>
            rcases List.mem_append.mp hbefore with hold | hnew
            · exact .inl hold
            · exact .inr (.inl (List.mem_singleton.mp hnew))
        · exact .inr (.inr hlater)

/-- Slots are handed out in order, as long as there are enough of them. -/
theorem handsOut_eq (steps : List BuildStep) (b : FunctionBuilder)
    (h : b.locals.length + (BuildStep.declarations steps).length ≤ maxId + 1) :
    b.handsOut steps =
      List.range' b.locals.length (BuildStep.declarations steps).length := by
  induction steps generalizing b with
  | nil => rfl
  | cons step steps ih =>
    cases step with
    | append s => exact ih (b.append s) h
    | declare d =>
      rw [BuildStep.declarations, List.length_cons] at h ⊢
      have hlength : (b.declare d).locals.length = b.locals.length + 1 := by
        cases d <;> exact List.length_append
      have hslot : b.nextSlot = b.locals.length := Nat.min_eq_left (by omega)
      rw [handsOut, ih (b.declare d) (by omega), hlength, hslot, List.range'_succ]

end FunctionBuilder

namespace Script

variable {script : Script}

theorem build_name (script : Script) : script.build.name = script.name :=
  FunctionBuilder.name_performAll script.steps script.start

/-- The numbers of a function whose script fits are dense. -/
theorem build_numbered (h : script.Fits) : script.Numbered := by
  obtain ⟨added, hbody, hshape, hnumbers⟩ :=
    FunctionBuilder.body_performAll script.steps script.start
  obtain ⟨hlocals, hparams⟩ := FunctionBuilder.locals_performAll script.steps script.start
  -- a new builder has no locals, and its counters are at zero
  have hslots := FunctionBuilder.handsOut_eq script.steps script.start
    (le_of_eq_of_le (Nat.zero_add _) h.locals_le)
  have hroom : script.start.counters.Room (Stmt.bodySites script.statements)
      (Stmt.bodyCalls script.statements) :=
    ⟨h.sites_none, h.calls_none, le_of_eq_of_le (Nat.zero_add _) h.sites_le,
      le_of_eq_of_le (Nat.zero_add _) h.calls_le⟩
  obtain ⟨hsites, hcalls, hsite, hcall⟩ := hnumbers hroom
  have hadded : script.build.body = added := hbody
  have hsiteCount : script.build.siteCount = (Stmt.bodySites script.statements).length :=
    hsite.trans (Nat.zero_add _)
  have hcallCount : script.build.callCount = (Stmt.bodyCalls script.statements).length :=
    hcall.trans (Nat.zero_add _)
  have hlength : script.build.locals.length = script.declarations.length :=
    (congrArg List.length hlocals).trans (List.length_map ..)
  refine ⟨?_, ?_, ?_, hlocals, ?_, hadded ▸ hshape⟩
  · rw [FunctionDef.sites, hadded, hsites, List.zipIdx_map_snd, List.length_map, hsiteCount,
      List.range_eq_range']
    rfl
  · rw [FunctionDef.calls, hadded, hcalls, hcallCount, List.range_eq_range']
    rfl
  · rw [hlength, List.range_eq_range']
    exact hslots
  · intro slot hslot
    rcases hparams slot hslot with hnone | hgiven
    · cases hnone
    · exact hgiven

end Script

/-- The steps that a draft stands for: its declarations, then its statements. -/
def FunctionDraft.script (d : FunctionDraft) (source : String) : Script :=
  { name := d.name, source, steps := d.declarations.map .declare ++ d.body.map .append }

theorem FunctionDraft.build_eq (d : FunctionDraft) (source : String) :
    d.build source = (d.script source).build := by
  rw [Script.build, script, List.foldl_append, List.foldl_map, List.foldl_map]
  rfl

end AdaptiveScript
