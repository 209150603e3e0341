import AdaptiveScript.Proofs.Linked.References
import AdaptiveScript.Proofs.Machine.DepthLimit

/-! # Limited Machines End

  The evaluator of a linked program calls itself through the calls of the
  program, from bodies that may be of any size and in any order. On a machine
  with a depth limit it ends all the same: a call that is entered leaves less
  depth to the calls inside it, and between two calls the evaluator goes down
  the tree of a body.

  `Recursive` is that recursion, with no fuel in it. Under a limit it has
  exactly one solution on the functions of the program, every fuel that is
  not less than the free depth computes it, and what it computes is a value
  or an error (`limited_machine_ends`). All of this rests on one induction, on
  the free depth (`settles_of_unfolds`): two ways to enter functions that both
  unfold into an activation end alike at every depth.
-/

namespace AdaptiveScript

namespace Machine

/-! ### Runs that settle -/

/-- An outcome that is a value or an error. -/
inductive Outcome.IsAnswer {α : Type} : Outcome α → Prop where
  | value (a : α) : IsAnswer (.ok a)
  | error (e : EvalError) : IsAnswer (.error e)

theorem Outcome.IsAnswer.ofResult {α : Type} (here : Option Location)
    (result : Except EvalError α) (s : State) : (Run.ofResult here result s).1.IsAnswer := by
  cases result with
  | ok a => exact .value a
  | error e => exact .error _

/-- Two runs from the state end alike, with a value or an error. A run that
ends with a value has left every call that it entered. -/
inductive Settled {α β : Type} (R : α → β → Prop) (s : State) :
    Outcome α × State → Outcome β × State → Prop where
  | ok {a : α} {b : β} {s' : State} : R a b → s'.stack = s.stack →
    Settled R s (.ok a, s') (.ok b, s')
  | error (e : EvalError) {s' : State} : Settled R s (.error e, s') (.error e, s')

/-- Two runs settle when they begin under the limit `m` with `depth` live
calls. -/
def Settles (m depth : Nat) {α β : Type} (R : α → β → Prop) (x : Run α) (y : Run β) : Prop :=
  ∀ s : State, s.stack.maxDepth = some m → s.stack.frames.length = depth →
    Settled R s (x s) (y s)

namespace Settled

variable {α : Type} {s : State} {out out' : Outcome α × State}

theorem eq (h : Settled Eq s out out') : out = out' := by
  cases h with
  | ok hab _ => rw [hab]
  | error e => rfl

theorem isAnswer (h : Settled Eq s out out') : out.1.IsAnswer := by
  cases h with
  | ok _ _ => exact .value _
  | error e => exact .error e

end Settled

namespace Settles

variable {m depth : Nat} {α β γ δ : Type} {R : α → β → Prop} {R' : γ → δ → Prop}

theorem pure {a : α} {b : β} (h : R a b) :
    Settles m depth R (pure a : Run α) (pure b : Run β) :=
  fun _ _ _ => .ok h rfl

theorem bind {x : Run α} {y : Run β} {k : α → Run γ} {l : β → Run δ}
    (hx : Settles m depth R x y) (hk : ∀ a b, R a b → Settles m depth R' (k a) (l b)) :
    Settles m depth R' (x >>= k) (y >>= l) := by
  intro s hmax hdepth
  have hfirst := hx s hmax hdepth
  rw [Run.bind_apply, Run.bind_apply]
  generalize x s = out at hfirst
  generalize y s = out' at hfirst
  cases hfirst with
  | error e => exact .error e
  | @ok a b s' hab hstack =>
    -- what follows begins with the same live calls
    have hmax' : s'.stack.maxDepth = some m := by rw [hstack]; exact hmax
    have hdepth' : s'.stack.frames.length = depth := by rw [hstack]; exact hdepth
    have hsecond := hk a b hab s' hmax' hdepth'
    show Settled R' s (k a s') (l b s')
    generalize k a s' = out at hsecond
    generalize l b s' = out' at hsecond
    cases hsecond with
    | ok hcd hstack' => exact .ok hcd (hstack'.trans hstack)
    | error e => exact .error e

/-- A step that keeps the stack and ends with a value or an error. -/
theorem same {x : Run α} (hkeeps : Keeps (fun _ => True) x) (hends : ∀ s, (x s).1.IsAnswer) :
    Settles m depth Eq x x := by
  intro s _ _
  have hstack := (hkeeps.brackets s).stack
  have hanswer := hends s
  generalize x s = out at hstack hanswer
  obtain ⟨o, s'⟩ := out
  cases hanswer with
  | value a => exact .ok rfl hstack
  | error e => exact .error e

theorem readField (v : Value) (name : String) :
    Settles m depth Eq (Machine.readField v name) (Machine.readField v name) := by
  apply same (.readField v name)
  intro s
  rcases readField_cases v name with ⟨id, hread⟩ | hfail
  · rw [hread]
    exact .value _
  · rw [hfail]
    exact .error _

theorem writeField (v : Value) (name : String) (w : Value) :
    Settles m depth Eq (Machine.writeField v name w) (Machine.writeField v name w) := by
  apply same (.writeField v name w)
  intro s
  rcases writeField_cases v name w with ⟨id, hwrite⟩ | hfail
  · rw [hwrite]
    exact .value _
  · rw [hfail]
    exact .error _

/-- A call of which the inside settles, one call deeper. -/
theorem within (frame : CallFrame) {x : Run α} {y : Run β} (h : Settles m (depth + 1) R x y) :
    Settles m depth R (Run.within frame x) (Run.within frame y) := by
  intro s hmax hdepth
  cases hpush : s.stack.push frame with
  | error e =>
    rw [within_refused hpush, within_refused hpush]
    exact .error e
  | ok stack =>
    obtain ⟨hframes, hlimit, hpop⟩ := push_frames hpush
    have hmax' : (s.enter stack).stack.maxDepth = some m := hlimit.trans hmax
    have hdepth' : (s.enter stack).stack.frames.length = depth + 1 := by
      show stack.frames.length = depth + 1
      rw [hframes, List.length_cons, hdepth]
    have hinside := h (s.enter stack) hmax' hdepth'
    rw [within_entered hpush, within_entered hpush]
    generalize x (s.enter stack) = out at hinside
    generalize y (s.enter stack) = out' at hinside
    cases hinside with
    | @ok a b s' hab hstack =>
      have hleft : s'.leave.stack = s.stack := by
        show s'.stack.pop = s.stack
        rw [hstack]
        exact hpop
      exact .ok hab hleft
    | error e => exact .error e

/-- A call for which the limit has no room settles whatever is inside. -/
theorem refused (hfull : m ≤ depth) (frame : CallFrame) (x : Run α) (y : Run β) :
    Settles m depth R (Run.within frame x) (Run.within frame y) := by
  intro s hmax hdepth
  obtain ⟨e, hpush, -⟩ := push_full frame hmax (by omega)
  rw [within_refused hpush, within_refused hpush]
  exact .error e

end Settles

/-! ### Activations -/

section

variable {program : LinkedProgram}

/-- Runs inside activations, with `depth` calls live, settle. -/
def settling (hscoped : program.Scoped) (m depth : Nat) : Steps .adaptive .adaptive program where
  rel _ {_ _} R x y := Settles m depth R x y
  frame _ φ ψ := φ = ψ
  rel_pure h := .pure h
  rel_bind hx hk := .bind hx hk
  newFrame _ := .same (.newFrame _) fun _ => .value _
  read _ _ hframe := hframe ▸ .same (.read _ _) fun _ => .value _
  assign v _ _ hframe := hframe ▸ .same (.assign _ _ v) fun _ => .value _
  apply v w _ _ := .same (.apply _ _ v w) fun _ => .ofResult _ _ _
  builtin vs _ _ := .same (.builtin _ _ vs _) fun _ => .ofResult _ _ _
  newObject vs _ _ := .same (.newObject _ vs) fun _ => .value _
  readField v _ _ := .readField v _
  writeField v w _ _ := .writeField v _ w
  raise v _ _ := fun _ _ _ => .error _
  unknown hf hnode hnone := by
    have hlt : _ < program.functions.size := (hscoped hf).nodes _ hnode
    rw [Array.getElem?_eq_getElem hlt] at hnone
    cases hnone
  arity _ _ _ _ := .same (.fail _ _) fun _ => .error _

/-- Two ways to enter the functions of the program settle. -/
def SettleAt (program : LinkedProgram) (m depth : Nat) (enter enter' : Enter) : Prop :=
  ∀ ⦃key f⦄, program.at? key = some f → ∀ args location,
    Settles m depth Eq (enter key f args location) (enter' key f args location)

/-- The calls of functions settle if entering them does. -/
theorem SettleAt.callUser {m depth : Nat} {enter enter' : Enter}
    (h : SettleAt program m depth enter enter') {index : Nat}
    (hindex : index < program.functions.size) (args : List Value) (location : Option Location) :
    Settles m depth Eq (Machine.callUser program enter index args location)
      (Machine.callUser program enter' index args location) := by
  have hg : program.functions[index]? = some program.functions[index] :=
    Array.getElem?_eq_getElem hindex
  have hat : program.at? (.user index) = some program.functions[index] := hg
  unfold Machine.callUser
  simp only [hg]
  by_cases harity : args.length = (program.functions[index]).arity
  · simp only [if_pos harity]
    exact h hat args location
  · simp only [if_neg harity]
    exact .same (.fail _ _) fun _ => .error _

theorem SettleAt.activate (hscoped : program.Scoped) {m depth : Nat} {enter enter' : Enter}
    (h : SettleAt program m depth enter enter') {key : FunctionKey} {f : LinkedFunction}
    (hf : program.at? key = some f) (args : List Value) :
    Settles m depth Eq
      (Machine.activate .adaptive (Machine.callUser program enter) key f args)
      (Machine.activate .adaptive (Machine.callUser program enter') key f args) := by
  apply (settling hscoped m depth).activate_rel hf
  intro key f index args location vs hf hnode _
  exact h.callUser ((hscoped hf).nodes _ hnode) vs (some location)

/-! ### The recursion -/

/-- With `depth` calls live, entering a function does its body inside the
call, where `inner` is what entering a function does. -/
def Unfolds (program : LinkedProgram) (m depth : Nat) (enter inner : Enter) : Prop :=
  ∀ ⦃key f⦄, program.at? key = some f → ∀ args location (s : State),
    s.stack.maxDepth = some m → s.stack.frames.length = depth →
    enter key f args location s =
      Run.within ⟨f.name, f.source, location⟩
        (activate .adaptive (callUser program inner) key f args) s

/-- The recursion of the evaluator on machines with the limit `m`: entering a
function is the same at every depth, inside calls too. -/
def Recursive (program : LinkedProgram) (m : Nat) (enter : Enter) : Prop :=
  ∀ depth, Unfolds program m depth enter enter

/-- Functions whose entering unfolds at every depth settle at every depth. -/
theorem settles_of_unfolds (hscoped : program.Scoped) {m : Nat} {enter enter' : Nat → Enter}
    (h : ∀ depth, Unfolds program m depth (enter depth) (enter (depth + 1)))
    (h' : ∀ depth, Unfolds program m depth (enter' depth) (enter' (depth + 1))) (depth : Nat) :
    SettleAt program m depth (enter depth) (enter' depth) := by
  -- the free depth decreases from a call to the calls inside it, whatever their bodies
  induction hroom : m - depth generalizing depth with
  | zero =>
    intro key f hf args location s hmax hdepth
    rw [h depth hf args location s hmax hdepth, h' depth hf args location s hmax hdepth]
    exact Settles.refused (by omega) _ _ _ s hmax hdepth
  | succ room ih =>
    have hdeeper := ih (depth + 1) (by omega)
    intro key f hf args location s hmax hdepth
    rw [h depth hf args location s hmax hdepth, h' depth hf args location s hmax hdepth]
    exact Settles.within _ (hdeeper.activate hscoped hf args) s hmax hdepth

/-- With as much fuel as there is free depth, entering a function unfolds. -/
theorem enter_unfolds {m depth fuel : Nat} (hfuel : m ≤ depth + fuel) :
    Unfolds program m depth (enter .adaptive program fuel)
      (enter .adaptive program (fuel - 1)) := by
  intro key f hf args location s hmax hdepth
  cases fuel with
  | zero =>
    -- the limit is looked at before the fuel
    obtain ⟨e, hpush, -⟩ := push_full ⟨f.name, f.source, location⟩ hmax (by omega)
    rw [enter_eq, within_refused hpush, within_refused hpush]
  | succ fuel => rfl

/-- The same for a fuel that was enough at the outermost depth. -/
theorem enter_unfolds_below (program : LinkedProgram) {m fuel : Nat} (hfuel : m ≤ fuel)
    (depth : Nat) :
    Unfolds program m depth (enter .adaptive program (fuel - depth))
      (enter .adaptive program (fuel - (depth + 1))) := by
  have hroom : m ≤ depth + (fuel - depth) := by omega
  exact enter_unfolds hroom

/-- Enters a function with the free depth as the fuel. -/
def enterLimited (program : LinkedProgram) (m : Nat) : Enter := fun key f args location s =>
  enter .adaptive program (m - s.stack.depth) key f args location s

theorem enterLimited_eq {m depth : Nat} {s : State} (hdepth : s.stack.frames.length = depth)
    (key : FunctionKey) (f : LinkedFunction) (args : List Value) (location : Option Location) :
    enterLimited program m key f args location s =
      enter .adaptive program (m - depth) key f args location s := by
  unfold enterLimited
  rw [s.stack.depth_eq, hdepth]

/-- The recursion has a solution. -/
theorem enterLimited_recursive (hscoped : program.Scoped) (m : Nat) :
    Recursive program m (enterLimited program m) := by
  intro depth key f hf args location s hmax hdepth
  have hsame : SettleAt program m (depth + 1) (enter .adaptive program (m - (depth + 1)))
      (enterLimited program m) := by
    intro key f hf args location s hmax hdepth
    rw [enterLimited_eq hdepth]
    have hfuel := enter_unfolds_below program (Nat.le_refl m)
    exact settles_of_unfolds hscoped hfuel hfuel (depth + 1) hf args location s hmax hdepth
  have hinside := Settles.within ⟨f.name, f.source, location⟩ (hsame.activate hscoped hf args)
  rw [enterLimited_eq hdepth,
    enter_unfolds_below program (Nat.le_refl m) depth hf args location s hmax hdepth]
  exact (hinside s hmax hdepth).eq

/-- Every solution is computed with every fuel that is not less than the free
depth. -/
theorem Recursive.settleAt (hscoped : program.Scoped) {m : Nat} {enter' : Enter}
    (h : Recursive program m enter') {depth fuel : Nat} (hfuel : m - depth ≤ fuel) :
    SettleAt program m depth (enter .adaptive program fuel) enter' := by
  have hall : m ≤ fuel + depth := by omega
  have hsettles := settles_of_unfolds hscoped (enter_unfolds_below program hall) h depth
  rw [Nat.add_sub_cancel] at hsettles
  exact hsettles

end

/-! ### Requests -/

/-- What a request does, given what entering a function does. -/
def ask (program : LinkedProgram) (enter : Enter) : Request → Option (Run Value)
  | .run => some (enter .main program.main [] none)
  | .call name args =>
    (program.index? name).map fun index => callUser program enter index args none

theorem answer_eq_ask (p : Policy) (program : LinkedProgram) (fuel : Nat) (s : State)
    (request : Request) :
    answer p program fuel s request =
      (ask program (enter p program (s.budget fuel)) request).map (· s) := by
  cases request with
  | run => rfl
  | call name args => cases hindex : program.index? name <;> simp [answer, ask, hindex, callIndex]

/-- A request under a limit ends as the recursion says. -/
theorem Recursive.ask_settled {program : LinkedProgram} (hscoped : program.Scoped) {m : Nat}
    {enter' : Enter} (h : Recursive program m enter') {s : State}
    (hmax : s.stack.maxDepth = some m) {fuel : Nat} (hfuel : m - s.stack.frames.length ≤ fuel)
    {request : Request} {run : Run Value}
    (hrun : ask program (enter .adaptive program fuel) request = some run) :
    ∃ run', ask program enter' request = some run' ∧ Settled Eq s (run s) (run' s) := by
  have hsettles := h.settleAt hscoped hfuel
  cases request with
  | run =>
    have hmain : program.at? .main = some program.main := rfl
    cases hrun
    exact ⟨_, rfl, hsettles hmain [] none s hmax rfl⟩
  | call name args =>
    obtain ⟨index, hindex, hcall⟩ := Option.map_eq_some_iff.mp hrun
    obtain ⟨hlt, -⟩ := Array.findIdx?_eq_some_iff_getElem.mp hindex
    refine ⟨_, Option.map_eq_some_iff.mpr ⟨index, hindex, rfl⟩, ?_⟩
    rw [← hcall]
    exact hsettles.callUser hlt args none s hmax rfl

/-- A machine with a depth limit ends every request with a value or an error.

Under the limit `m` the recursion of the evaluator has one solution. From
every state, whatever its sites and slots and its live calls, the solution is
computed by every fuel that is not less than the free depth, and a request is
answered as the solution says. There is no answer only to a call of a function
that the program does not define. -/
theorem limited_machine_ends {firstClass : Nat} {p : Program} {registry : Registry}
    {program : LinkedProgram} (hlink : p.linkFrom firstClass registry = .ok program) (m : Nat) :
    ∃ solution, Recursive program m solution ∧
      (∀ other, Recursive program m other → ∀ key f, program.at? key = some f →
        ∀ args location s, s.stack.maxDepth = some m →
          other key f args location s = solution key f args location s) ∧
      ∀ s, s.stack.maxDepth = some m →
        (∀ key f, program.at? key = some f → ∀ args location fuel, m - s.stack.depth ≤ fuel →
          enter .adaptive program fuel key f args location s = solution key f args location s ∧
            (solution key f args location s).1.IsAnswer) ∧
        ∀ fuel request,
          (answer .adaptive program fuel s request = none ↔
            ∃ name args, request = .call name args ∧ program.index? name = none) ∧
          ∀ o t, answer .adaptive program fuel s request = some (o, t) →
            o.IsAnswer ∧ (ask program solution request).map (· s) = some (o, t) := by
  have hscoped := Program.linkFrom_scoped hlink
  have hsolution := enterLimited_recursive hscoped m
  refine ⟨_, hsolution, ?_, ?_⟩
  · intro other hother key f hf args location s hmax
    exact (settles_of_unfolds hscoped hother hsolution _ hf args location s hmax rfl).eq
  intro s hmax
  constructor
  · intro key f hf args location fuel hfuel
    rw [s.stack.depth_eq] at hfuel
    have hsettled := hsolution.settleAt hscoped hfuel hf args location s hmax rfl
    refine ⟨hsettled.eq, ?_⟩
    rw [← hsettled.eq]
    exact hsettled.isAnswer
  · intro fuel request
    refine ⟨answer_eq_none_iff, ?_⟩
    intro o t hanswer
    have hbudget : m - s.stack.frames.length ≤ s.budget fuel := by
      simp [State.budget, hmax, s.stack.depth_eq]
    rw [answer_eq_ask] at hanswer
    obtain ⟨run, hrun, hout⟩ := Option.map_eq_some_iff.mp hanswer
    obtain ⟨run', hrun', hsettled⟩ := hsolution.ask_settled hscoped hmax hbudget hrun
    rw [hout] at hsettled
    refine ⟨hsettled.isAnswer, ?_⟩
    rw [hrun', Option.map_some, ← hsettled.eq]

/-- `descent` calls itself without end. Its recursion under a limit has a
solution all the same, which ends with the error of the limit. -/
theorem descent_ends :
    descent.linkFrom 0 .core = .ok linkedDescent ∧ descentInside.stack.maxDepth = some 3 ∧
      ∃ solution, Recursive linkedDescent 3 solution ∧ ∃ e t,
        answer .adaptive linkedDescent 0 descentInside .run = some (.error e, t) ∧
          e.kind = .stackOverflow 3 ∧
          solution .main linkedDescent.main [] none descentInside = (.error e, t) := by
  have hlink : descent.linkFrom 0 .core = .ok linkedDescent := rfl
  have hmax : descentInside.stack.maxDepth = some 3 := rfl
  obtain ⟨e, t, hanswer, hkind⟩ : ∃ e t,
      answer .adaptive linkedDescent 0 descentInside .run = some (.error e, t) ∧
        e.kind = .stackOverflow 3 := ⟨_, _, rfl, rfl⟩
  obtain ⟨solution, hsolution, -, hends⟩ := limited_machine_ends hlink 3
  obtain ⟨-, hask⟩ := ((hends descentInside hmax).2 0 .run).2 _ t hanswer
  exact ⟨hlink, hmax, solution, hsolution, e, t, hanswer, hkind, Option.some.inj hask⟩

end Machine

end AdaptiveScript
