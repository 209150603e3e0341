import AdaptiveScript.Proofs.Machine.Generalization
import AdaptiveScript.Proofs.Machine.Termination
import Mathlib.Data.Finset.Card

/-! # The Depth of Programs Without Recursion

  Where no function can call itself, directly or through others, the functions
  of the live calls are all different, so there are never more of them than the
  program has functions, and one more for the top-level body. Such a program
  needs no depth limit: its requests end without one, and a limit that leaves
  room for these calls is never met (`nonrecursive_depth`).

  The measure is on the call graph. A function can be the start of as many
  nested calls as there are functions that it reaches by calls
  (`LinkedProgram.below`), and a function that is called reaches fewer of them
  than its caller, because it does not reach itself. The law of runs that says
  so is `shallow`: with that much room, nothing inside an activation fails for
  lack of depth.
-/

namespace AdaptiveScript

/-! ### Call graphs without cycles -/

namespace LinkedProgram

variable {program : LinkedProgram} {key callee : FunctionKey} {index : Nat}

/-- No function that can be reached from this one by calls can be reached from
itself. -/
def NonRecursive (program : LinkedProgram) (key : FunctionKey) : Prop :=
  ∀ reached, program.Reaches key reached → ¬ Relation.TransGen program.Calls reached reached

theorem NonRecursive.of_calls (h : program.NonRecursive key) (hcalls : program.Calls key callee) :
    program.NonRecursive callee :=
  fun reached hreached => h reached (.head hcalls hreached)

/-- Functions are not recursive if they can be numbered so that numbers go down
along calls. -/
theorem nonRecursive_of_rank (rank : FunctionKey → Nat)
    (h : ∀ {caller callee}, program.Calls caller callee → rank callee < rank caller)
    (key : FunctionKey) : program.NonRecursive key := by
  have hdown : ∀ {caller callee}, Relation.TransGen program.Calls caller callee →
      rank callee < rank caller := by
    intro caller callee hpath
    induction hpath with
    | single hcalls => exact h hcalls
    | tail _ hcalls ih => exact (h hcalls).trans ih
  intro reached _ hcycle
  exact Nat.lt_irrefl _ (hdown hcycle)

open scoped Classical in
/-- The positions of the functions that can be reached from this one by at
least one call. -/
noncomputable def below (program : LinkedProgram) (key : FunctionKey) : Finset Nat :=
  (Finset.range program.functions.size).filter fun index =>
    Relation.TransGen program.Calls key (.user index)

theorem mem_below : index ∈ program.below key ↔
    index < program.functions.size ∧ Relation.TransGen program.Calls key (.user index) := by
  classical
  rw [below, Finset.mem_filter, Finset.mem_range]

theorem below_subset_range (program : LinkedProgram) (key : FunctionKey) :
    program.below key ⊆ Finset.range program.functions.size :=
  fun _ hindex => Finset.mem_range.mpr (mem_below.mp hindex).1

theorem card_below_le (program : LinkedProgram) (key : FunctionKey) :
    (program.below key).card ≤ program.functions.size := by
  have hcard := Finset.card_le_card (program.below_subset_range key)
  rwa [Finset.card_range] at hcard

/-- A function that is not recursive is not among those below it. -/
theorem NonRecursive.not_mem_below (h : program.NonRecursive (.user index)) :
    index ∉ program.below (.user index) :=
  fun hmem => h _ .refl (mem_below.mp hmem).2

theorem NonRecursive.card_below_lt (h : program.NonRecursive (.user index))
    (hindex : index < program.functions.size) :
    (program.below (.user index)).card < program.functions.size := by
  have hproper : program.below (.user index) ⊂ Finset.range program.functions.size := by
    rw [Finset.ssubset_iff_of_subset (program.below_subset_range _)]
    exact ⟨index, Finset.mem_range.mpr hindex, h.not_mem_below⟩
  have hcard := Finset.card_lt_card hproper
  rwa [Finset.card_range] at hcard

/-- Fewer functions are below a function that is called than below its
caller. -/
theorem NonRecursive.card_below_callee (h : program.NonRecursive key)
    (hcalls : program.Calls key (.user index)) (hindex : index < program.functions.size) :
    (program.below (.user index)).card < (program.below key).card := by
  apply Finset.card_lt_card
  have hsubset : program.below (.user index) ⊆ program.below key := by
    intro i hi
    obtain ⟨hlt, hpath⟩ := mem_below.mp hi
    exact mem_below.mpr ⟨hlt, .head hcalls hpath⟩
  rw [Finset.ssubset_iff_of_subset hsubset]
  exact ⟨index, mem_below.mpr ⟨hindex, .single hcalls⟩, (h.of_calls hcalls).not_mem_below⟩

end LinkedProgram

namespace Machine

/-! ### Runs that need little room -/

/-- The limit leaves room for so many calls. -/
def State.HasRoom (s : State) (calls : Nat) : Prop :=
  ∀ max, s.stack.maxDepth = some max → s.stack.frames.length + calls ≤ max

/-- A run that keeps the stack, and does not end in an error of the depth limit
if, under the condition, the limit leaves room for so many calls. -/
structure Shallow (condition : Prop) (calls : Nat) {α : Type} (P : α → Prop) (x : Run α) :
    Prop where
  keeps : Keeps P x
  quiet : condition → ∀ {s e}, s.HasRoom calls → (x s).1 = .error e →
    ∀ depth, e.kind ≠ .stackOverflow depth

namespace Shallow

variable {condition : Prop} {calls : Nat} {α β : Type} {P : α → Prop} {Q : β → Prop}

theorem of_quiet {x : Run α} (hkeeps : Keeps P x) (hquiet : Quiet x) :
    Shallow condition calls P x where
  keeps := hkeeps
  quiet _ _ _ _ herror depth := hquiet _ _ depth herror

theorem mono {P' : α → Prop} (hP : ∀ a, P a → P' a) {x : Run α}
    (h : Shallow condition calls P x) : Shallow condition calls P' x where
  keeps := h.keeps.mono hP
  quiet := h.quiet

theorem bind {x : Run α} {k : α → Run β} (hx : Shallow condition calls P x)
    (hk : ∀ a, P a → Shallow condition calls Q (k a)) :
    Shallow condition calls Q (x >>= k) where
  keeps := hx.keeps.bind fun a ha => (hk a ha).keeps
  quiet := by
    intro hcondition s e hroom herror
    rcases hx.keeps.bind_error herror with hfirst | ⟨a, s', ha, hstack, hsecond⟩
    · exact hx.quiet hcondition hroom hfirst
    · -- the second run starts with the same live calls
      have hroom' : s'.HasRoom calls := by
        unfold State.HasRoom
        rw [hstack]
        exact hroom
      exact (hk a ha).quiet hcondition hroom' hsecond

/-- A call takes a place of the room, and leaves the rest to the calls inside
it. -/
theorem within {condition' : Prop} {calls' : Nat}
    (hinside : condition' → condition ∧ calls + 1 ≤ calls') (frame : CallFrame) {x : Run α}
    (h : Shallow condition calls P x) : Shallow condition' calls' P (Run.within frame x) where
  keeps := h.keeps.within frame
  quiet := by
    intro hcondition s e hroom herror
    obtain ⟨hbelow, hcalls⟩ := hinside hcondition
    have hfree : ∀ max, s.stack.maxDepth = some max → s.stack.frames.length < max := by
      intro max hmax
      have := hroom max hmax
      omega
    have hpush := push_of_room s.stack hfree frame
    have hroom' :
        (s.enter (.ofFrames (frame :: s.stack.frames) s.stack.maxDepth)).HasRoom calls := by
      intro max hmax
      have := hroom max hmax
      show (frame :: s.stack.frames).length + calls ≤ max
      rw [List.length_cons]
      omega
    rw [within_entered hpush] at herror
    exact h.quiet hbelow hroom' herror

end Shallow

/-! ### The law -/

section

variable {program : LinkedProgram}

/-- Activations of functions that are not recursive need room for as many calls
as there are functions below theirs. -/
def shallow (hscoped : program.Scoped) (hbuiltins : program.ReportsNoOverflow) :
    Law .adaptive program where
  holds key {_} P x := Shallow (program.NonRecursive key) (program.below key).card P x
  frame _ _ := True
  holds_pure h := .of_quiet (.pure h) (.of_ended fun _ _ h => by cases h)
  holds_bind hx hk := .bind hx hk
  holds_mono hP hx := hx.mono hP
  newFrame _ := .of_quiet (.newFrame _) (.of_ended fun _ _ h => by cases h)
  read _ _ _ := .of_quiet (.read _ _) (.of_ended fun _ _ h => by cases h)
  assign v _ _ _ := .of_quiet (.assign _ _ v) (.of_ended fun _ _ h => by cases h)
  apply v w _ _ := .of_quiet (.apply _ _ v w) (.apply _ _ v w)
  builtin vs hf hnode := .of_quiet (.builtin _ _ vs _) (.builtin (hbuiltins hf hnode) _ vs _)
  newObject vs _ _ := .of_quiet (.newObject _ vs) (.of_ended fun _ _ h => by cases h)
  readField v _ _ := .of_quiet (.readField v _) (.readField v _)
  writeField v w _ _ := .of_quiet (.writeField v _ w) (.writeField v _ w)
  raise v _ _ := .of_quiet (.raise v _) (.raise v _)
  unknown _ _ _ := .of_quiet (.faulty _) (.of_ended fun _ _ h => by cases h)
  arity _ _ _ _ := .of_quiet (.fail _ _) (.fail (fun _ h => by cases h) _)
  within {key f index args location g x} hf hnode _ _ hx := by
    have hcalls : program.Calls key (.user index) := ⟨f, index, args, location, hf, hnode, rfl⟩
    have hindex : index < program.functions.size := (hscoped hf).nodes _ hnode
    refine .within (fun hkey => ?_) _ hx
    exact ⟨hkey.of_calls hcalls, hkey.card_below_callee hcalls hindex⟩
  exhausted := .of_quiet .exhausted (.of_ended fun _ _ h => by cases h)

theorem enter_shallow (hscoped : program.Scoped) (hbuiltins : program.ReportsNoOverflow)
    (fuel : Nat) {key : FunctionKey} {f : LinkedFunction} (hf : program.at? key = some f)
    (args : List Value) (location : Option Location) :
    Shallow (program.NonRecursive key) ((program.below key).card + 1) (fun _ => True)
      (enter .adaptive program fuel key f args location) := by
  rw [enter_eq]
  have hinside := (shallow hscoped hbuiltins).inside_holds fuel hf args
  exact .within (fun hkey => ⟨hkey, Nat.le_refl _⟩) _ hinside

/-! ### Requests -/

variable {s t : State} {m fuel bound : Nat} {limit : Option Nat} {request : Request}
  {o : Outcome Value}

/-- The top-level body needs room for itself and for the functions below it. -/
theorem run_not_overflow (hscoped : program.Scoped) (hbuiltins : program.ReportsNoOverflow)
    (hmain : program.NonRecursive .main) (hroom : s.HasRoom (program.functions.size + 1))
    (h : answer .adaptive program fuel s .run = some (o, t)) : ¬ o.IsOverflow := by
  rintro ⟨e, depth, rfl, hkind⟩
  have hbelow : s.HasRoom ((program.below .main).card + 1) := by
    intro max hmax
    have hsize := hroom max hmax
    have hcard := program.card_below_le .main
    omega
  have hbody : program.at? .main = some program.main := rfl
  have hentered := enter_shallow hscoped hbuiltins (s.budget fuel) hbody [] none
  exact hentered.quiet hmain hbelow (congrArg Prod.fst (Option.some.inj h)) depth hkind

/-- A function needs room for itself and for the functions below it, which it is
not among. -/
theorem call_not_overflow (hscoped : program.Scoped) (hbuiltins : program.ReportsNoOverflow)
    {name : String} {index : Nat} {args : List Value} (hindex : program.index? name = some index)
    (hfunction : program.NonRecursive (.user index)) (hroom : s.HasRoom program.functions.size)
    (h : answer .adaptive program fuel s (.call name args) = some (o, t)) : ¬ o.IsOverflow := by
  rintro ⟨e, depth, rfl, hkind⟩
  obtain ⟨hlt, -⟩ := Array.findIdx?_eq_some_iff_getElem.mp hindex
  have hg : program.functions[index]? = some program.functions[index] :=
    Array.getElem?_eq_getElem hlt
  have hbody : program.at? (.user index) = some program.functions[index] := hg
  obtain ⟨_, hindex', hcall⟩ := Option.map_eq_some_iff.mp h
  cases hindex.symm.trans hindex'
  have hbelow : s.HasRoom ((program.below (.user index)).card + 1) := by
    intro max hmax
    have hsize := hroom max hmax
    have hcard := hfunction.card_below_lt hlt
    omega
  unfold callIndex callUser at hcall
  simp only [hg] at hcall
  split at hcall
  · have hentered := enter_shallow hscoped hbuiltins (s.budget fuel) hbody args none
    exact hentered.quiet hfunction hbelow (congrArg Prod.fst hcall) depth hkind
  · cases hcall
    rw [kind_attach] at hkind
    cases hkind

/-- A limited machine answers with a value or an error. -/
theorem answer_isAnswer (hscoped : program.Scoped) (hmax : s.stack.maxDepth = some m)
    (h : answer .adaptive program fuel s request = some (o, t)) : o.IsAnswer := by
  have hbudget : m - s.stack.frames.length ≤ s.budget fuel := by
    simp [State.budget, hmax, s.stack.depth_eq]
  rw [answer_eq_ask] at h
  obtain ⟨run, hrun, hout⟩ := Option.map_eq_some_iff.mp h
  obtain ⟨_, -, hsettled⟩ :=
    (enterLimited_recursive hscoped m).ask_settled hscoped hmax hbudget hrun
  rw [hout] at hsettled
  exact hsettled.isAnswer

/-- What a limit does not cut off ends alike under a greater limit or none. -/
theorem answer_uncut (hempty : s.stack.frames = []) (hlimit : ∀ max, limit = some max → m ≤ max)
    (h : answer .adaptive program fuel (s.withLimit (some m)) request = some (o, t))
    (hother : ¬ o.IsOverflow) {fuel' : Nat} (henough : limit = none → m ≤ fuel') :
    answer .adaptive program fuel' (s.withLimit limit) request = some (o, t.withLimit limit) := by
  obtain ⟨out, hout, hcut⟩ := answer_cut_of_le hempty hlimit h fuel'
  cases hcut with
  | ok hab _ => rw [hout, hab]
  | error e => exact hout
  | fault f => exact hout
  | cut hkind _ => exact absurd ⟨_, _, rfl, hkind⟩ hother
  | starved hstarved => exact absurd henough hstarved

/-- At no moment between the states more than `bound` calls are live. -/
def LiveWithin (bound : Nat) (s t : State) : Prop :=
  ∃ steps, t.trace = steps ++ s.trace ∧
    ∀ moment, moment <:+ steps → (liveAfter s.stack.frames moment).length ≤ bound

theorem LiveWithin.mono {bound' : Nat} (h : LiveWithin bound s t) (hle : bound ≤ bound') :
    LiveWithin bound' s t := by
  obtain ⟨steps, htrace, hlive⟩ := h
  exact ⟨steps, htrace, fun moment hmoment => (hlive moment hmoment).trans hle⟩

/-- From an empty stack, no more calls are live than the limit allows. -/
theorem liveWithin_limit (hempty : s.stack.frames = [])
    (h : answer .adaptive program fuel (s.withLimit (some m)) request = some (o, t)) :
    LiveWithin m s t := by
  obtain ⟨steps, htrace, hlive⟩ := (answer_brackets h).balanced.moments
  refine ⟨steps, htrace, fun moment hmoment => ?_⟩
  have hdepth := (hlive moment hmoment).depth m rfl
  have hnone : (s.withLimit (some m)).stack.frames.length = 0 := by
    show s.stack.frames.length = 0
    rw [hempty, List.length_nil]
  have hmax : Nat.max 0 m = m := Nat.max_eq_right (Nat.zero_le m)
  rw [hnone, hmax] at hdepth
  exact hdepth

/-- A request needs no more than `bound` calls: it ends without a limit, in the
same way as under every limit that allows so many, and under no limit are there
more of them. A machine without a limit has to be given fuel for them. -/
structure EndsWithin (program : LinkedProgram) (s : State) (request : Request) (bound : Nat)
    (o : Outcome Value) (t : State) : Prop where
  isAnswer : o.IsAnswer
  not_overflow : ¬ o.IsOverflow
  unlimited : ∀ fuel, bound ≤ fuel →
    answer .adaptive program fuel (s.withLimit none) request = some (o, t.withLimit none)
  limited : ∀ m, bound ≤ m → ∀ fuel,
    answer .adaptive program fuel (s.withLimit (some m)) request = some (o, t.withLimit (some m))
  live : ∀ limit fuel o' t', (limit = none → bound ≤ fuel) →
    answer .adaptive program fuel (s.withLimit limit) request = some (o', t') →
    LiveWithin bound s t'

/-- A request that its limit does not cut off needs no greater one. -/
theorem endsWithin_of_not_overflow (hscoped : program.Scoped) (hempty : s.stack.frames = [])
    (h : answer .adaptive program fuel (s.withLimit (some bound)) request = some (o, t))
    (hother : ¬ o.IsOverflow) : EndsWithin program s request bound o t := by
  have hlive : LiveWithin bound s t := liveWithin_limit hempty h
  have hunlimited : ∀ fuel', bound ≤ fuel' →
      answer .adaptive program fuel' (s.withLimit none) request = some (o, t.withLimit none) :=
    fun fuel' henough => answer_uncut hempty (fun _ hnone => by cases hnone) h hother
      fun _ => henough
  have hlimited : ∀ m, bound ≤ m → ∀ fuel',
      answer .adaptive program fuel' (s.withLimit (some m)) request =
        some (o, t.withLimit (some m)) :=
    fun m hm fuel' => answer_uncut hempty (fun _ hmax => by cases hmax; exact hm) h hother
      fun hnone => by cases hnone
  refine ⟨answer_isAnswer hscoped rfl h, hother, hunlimited, hlimited, ?_⟩
  intro limit fuel' o' t' henough h'
  cases limit with
  | none =>
    cases (hunlimited fuel' (henough rfl)).symm.trans h'
    exact hlive
  | some m =>
    by_cases hm : bound ≤ m
    · cases (hlimited m hm fuel').symm.trans h'
      exact hlive
    · -- a lower limit allows even fewer calls
      exact (liveWithin_limit hempty h').mono (by omega)

end

/-- Without recursion the depth of calls is bounded by the program. If no
function that the top-level body can reach by calls can reach itself, running a
program with `n` functions from an empty stack ends, never has more than
`n + 1` calls live, and does not fail for lack of depth under any limit of at
least `n + 1`. The same holds with `n` for a call from outside of a function
that cannot reach a cycle. -/
theorem nonrecursive_depth {firstClass : Nat} {p : Program} {program : LinkedProgram}
    (hlink : p.linkFrom firstClass .core = .ok program) {s : State}
    (hempty : s.stack.frames = []) :
    (program.NonRecursive .main →
      ∃ o t, EndsWithin program s .run (program.functions.size + 1) o t) ∧
    ∀ name index args, program.index? name = some index → program.NonRecursive (.user index) →
      ∃ o t, EndsWithin program s (.call name args) program.functions.size o t := by
  have hscoped := Program.linkFrom_scoped hlink
  have hbuiltins := Program.linkFrom_reportsNoOverflow hlink
  have hroom : ∀ bound, (s.withLimit (some bound)).HasRoom bound := by
    intro bound max hmax
    cases hmax
    show s.stack.frames.length + bound ≤ bound
    rw [hempty, List.length_nil, Nat.zero_add]
  constructor
  · intro hmain
    have hanswer : answer .adaptive program 0
        (s.withLimit (some (program.functions.size + 1))) .run = some (_, _) := rfl
    have hother := run_not_overflow hscoped hbuiltins hmain (hroom _) hanswer
    exact ⟨_, _, endsWithin_of_not_overflow hscoped hempty hanswer hother⟩
  · intro name index args hindex hfunction
    obtain ⟨⟨o, t⟩, hanswer⟩ : ∃ out, answer .adaptive program 0
        (s.withLimit (some program.functions.size)) (.call name args) = some out :=
      ⟨_, Option.map_eq_some_iff.mpr ⟨index, hindex, rfl⟩⟩
    have hother := call_not_overflow hscoped hbuiltins hindex hfunction (hroom _) hanswer
    exact ⟨o, t, endsWithin_of_not_overflow hscoped hempty hanswer hother⟩

/-! ### Three calls in a row -/

/-- In `alarm` the top-level body calls `relay`, and that calls `check`. -/
def alarmRank : FunctionKey → Nat
  | .main => 2
  | .user index => index

theorem alarmRank_lt {caller callee : FunctionKey} (h : linkedAlarm.Calls caller callee) :
    alarmRank callee < alarmRank caller := by
  obtain ⟨f, index, args, location, hat, hnode, rfl⟩ := h
  match caller, hat with
  | .main, rfl =>
    have hin : .call (.user index) args location ∈
        [Node.call (.user 1) [.const (.int 1)] ⟨9, 1⟩, .const (.int 1)] := hnode
    simp_all [alarmRank]
  | .user 0, rfl =>
    have hin : .call (.user index) args location ∈ [Node.const (.str "bad")] := hnode
    simp at hin
  | .user 1, rfl =>
    have hin : .call (.user index) args location ∈
        [Node.call (.user 0) [.var 0] ⟨6, 10⟩, .var 0] := hnode
    simp_all [alarmRank]

/-- `alarm` has two functions and no recursion: three calls are enough to run it,
and two for a call of `relay`. A limit of two cuts a run off. -/
theorem alarm_depth :
    alarm.linkFrom 0 .core = .ok linkedAlarm ∧ alarmStart.stack.frames = [] ∧
      linkedAlarm.NonRecursive .main ∧ linkedAlarm.index? "relay" = some 1 ∧
      linkedAlarm.NonRecursive (.user 1) ∧
      (∃ o t, EndsWithin linkedAlarm alarmStart .run 3 o t) ∧
      (∃ o t, EndsWithin linkedAlarm alarmStart (.call "relay" [.int 1]) 2 o t) ∧
      ∃ e t, answer .adaptive linkedAlarm 0 (alarmStart.withLimit (some 2)) .run =
        some (.error e, t) ∧ e.kind = .stackOverflow 2 := by
  have hlink : alarm.linkFrom 0 .core = .ok linkedAlarm := rfl
  have hempty : alarmStart.stack.frames = [] := rfl
  have hmain := LinkedProgram.nonRecursive_of_rank alarmRank alarmRank_lt .main
  have hrelay := LinkedProgram.nonRecursive_of_rank alarmRank alarmRank_lt (.user 1)
  have hindex : linkedAlarm.index? "relay" = some 1 := by decide +kernel
  obtain ⟨hrun, hcall⟩ := nonrecursive_depth hlink hempty
  exact ⟨hlink, hempty, hmain, hindex, hrelay, hrun hmain, hcall "relay" 1 [.int 1] hindex hrelay,
    _, _, rfl, rfl⟩

end Machine

end AdaptiveScript
