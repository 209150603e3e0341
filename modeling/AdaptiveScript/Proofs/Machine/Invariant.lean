import AdaptiveScript.Proofs.Machine.Simulation

/-! # Invariants That Follow the Values

  A `Law` takes the values of a run as they come. Some properties cannot:
  that every object a run deals with exists is a property of the state, of
  the values in it and of the frames at once, and what it says of a value
  depends on the state. Here the values are followed from node to node.

  `Assertions` say what states, values, frames and errors satisfy, and how a
  state may develop; what holds of a value in a state holds in every state
  that develops from it. An `Invariant` has the obligations for single steps,
  and from them `Invariant.enter_ends` and `Invariant.answer_ends` follow for
  all runs, by the same three inductions as for simulations: on the tree, on
  a body and on the fuel.
-/

namespace AdaptiveScript

/-- The first function has a node that calls the second one. -/
def LinkedProgram.Calls (program : LinkedProgram) (caller callee : FunctionKey) : Prop :=
  ∃ f index args location, program.at? caller = some f ∧
    .call (.user index) args location ∈ f.subnodes ∧ callee = .user index

namespace Machine

variable {p : Policy} {program : LinkedProgram} {α β : Type}

/-! ### Assertions -/

/-- What is asserted along a run. What holds in an activation of a function
may depend on the function. -/
structure Assertions where
  /-- What holds of every state. -/
  state : State → Prop
  /-- How a state may develop. -/
  later : FunctionKey → State → State → Prop
  /-- What holds of a value in a state. -/
  value : State → Value → Prop
  /-- What holds of the frame of an activation. -/
  frame : FunctionKey → State → Frame → Prop
  /-- What holds of an error, of the state in which the run began and of the
  state in which it ended. -/
  error : FunctionKey → State → State → EvalError → Prop

/-- How a run from the state ends. -/
inductive Assertions.Ends (A : Assertions) (key : FunctionKey) (P : State → α → Prop) (s : State) :
    Outcome α × State → Prop where
  | ok {a : α} {s' : State} : A.state s' → A.later key s s' → P s' a → Ends A key P s (.ok a, s')
  | error {e : EvalError} {s' : State} : A.state s' → A.error key s s' e →
    Ends A key P s (.error e, s')
  | fault (f : Fault) {s' : State} : A.state s' → A.later key s s' → Ends A key P s (.fault f, s')
  | outOfFuel {s' : State} : A.state s' → A.later key s s' → Ends A key P s (.outOfFuel, s')

theorem Assertions.Ends.mono {A : Assertions} {key : FunctionKey} {P Q : State → α → Prop}
    {s : State} {out : Outcome α × State} (h : A.Ends key P s out)
    (hP : ∀ s' a, P s' a → Q s' a) : A.Ends key Q s out := by
  cases h with
  | ok hs' hlater ha => exact .ok hs' hlater (hP _ _ ha)
  | error hs' he => exact .error hs' he
  | fault f hs' hlater => exact .fault f hs' hlater
  | outOfFuel hs' hlater => exact .outOfFuel hs' hlater

/-! ### Obligations -/

/-- Assertions about the runs of a machine on a program, and what has to be
shown of single steps. -/
structure Invariant (p : Policy) (program : LinkedProgram) extends Assertions where
  later_refl : ∀ key s, later key s s
  later_trans : ∀ {key s s' s''}, later key s s' → later key s' s'' → later key s s''
  value_later : ∀ {key s s' v}, later key s s' → value s v → value s' v
  frame_later : ∀ {key s s' φ}, later key s s' → frame key s φ → frame key s' φ
  error_later : ∀ {key s s' s'' e}, later key s s' → error key s' s'' e → error key s s'' e
  -- values that are made of others, or of nothing
  nil : ∀ s, value s .nil
  list : ∀ {s vs}, (∀ v ∈ vs, value s v) → value s (.list vs)
  const : ∀ {key f v s}, program.at? key = some f → .const v ∈ f.subnodes → value s v
  newFrame : ∀ {key f s}, program.at? key = some f → state s →
    frame key s (s.function key).slots.newFrame
  -- steps of an activation
  read : ∀ {key f slot φ s}, program.at? key = some f → .var slot ∈ f.subnodes → state s →
    frame key s φ → toAssertions.Ends key value s (readSlot p key φ slot s)
  assign : ∀ {key f slot φ v s}, program.at? key = some f → Assigns f slot → state s →
    frame key s φ → value s v → toAssertions.Ends key (frame key) s (assignSlot p key φ slot v s)
  apply : ∀ {key f op l r site v w s}, program.at? key = some f →
    .binary op l r site ∈ f.subnodes → state s → value s v → value s w →
    toAssertions.Ends key value s (applyOperator p key op site v w s)
  builtin : ∀ {key f entry inst args location vs s}, program.at? key = some f →
    .call (.builtin entry inst) args location ∈ f.subnodes → state s → (∀ v ∈ vs, value s v) →
    toAssertions.Ends key value s (invokeBuiltin key entry inst vs location s)
  newObject : ∀ {key f cls fields vs s}, program.at? key = some f →
    .new cls fields ∈ f.subnodes → state s → vs.map (·.1) = fields.map (·.1) →
    (∀ v ∈ vs, value s v.2) → toAssertions.Ends key value s (Machine.newObject cls vs s)
  readField : ∀ {key f object name v s}, program.at? key = some f →
    .field object name ∈ f.subnodes → state s → value s v →
    toAssertions.Ends key value s (Machine.readField v name s)
  writeField : ∀ {key f object name value' v w s}, program.at? key = some f →
    .setField object name value' ∈ f.body → state s → value s v → value s w →
    toAssertions.Ends key (fun _ _ => True) s (Machine.writeField v name w s)
  raise : ∀ {key f value' location v s}, program.at? key = some f →
    .raise value' location ∈ f.body → state s → value s v →
    toAssertions.Ends key (fun _ _ => False) s (raiseValue v location s : Outcome Flow × State)
  -- calls
  arity : ∀ {key s} (g : LinkedFunction) (got : Nat) (location : Option Location), state s →
    error key s s (s.stack.attach (.arityMismatch g.name g.arity got) location)
  refused : ∀ {key s frame e}, state s → s.stack.push frame = .error e → error key s s e
  entered : ∀ {s frame stack} (key : FunctionKey), state s → s.stack.push frame = .ok stack →
    state (s.enter stack) ∧ later key s (s.enter stack)
  left : ∀ {s} (key : FunctionKey), state s → state s.leave ∧ later key s s.leave
  error_left : ∀ {key s s' e}, error key s s' e → error key s s'.leave e
  later_callee : ∀ {key callee s s'}, program.Calls key callee → later callee s s' → later key s s'
  error_callee : ∀ {key callee s s' e}, program.Calls key callee → error callee s s' e →
    error key s s' e

namespace Invariant

variable (I : Invariant p program) {key : FunctionKey} {f : LinkedFunction} {call : Caller}
  {s : State} {φ : Frame}

/-! ### Sequencing -/

theorem ends_pure {P : State → α → Prop} {a : α} (hs : I.state s) (h : P s a) :
    I.Ends key P s ((pure a : Run α) s) :=
  .ok hs (I.later_refl key s) h

/-- What was known before a run is known, of what develops from it, when the
next one begins. -/
theorem ends_bind {P : State → α → Prop} {Q : State → β → Prop} {x : Run α} {k : α → Run β}
    (hx : I.Ends key P s (x s))
    (hk : ∀ {s' a}, I.state s' → I.later key s s' → P s' a → I.Ends key Q s' (k a s')) :
    I.Ends key Q s ((x >>= k) s) := by
  rw [Run.bind_apply]
  generalize x s = out at hx
  cases hx with
  | error hs' he => exact .error hs' he
  | fault f hs' hlater => exact .fault f hs' hlater
  | outOfFuel hs' hlater => exact .outOfFuel hs' hlater
  | @ok a s' hs' hlater ha =>
    have hrest := hk hs' hlater ha
    show I.Ends key Q s (k a s')
    generalize k a s' = out at hrest
    cases hrest with
    | ok hs'' hlater' hb => exact .ok hs'' (I.later_trans hlater hlater') hb
    | error hs'' he => exact .error hs'' (I.error_later hlater he)
    | fault f hs'' hlater' => exact .fault f hs'' (I.later_trans hlater hlater')
    | outOfFuel hs'' hlater' => exact .outOfFuel hs'' (I.later_trans hlater hlater')

/-! ### Expressions -/

/-- The values of a list. -/
def values (s : State) (vs : List Value) : Prop := ∀ v ∈ vs, I.value s v

/-- The calls that nodes make end as asserted. -/
def CallsEnd (call : Caller) : Prop :=
  ∀ {key : FunctionKey} {f : LinkedFunction} {index : Nat} {args : List Node} {location : Location}
    {vs : List Value} {s : State}, program.at? key = some f →
    .call (.user index) args location ∈ f.subnodes → I.state s → I.values s vs →
    I.Ends key I.value s (call index vs (some location) s)

theorem values_later {s' : State} {vs : List Value} (hlater : I.later key s s')
    (h : I.values s vs) : I.values s' vs :=
  fun v hv => I.value_later hlater (h v hv)

mutual

theorem eval_ends (hf : program.at? key = some f) (hcall : I.CallsEnd call) :
    ∀ (n : Node) {s : State}, n.subnodes ⊆ f.subnodes → I.state s → I.frame key s φ →
    I.Ends key I.value s (eval p call key φ n s)
  | .const v, s, hn, hs, _ => by
    rw [eval]
    exact I.ends_pure hs (I.const hf (hn (Node.mem_subnodes_self _)))
  | .list items, s, hn, hs, hφ => by
    rw [eval]
    rw [Node.subnodes, List.cons_subset] at hn
    refine I.ends_bind (evalAll_ends hf hcall items hn.2 hs hφ) fun hs' _ hvs => ?_
    exact I.ends_pure hs' (I.list hvs)
  | .var slot, s, hn, hs, hφ => by
    rw [eval]
    exact I.read hf (hn (Node.mem_subnodes_self _)) hs hφ
  | .binary op left right site, s, hn, hs, hφ => by
    have hself := hn (Node.mem_subnodes_self _)
    rw [eval]
    rw [Node.subnodes, List.cons_subset, List.append_subset] at hn
    refine I.ends_bind (eval_ends hf hcall left hn.2.1 hs hφ) fun hs' hlater hv => ?_
    have hφ' := I.frame_later hlater hφ
    refine I.ends_bind (eval_ends hf hcall right hn.2.2 hs' hφ') fun hs'' hlater' hw => ?_
    exact I.apply hf hself hs'' (I.value_later hlater' hv) hw
  | .call target args location, s, hn, hs, hφ => by
    have hself := hn (Node.mem_subnodes_self _)
    rw [eval]
    rw [Node.subnodes, List.cons_subset] at hn
    refine I.ends_bind (evalAll_ends hf hcall args hn.2 hs hφ) fun hs' _ hvs => ?_
    cases target with
    | user index => exact hcall hf hself hs' hvs
    | builtin entry inst => exact I.builtin hf hself hs' hvs
  | .new cls fields, s, hn, hs, hφ => by
    have hself := hn (Node.mem_subnodes_self _)
    rw [eval]
    rw [Node.subnodes, List.cons_subset] at hn
    refine I.ends_bind (evalFields_ends hf hcall fields hn.2 hs hφ) fun hs' _ hvs => ?_
    exact I.newObject hf hself hs' hvs.1 hvs.2
  | .field object name, s, hn, hs, hφ => by
    have hself := hn (Node.mem_subnodes_self _)
    rw [eval]
    rw [Node.subnodes, List.cons_subset] at hn
    refine I.ends_bind (eval_ends hf hcall object hn.2 hs hφ) fun hs' _ hv => ?_
    exact I.readField hf hself hs' hv

theorem evalAll_ends (hf : program.at? key = some f) (hcall : I.CallsEnd call) :
    ∀ (ns : List Node) {s : State}, Node.subnodesAll ns ⊆ f.subnodes → I.state s →
    I.frame key s φ → I.Ends key I.values s (evalAll p call key φ ns s)
  | [], s, hns, hs, _ => by
    rw [evalAll]
    exact I.ends_pure hs fun v hv => absurd hv List.not_mem_nil
  | n :: ns, s, hns, hs, hφ => by
    rw [evalAll]
    rw [Node.subnodesAll, List.append_subset] at hns
    refine I.ends_bind (eval_ends hf hcall n hns.1 hs hφ) fun hs' hlater hv => ?_
    have hφ' := I.frame_later hlater hφ
    refine I.ends_bind (evalAll_ends hf hcall ns hns.2 hs' hφ') fun hs'' hlater' hvs => ?_
    exact I.ends_pure hs'' (List.forall_mem_cons.mpr ⟨I.value_later hlater' hv, hvs⟩)

theorem evalFields_ends (hf : program.at? key = some f) (hcall : I.CallsEnd call) :
    ∀ (ns : List (String × Node)) {s : State}, Node.subnodesFields ns ⊆ f.subnodes → I.state s →
    I.frame key s φ →
    I.Ends key (fun s vs => vs.map (·.1) = ns.map (·.1) ∧ ∀ v ∈ vs, I.value s v.2) s
      (evalFields p call key φ ns s)
  | [], s, hns, hs, _ => by
    rw [evalFields]
    exact I.ends_pure hs ⟨rfl, fun v hv => absurd hv List.not_mem_nil⟩
  | (name, n) :: ns, s, hns, hs, hφ => by
    rw [evalFields]
    rw [Node.subnodesFields, List.append_subset] at hns
    refine I.ends_bind (eval_ends hf hcall n hns.1 hs hφ) fun hs' hlater hv => ?_
    have hφ' := I.frame_later hlater hφ
    refine I.ends_bind (evalFields_ends hf hcall ns hns.2 hs' hφ') fun hs'' hlater' hvs => ?_
    refine I.ends_pure hs'' ⟨by rw [List.map_cons, List.map_cons, hvs.1], ?_⟩
    exact List.forall_mem_cons.mpr ⟨I.value_later hlater' hv, hvs.2⟩

end

/-! ### Statements -/

/-- What holds where a statement leaves its activation. -/
def flow (key : FunctionKey) (s : State) : Flow → Prop
  | .next φ => I.frame key s φ
  | .returned v => I.value s v

theorem exec_ends (hf : program.at? key = some f) (hcall : I.CallsEnd call) (hs : I.state s)
    (hφ : I.frame key s φ) {stmt : StmtNode} (hstmt : stmt ∈ f.body) :
    I.Ends key (I.flow key) s (exec p call key φ stmt s) := by
  have hnode : ∀ n ∈ stmt.nodes, ∀ {s}, I.state s → I.frame key s φ →
      I.Ends key I.value s (eval p call key φ n s) :=
    fun n hn => I.eval_ends hf hcall n (LinkedFunction.subnodes_subset hstmt hn)
  cases stmt with
  | expr node =>
    refine I.ends_bind (hnode node (by simp [StmtNode.nodes]) hs hφ) fun hs' hlater _ => ?_
    exact I.ends_pure hs' (I.frame_later hlater hφ)
  | assign slot value =>
    refine I.ends_bind (hnode value (by simp [StmtNode.nodes]) hs hφ) fun hs' hlater hv => ?_
    have hassigned := I.assign hf (.inr ⟨value, hstmt⟩) hs' (I.frame_later hlater hφ) hv
    refine I.ends_bind hassigned fun hs'' _ hφ' => ?_
    exact I.ends_pure hs'' hφ'
  | setField object name value =>
    refine I.ends_bind (hnode object (by simp [StmtNode.nodes]) hs hφ) fun hs₁ hlater₁ hv => ?_
    have hφ₁ := I.frame_later hlater₁ hφ
    refine I.ends_bind (hnode value (by simp [StmtNode.nodes]) hs₁ hφ₁) fun hs₂ hlater₂ hw => ?_
    have hφ₂ := I.frame_later hlater₂ hφ₁
    have hwritten := I.writeField hf hstmt hs₂ (I.value_later hlater₂ hv) hw
    refine I.ends_bind hwritten fun hs₃ hlater₃ _ => ?_
    exact I.ends_pure hs₃ (I.frame_later hlater₃ hφ₂)
  | ret value =>
    cases value with
    | none => exact I.ends_pure hs (I.nil s)
    | some value =>
      refine I.ends_bind (hnode value (by simp [StmtNode.nodes]) hs hφ) fun hs' _ hv => ?_
      exact I.ends_pure hs' hv
  | raise value location =>
    refine I.ends_bind (hnode value (by simp [StmtNode.nodes]) hs hφ) fun hs' _ hv => ?_
    exact (I.raise hf hstmt hs' hv).mono fun _ _ hfalse => hfalse.elim

theorem execAll_ends (hf : program.at? key = some f) (hcall : I.CallsEnd call)
    {stmts : List StmtNode} (hstmts : stmts ⊆ f.body) (hs : I.state s) (hφ : I.frame key s φ) :
    I.Ends key I.value s (execAll p call key φ stmts s) := by
  induction stmts generalizing s φ with
  | nil => exact I.ends_pure hs (I.nil s)
  | cons stmt stmts ih =>
    rw [List.cons_subset] at hstmts
    rw [execAll]
    refine I.ends_bind (I.exec_ends hf hcall hs hφ hstmts.1) fun {s' flow} hs' _ hflow => ?_
    cases flow with
    | next φ' => exact ih hstmts.2 hs' hflow
    | returned v => exact I.ends_pure hs' hflow

/-! ### Functions -/

theorem bindParams_ends (hf : program.at? key = some f) {bindings : List (Nat × Value)}
    (hslots : ∀ b ∈ bindings, Assigns f b.1) (hvalues : ∀ b ∈ bindings, I.value s b.2)
    (hs : I.state s) (hφ : I.frame key s φ) :
    I.Ends key (I.frame key) s (bindParams p key bindings φ s) := by
  induction bindings generalizing s φ with
  | nil => exact I.ends_pure hs hφ
  | cons binding bindings ih =>
    obtain ⟨slot, v⟩ := binding
    rw [List.forall_mem_cons] at hslots hvalues
    rw [bindParams]
    refine I.ends_bind (I.assign hf hslots.1 hs hφ hvalues.1) fun hs' hlater hφ' => ?_
    exact ih hslots.2 (fun b hb => I.value_later hlater (hvalues.2 b hb)) hs' hφ'

/-- An activation, given the calls that it makes. -/
theorem activate_ends (hf : program.at? key = some f) (hcall : I.CallsEnd call)
    {args : List Value} (hs : I.state s) (hargs : I.values s args) :
    I.Ends key I.value s (activate p call key f args s) := by
  have hslots : ∀ b ∈ f.params.zip args, Assigns f b.1 :=
    fun b hb => .inl (List.of_mem_zip hb).1
  have hvalues : ∀ b ∈ f.params.zip args, I.value s b.2 :=
    fun b hb => hargs b.2 (List.of_mem_zip hb).2
  have hempty : I.Ends key (I.frame key) s (Machine.newFrame key s) :=
    .ok hs (I.later_refl key s) (I.newFrame hf hs)
  refine I.ends_bind hempty fun hs' hlater hφ => ?_
  have hvalues' := fun b hb => I.value_later hlater (hvalues b hb)
  refine I.ends_bind (I.bindParams_ends hf hslots hvalues' hs' hφ) fun hs'' _ hφ' => ?_
  exact I.execAll_ends hf hcall (List.Subset.refl _) hs'' hφ'

/-- A call of which the inside ends as asserted. -/
theorem within_ends (frame : CallFrame) {x : Run Value} (hs : I.state s)
    (hx : ∀ {s'}, I.state s' → I.later key s s' → I.Ends key I.value s' (x s')) :
    I.Ends key I.value s (Run.within frame x s) := by
  cases hpush : s.stack.push frame with
  | error e =>
    rw [within_refused hpush]
    exact .error hs (I.refused hs hpush)
  | ok stack =>
    obtain ⟨hentered, hlater⟩ := I.entered key hs hpush
    have hinside := hx hentered hlater
    rw [within_entered hpush]
    generalize x (s.enter stack) = out at hinside
    cases hinside with
    | @ok a s' hs' hlater' ha =>
      obtain ⟨hleft, hlater''⟩ := I.left key hs'
      have hdone := I.later_trans (I.later_trans hlater hlater') hlater''
      exact .ok hleft hdone (I.value_later hlater'' ha)
    | error hs' he => exact .error (I.left key hs').1 (I.error_left (I.error_later hlater he))
    | fault f hs' hlater' =>
      obtain ⟨hleft, hlater''⟩ := I.left key hs'
      exact .fault f hleft (I.later_trans (I.later_trans hlater hlater') hlater'')
    | outOfFuel hs' hlater' =>
      obtain ⟨hleft, hlater''⟩ := I.left key hs'
      exact .outOfFuel hleft (I.later_trans (I.later_trans hlater hlater') hlater'')

/-- What ends as asserted in the activation of a callee does so for the
caller. -/
theorem ends_callee {callee : FunctionKey} {P : State → α → Prop} {out : Outcome α × State}
    (hcalls : program.Calls key callee) (h : I.Ends callee P s out) : I.Ends key P s out := by
  cases h with
  | ok hs' hlater ha => exact .ok hs' (I.later_callee hcalls hlater) ha
  | error hs' he => exact .error hs' (I.error_callee hcalls he)
  | fault f hs' hlater => exact .fault f hs' (I.later_callee hcalls hlater)
  | outOfFuel hs' hlater => exact .outOfFuel hs' (I.later_callee hcalls hlater)

/-- A call by position ends as asserted, for the function that it enters, if
entering the function does. -/
theorem callUser_ends {enter : Enter} {index : Nat} {args : List Value}
    {location : Option Location} (hs : I.state s)
    (henter : ∀ {g}, program.at? (.user index) = some g →
      I.Ends (.user index) I.value s (enter (.user index) g args location s)) :
    I.Ends (.user index) I.value s (callUser program enter index args location s) := by
  unfold callUser
  cases hg : program.functions[index]? with
  | none => exact .fault _ hs (I.later_refl _ s)
  | some g =>
    by_cases harity : args.length = g.arity
    · simp only [if_pos harity]
      exact henter hg
    · simp only [if_neg harity]
      exact .error hs (I.arity g args.length location hs)

/-- The calls that nodes make end as asserted if entering functions does. -/
theorem callsEnd_callUser {enter : Enter}
    (henter : ∀ {key f args location s}, program.at? key = some f → I.state s → I.values s args →
      I.Ends key I.value s (enter key f args location s)) :
    I.CallsEnd (callUser program enter) := by
  intro key f index nodes location vs s hf hnode hs hvs
  have hcalls : program.Calls key (.user index) := ⟨f, index, nodes, location, hf, hnode, rfl⟩
  exact I.ends_callee hcalls (I.callUser_ends hs fun hg => henter hg hs hvs)

/-- Entering a function ends as asserted, whatever the fuel. -/
theorem enter_ends (fuel : Nat) (hf : program.at? key = some f) {args : List Value}
    {location : Option Location} (hs : I.state s) (hargs : I.values s args) :
    I.Ends key I.value s (enter p program fuel key f args location s) := by
  -- a call made inside has one unit of fuel less, and may be one of any function
  induction fuel generalizing key f args location s with
  | zero =>
    rw [enter_eq]
    apply I.within_ends _ hs
    intro s' hs' _
    exact .outOfFuel hs' (I.later_refl key s')
  | succ fuel ih =>
    rw [enter_eq]
    apply I.within_ends _ hs
    intro s' hs' hlater
    have hcalls : I.CallsEnd (callUser program (enter p program fuel)) :=
      I.callsEnd_callUser fun hf hs hargs => ih hf hs hargs
    exact I.activate_ends hf hcalls hs' (I.values_later hlater hargs)

end Invariant

/-! ### Requests -/

/-- The function that a request enters, by its place. -/
def enteredKey? (program : LinkedProgram) : Request → Option FunctionKey
  | .run => some .main
  | .call name _ => (program.index? name).map .user

/-- The arguments of a request. -/
def Request.args : Request → List Value
  | .run => []
  | .call _ args => args

/-- A request ends as asserted, for the function that it enters. -/
theorem Invariant.answer_ends (I : Invariant p program) {fuel : Nat} {s : State}
    {request : Request} {out : Outcome Value × State} (hs : I.state s)
    (hargs : I.values s request.args) (h : answer p program fuel s request = some out) :
    ∃ key, enteredKey? program request = some key ∧ I.Ends key I.value s out := by
  cases request with
  | run =>
    have hmain : program.at? .main = some program.main := rfl
    cases h
    exact ⟨.main, rfl, I.enter_ends _ hmain hs hargs⟩
  | call name args =>
    obtain ⟨index, hindex, hcall⟩ := Option.map_eq_some_iff.mp h
    refine ⟨.user index, by simp [enteredKey?, hindex], ?_⟩
    rw [← hcall]
    exact I.callUser_ends hs fun hg => I.enter_ends _ hg hs hargs

end Machine

end AdaptiveScript
