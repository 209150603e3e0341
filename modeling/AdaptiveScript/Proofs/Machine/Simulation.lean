import AdaptiveScript.Machine.Session
import AdaptiveScript.Proofs.Linked.Places

/-! # Simulations Between Machines

  Two machines that run the same program under different policies go
  through the same nodes. To relate their runs it is enough to relate their
  single steps: reading and assigning a local, applying an operator, calling
  a builtin, making and changing objects, raising, and entering a call. Each
  of these obligations may rely on the node that the step belongs to.
  Everything else is the shape of the evaluator, which is dealt with here
  once: by induction on the tree (`Steps.eval_rel`), on a body
  (`Steps.execAll_rel`) and on the fuel (`Simulation.inside_rel`).

  `Steps` has the obligations inside one activation, and takes what is known
  about the calls that it makes as it is. A relation that is kept by entering
  a call is a `Simulation`; one that depends on the depth of the calls is a
  family of `Steps`, with an induction of its own.

  A law about the runs of one machine is the case in which the second
  machine is ignored (`Law`).
-/

namespace AdaptiveScript

namespace Machine

variable {p q : Policy} {program : LinkedProgram} {α β : Type}

/-! Replacing the state of one function leaves the rest of a state alone. -/

@[simp] theorem State.trace_setFunction (s : State) (key : FunctionKey) (fs : FunctionState) :
    (s.setFunction key fs).trace = s.trace := by cases key <;> rfl

@[simp] theorem State.stdout_setFunction (s : State) (key : FunctionKey) (fs : FunctionState) :
    (s.setFunction key fs).stdout = s.stdout := by cases key <;> rfl

@[simp] theorem State.surroundings_setFunction (s : State) (key : FunctionKey)
    (fs : FunctionState) : (s.setFunction key fs).surroundings = s.surroundings := by
  cases key <;> rfl

@[simp] theorem State.readings_setFunction (s : State) (key : FunctionKey) (fs : FunctionState) :
    (s.setFunction key fs).readings = s.readings := by cases key <;> rfl

/-! ### The inside of a call -/

/-- The state in which a call has been entered. -/
def State.enter (s : State) (stack : CallStack) : State :=
  State.record { s with stack } (.entered stack.frames)

/-- The state in which the innermost call has been left. -/
def State.leave (s : State) : State :=
  State.record { s with stack := s.stack.pop } (.left s.stack.pop.frames)

theorem within_refused {frame : CallFrame} {x : Run α} {s : State} {e : EvalError}
    (h : s.stack.push frame = .error e) : Run.within frame x s = (.error e, s) := by
  unfold Run.within
  rw [h]

theorem within_entered {frame : CallFrame} {x : Run α} {s : State} {stack : CallStack}
    (h : s.stack.push frame = .ok stack) :
    Run.within frame x s = ((x (s.enter stack)).1, (x (s.enter stack)).2.leave) := by
  unfold Run.within
  rw [h]
  rfl

/-- What happens in a call between its being entered and left. -/
def inside (p : Policy) (program : LinkedProgram) (fuel : Nat) (key : FunctionKey)
    (f : LinkedFunction) (args : List Value) : Run Value :=
  match fuel with
  | 0 => Run.exhausted
  | fuel + 1 => activate p (callUser program (enter p program fuel)) key f args

theorem enter_eq (fuel : Nat) (key : FunctionKey) (f : LinkedFunction) (args : List Value)
    (location : Option Location) :
    enter p program fuel key f args location =
      Run.within ⟨f.name, f.source, location⟩ (inside p program fuel key f args) := by
  cases fuel <;> rfl

/-! An access to a field looks at an object or fails. -/

theorem readField_cases (v : Value) (name : String) :
    (∃ id, readField v name = fun s => (.ok ((s.heap.field? id name).getD .nil), s)) ∨
      readField v name = Run.unsupported (fieldOperation name) [v] := by
  cases v with
  | object id => exact .inl ⟨id, rfl⟩
  | _ => exact .inr rfl

theorem writeField_cases (v : Value) (name : String) (w : Value) :
    (∃ id, writeField v name w = fun s => (.ok (), { s with heap := s.heap.setField id name w })) ∨
      writeField v name w = Run.unsupported (fieldOperation name) [v] := by
  cases v with
  | object id => exact .inl ⟨id, rfl⟩
  | _ => exact .inr rfl

/-- What a builtin answers to a call in a state. -/
def builtinReply (key : FunctionKey) (entry : Builtin.Entry) (inst : Nat) (vs : List Value)
    (s : State) : Builtin.Reply :=
  entry.invoke (invocation key inst vs s)

/-- The step of the trace that a call of a builtin is. -/
def invokedEvent (key : FunctionKey) (entry : Builtin.Entry) (inst : Nat) (vs : List Value)
    (s : State) : Event :=
  .invoked key inst entry.name (invocation key inst vs s)

/-- The state in which a builtin has remembered and printed its reply. -/
def afterReply (key : FunctionKey) (inst : Nat) (e : Event) (reply : Builtin.Reply) (s : State) :
    State :=
  (({ s with readings := s.readings + 1 }.setFunction key
    ((s.function key).setMemory inst reply.memory)).record e).printAll reply.printed

theorem invokeBuiltin_eq (key : FunctionKey) (entry : Builtin.Entry) (inst : Nat)
    (vs : List Value) (location : Location) (s : State) :
    invokeBuiltin key entry inst vs location s =
      Run.ofResult (some location) (builtinReply key entry inst vs s).result
        (afterReply key inst (invokedEvent key entry inst vs s)
          (builtinReply key entry inst vs s) s) := rfl

theorem applyOperator_eq (key : FunctionKey) (op : Operator) (site : Nat) (v w : Value)
    (s : State) :
    applyOperator p key op site v w s =
      Run.ofResult none (p.apply (s.function key) s.heap.className op site v w).1
        ((s.setFunction key (p.apply (s.function key) s.heap.className op site v w).2).record
          (.applied key site v w)) := rfl

@[simp] theorem ofResult_snd (here : Option Location) (result : Except EvalError α) (s : State) :
    (Run.ofResult here result s).2 = s := by
  cases result <;> rfl

/-- A slot that the function gives values: to a parameter or by a statement. -/
def Assigns (f : LinkedFunction) (slot : Nat) : Prop :=
  slot ∈ f.params ∨ ∃ value, .assign slot value ∈ f.body

/-! ### Obligations -/

/-- A relation between the runs of two machines on a program, and what has
to be shown of single steps. Runs are related inside an activation of a
function, and up to a relation of their values. -/
structure Steps (p q : Policy) (program : LinkedProgram) where
  /-- Related runs inside an activation of a function. -/
  rel : FunctionKey → {α β : Type} → (α → β → Prop) → Run α → Run β → Prop
  /-- Related frames of an activation. -/
  frame : FunctionKey → Frame → Frame → Prop
  rel_pure : ∀ {key} {α β : Type} {R : α → β → Prop} {a : α} {b : β},
    R a b → rel key R (pure a) (pure b)
  rel_bind : ∀ {key} {α β γ δ : Type} {R : α → β → Prop} {R' : γ → δ → Prop} {x : Run α}
    {y : Run β} {k : α → Run γ} {l : β → Run δ},
    rel key R x y → (∀ a b, R a b → rel key R' (k a) (l b)) → rel key R' (x >>= k) (y >>= l)
  newFrame : ∀ {key f}, program.at? key = some f →
    rel key (frame key) (Machine.newFrame key) (Machine.newFrame key)
  read : ∀ {key f slot φ ψ}, program.at? key = some f → .var slot ∈ f.subnodes →
    frame key φ ψ → rel key Eq (readSlot p key φ slot) (readSlot q key ψ slot)
  assign : ∀ {key f slot φ ψ} (v : Value), program.at? key = some f → Assigns f slot →
    frame key φ ψ → rel key (frame key) (assignSlot p key φ slot v) (assignSlot q key ψ slot v)
  apply : ∀ {key f op l r site} (v w : Value), program.at? key = some f →
    .binary op l r site ∈ f.subnodes →
    rel key Eq (applyOperator p key op site v w) (applyOperator q key op site v w)
  builtin : ∀ {key f entry inst args location} (vs : List Value), program.at? key = some f →
    .call (.builtin entry inst) args location ∈ f.subnodes →
    rel key Eq (invokeBuiltin key entry inst vs location) (invokeBuiltin key entry inst vs location)
  newObject : ∀ {key f cls fields} (vs : List (String × Value)), program.at? key = some f →
    .new cls fields ∈ f.subnodes →
    rel key Eq (Machine.newObject cls vs) (Machine.newObject cls vs)
  readField : ∀ {key f object name} (v : Value), program.at? key = some f →
    .field object name ∈ f.subnodes →
    rel key Eq (Machine.readField v name) (Machine.readField v name)
  writeField : ∀ {key f object name value} (v w : Value), program.at? key = some f →
    .setField object name value ∈ f.body →
    rel key Eq (Machine.writeField v name w) (Machine.writeField v name w)
  raise : ∀ {key f value location} {α β : Type} {R : α → β → Prop} (v : Value),
    program.at? key = some f → .raise value location ∈ f.body →
    rel key R (raiseValue v location) (raiseValue v location)
  /-- A call of a function that the program does not have. -/
  unknown : ∀ {key f index args location}, program.at? key = some f →
    .call (.user index) args location ∈ f.subnodes → program.functions[index]? = none →
    rel key Eq (Run.faulty (.unknownFunction index) : Run Value)
      (Run.faulty (.unknownFunction index))
  /-- A call with the wrong number of arguments. -/
  arity : ∀ {key f index args location g}, program.at? key = some f →
    .call (.user index) args location ∈ f.subnodes → program.functions[index]? = some g →
    args.length ≠ g.arity →
    rel key Eq
      (Run.fail (.arityMismatch g.name g.arity args.length) (some location) : Run Value)
      (Run.fail (.arityMismatch g.name g.arity args.length) (some location))

/-- Steps that are related also if they are calls. -/
structure Simulation (p q : Policy) (program : LinkedProgram) extends Steps p q program where
  /-- A call that is entered. -/
  within : ∀ {key f index args location g} {x y : Run Value}, program.at? key = some f →
    .call (.user index) args location ∈ f.subnodes → program.functions[index]? = some g →
    args.length = g.arity → rel (.user index) Eq x y →
    rel key Eq (Run.within ⟨g.name, g.source, some location⟩ x)
      (Run.within ⟨g.name, g.source, some location⟩ y)
  exhausted : ∀ {key}, rel key Eq (Run.exhausted : Run Value) Run.exhausted

namespace Steps

variable (S : Steps p q program) {key : FunctionKey} {f : LinkedFunction}
  {call call' : Caller} {φ ψ : Frame}

/-- The calls that nodes make are related. -/
def Calls (call call' : Caller) : Prop :=
  ∀ {key : FunctionKey} {f : LinkedFunction} {index : Nat} {args : List Node} {location : Location}
    (vs : List Value), program.at? key = some f → .call (.user index) args location ∈ f.subnodes →
    vs.length = args.length →
    S.rel key Eq (call index vs (some location)) (call' index vs (some location))

/-! ### Expressions -/

mutual

theorem eval_rel (hf : program.at? key = some f) (hcall : S.Calls call call')
    (hframe : S.frame key φ ψ) : ∀ n : Node, n.subnodes ⊆ f.subnodes →
    S.rel key Eq (eval p call key φ n) (eval q call' key ψ n)
  | .const v, hn => by
    rw [eval, eval]
    exact S.rel_pure rfl
  | .list items, hn => by
    rw [eval, eval]
    rw [Node.subnodes, List.cons_subset] at hn
    refine S.rel_bind (evalAll_rel hf hcall hframe items hn.2) fun vs ws h => ?_
    exact S.rel_pure (by rw [h.1])
  | .var slot, hn => by
    rw [eval, eval]
    exact S.read hf (hn (Node.mem_subnodes_self _)) hframe
  | .binary op left right site, hn => by
    have hself := hn (Node.mem_subnodes_self _)
    rw [eval, eval]
    rw [Node.subnodes, List.cons_subset, List.append_subset] at hn
    refine S.rel_bind (eval_rel hf hcall hframe left hn.2.1) fun v v' hv => ?_
    refine S.rel_bind (eval_rel hf hcall hframe right hn.2.2) fun w w' hw => ?_
    rw [← hv, ← hw]
    exact S.apply v w hf hself
  | .call target args location, hn => by
    have hself := hn (Node.mem_subnodes_self _)
    rw [eval, eval]
    rw [Node.subnodes, List.cons_subset] at hn
    refine S.rel_bind (evalAll_rel hf hcall hframe args hn.2) fun vs ws h => ?_
    -- a call node has as many values as arguments, so its arity check is one of the node
    obtain ⟨hvs, hlength⟩ := h
    subst hvs
    cases target with
    | user index => exact hcall vs hf hself hlength
    | builtin entry inst => exact S.builtin vs hf hself
  | .new cls fields, hn => by
    have hself := hn (Node.mem_subnodes_self _)
    rw [eval, eval]
    rw [Node.subnodes, List.cons_subset] at hn
    refine S.rel_bind (evalFields_rel hf hcall hframe fields hn.2) fun vs ws h => ?_
    rw [← h]
    exact S.newObject vs hf hself
  | .field object name, hn => by
    have hself := hn (Node.mem_subnodes_self _)
    rw [eval, eval]
    rw [Node.subnodes, List.cons_subset] at hn
    refine S.rel_bind (eval_rel hf hcall hframe object hn.2) fun v w h => ?_
    rw [← h]
    exact S.readField v hf hself

theorem evalAll_rel (hf : program.at? key = some f) (hcall : S.Calls call call')
    (hframe : S.frame key φ ψ) : ∀ ns : List Node, Node.subnodesAll ns ⊆ f.subnodes →
    S.rel key (fun vs ws => vs = ws ∧ vs.length = ns.length) (evalAll p call key φ ns)
      (evalAll q call' key ψ ns)
  | [], hns => by
    rw [evalAll, evalAll]
    exact S.rel_pure ⟨rfl, rfl⟩
  | n :: ns, hns => by
    rw [evalAll, evalAll]
    rw [Node.subnodesAll, List.append_subset] at hns
    refine S.rel_bind (eval_rel hf hcall hframe n hns.1) fun v w h => ?_
    refine S.rel_bind (evalAll_rel hf hcall hframe ns hns.2) fun vs ws hs => ?_
    exact S.rel_pure ⟨by rw [h, hs.1], by rw [List.length_cons, List.length_cons, hs.2]⟩

theorem evalFields_rel (hf : program.at? key = some f) (hcall : S.Calls call call')
    (hframe : S.frame key φ ψ) :
    ∀ ns : List (String × Node), Node.subnodesFields ns ⊆ f.subnodes →
    S.rel key Eq (evalFields p call key φ ns) (evalFields q call' key ψ ns)
  | [], hns => by
    rw [evalFields, evalFields]
    exact S.rel_pure rfl
  | (name, n) :: ns, hns => by
    rw [evalFields, evalFields]
    rw [Node.subnodesFields, List.append_subset] at hns
    refine S.rel_bind (eval_rel hf hcall hframe n hns.1) fun v w h => ?_
    refine S.rel_bind (evalFields_rel hf hcall hframe ns hns.2) fun vs ws hs => ?_
    exact S.rel_pure (by rw [h, hs])

end

/-! ### Statements -/

/-- Related ways to leave a statement. -/
inductive Flows (key : FunctionKey) : Flow → Flow → Prop where
  | next {φ ψ : Frame} : S.frame key φ ψ → Flows key (.next φ) (.next ψ)
  | returned (v : Value) : Flows key (.returned v) (.returned v)

theorem exec_rel (hf : program.at? key = some f) (hcall : S.Calls call call')
    (hframe : S.frame key φ ψ) {stmt : StmtNode} (hstmt : stmt ∈ f.body) :
    S.rel key (S.Flows key) (exec p call key φ stmt) (exec q call' key ψ stmt) := by
  have hnode : ∀ n ∈ stmt.nodes, S.rel key Eq (eval p call key φ n) (eval q call' key ψ n) :=
    fun n hn => S.eval_rel hf hcall hframe n (LinkedFunction.subnodes_subset hstmt hn)
  cases stmt with
  | expr node =>
    refine S.rel_bind (hnode node (by simp [StmtNode.nodes])) fun v w h => ?_
    exact S.rel_pure (.next hframe)
  | assign slot value =>
    refine S.rel_bind (hnode value (by simp [StmtNode.nodes])) fun v w h => ?_
    rw [← h]
    refine S.rel_bind (S.assign v hf (.inr ⟨value, hstmt⟩) hframe) fun φ' ψ' h' => ?_
    exact S.rel_pure (.next h')
  | setField object name value =>
    refine S.rel_bind (hnode object (by simp [StmtNode.nodes])) fun v v' hv => ?_
    refine S.rel_bind (hnode value (by simp [StmtNode.nodes])) fun w w' hw => ?_
    rw [← hv, ← hw]
    refine S.rel_bind (S.writeField v w hf hstmt) fun _ _ _ => ?_
    exact S.rel_pure (.next hframe)
  | ret value =>
    cases value with
    | none => exact S.rel_pure (.returned .nil)
    | some value =>
      refine S.rel_bind (hnode value (by simp [StmtNode.nodes])) fun v w h => ?_
      exact S.rel_pure (h ▸ .returned v)
  | raise value location =>
    refine S.rel_bind (hnode value (by simp [StmtNode.nodes])) fun v w h => ?_
    rw [← h]
    exact S.raise v hf hstmt

theorem execAll_rel (hf : program.at? key = some f) (hcall : S.Calls call call')
    (hframe : S.frame key φ ψ) {stmts : List StmtNode} (hstmts : stmts ⊆ f.body) :
    S.rel key Eq (execAll p call key φ stmts) (execAll q call' key ψ stmts) := by
  -- an assignment replaces the frames, so the induction is for all related frames
  induction stmts generalizing φ ψ with
  | nil => exact S.rel_pure rfl
  | cons stmt stmts ih =>
    rw [List.cons_subset] at hstmts
    rw [execAll, execAll]
    refine S.rel_bind (S.exec_rel hf hcall hframe hstmts.1) fun flow flow' hflow => ?_
    cases hflow with
    | next hframe' => exact ih hframe' hstmts.2
    | returned v => exact S.rel_pure rfl

/-! ### Functions -/

theorem bindParams_rel (hf : program.at? key = some f) (hframe : S.frame key φ ψ)
    {bindings : List (Nat × Value)} (hslots : ∀ b ∈ bindings, Assigns f b.1) :
    S.rel key (S.frame key) (bindParams p key bindings φ) (bindParams q key bindings ψ) := by
  induction bindings generalizing φ ψ with
  | nil => exact S.rel_pure hframe
  | cons binding bindings ih =>
    obtain ⟨slot, v⟩ := binding
    rw [bindParams, bindParams]
    have hslot : Assigns f slot := hslots (slot, v) List.mem_cons_self
    refine S.rel_bind (S.assign v hf hslot hframe) fun φ' ψ' hframe' => ?_
    exact ih hframe' fun b hb => hslots b (List.mem_cons_of_mem _ hb)

/-- An activation, given the calls that it makes. -/
theorem activate_rel (hf : program.at? key = some f) (hcall : S.Calls call call')
    (args : List Value) :
    S.rel key Eq (activate p call key f args) (activate q call' key f args) := by
  have hslots : ∀ b ∈ f.params.zip args, Assigns f b.1 :=
    fun b hb => .inl (List.of_mem_zip hb).1
  refine S.rel_bind (S.newFrame hf) fun φ ψ hempty => ?_
  refine S.rel_bind (S.bindParams_rel hf hempty hslots) fun φ' ψ' hframe => ?_
  exact S.execAll_rel hf hcall hframe (List.Subset.refl _)

end Steps

namespace Simulation

variable (S : Simulation p q program) {key : FunctionKey} {f : LinkedFunction}

/-- Calls are related if the insides of the calls are. -/
theorem calls_callUser {fuel fuel' : Nat}
    (hinside : ∀ (index : Nat) (g : LinkedFunction) (args : List Value),
      program.functions[index]? = some g →
      S.rel (.user index) Eq (inside p program fuel (.user index) g args)
        (inside q program fuel' (.user index) g args)) :
    S.Calls (callUser program (enter p program fuel))
      (callUser program (enter q program fuel')) := by
  intro key f index args location vs hf hnode hlength
  cases hg : program.functions[index]? with
  | none =>
    -- nothing is asked of the program here: the evaluator has an answer for this case too
    simp only [callUser, hg]
    exact S.unknown hf hnode hg
  | some g =>
    simp only [callUser, hg, hlength, enter_eq]
    split
    case isTrue harity => exact S.within hf hnode hg harity (hinside index g vs hg)
    case isFalse harity => exact S.arity hf hnode hg harity

/-- The insides of calls are related, whatever the fuel. -/
theorem inside_rel (fuel : Nat) (hf : program.at? key = some f) (args : List Value) :
    S.rel key Eq (inside p program fuel key f args) (inside q program fuel key f args) := by
  -- a call made inside has one unit of fuel less, and may be one of any function
  induction fuel generalizing key f args with
  | zero => exact S.exhausted
  | succ fuel ih =>
    refine S.activate_rel hf (S.calls_callUser fun index g args hg => ?_) args
    have hg' : program.at? (.user index) = some g := hg
    exact ih hg' args

/-- The calls of functions of the program are related. -/
theorem calls (fuel : Nat) :
    S.Calls (callUser program (enter p program fuel)) (callUser program (enter q program fuel)) :=
  S.calls_callUser fun index g args hg =>
    have hg' : program.at? (.user index) = some g := hg
    S.inside_rel fuel hg' args

end Simulation

/-! ### Laws of one machine -/

/-- A property of the runs of a machine on a program, and what has to be
shown of single steps. -/
structure Law (p : Policy) (program : LinkedProgram) where
  /-- What holds of a run inside an activation of a function, whose value is
  described by the predicate. -/
  holds : FunctionKey → {α : Type} → (α → Prop) → Run α → Prop
  /-- What holds of the frames of an activation. -/
  frame : FunctionKey → Frame → Prop
  holds_pure : ∀ {key} {α : Type} {P : α → Prop} {a : α}, P a → holds key P (pure a)
  holds_bind : ∀ {key} {α β : Type} {P : α → Prop} {Q : β → Prop} {x : Run α} {k : α → Run β},
    holds key P x → (∀ a, P a → holds key Q (k a)) → holds key Q (x >>= k)
  holds_mono : ∀ {key} {α : Type} {P Q : α → Prop} {x : Run α},
    (∀ a, P a → Q a) → holds key P x → holds key Q x
  newFrame : ∀ {key f}, program.at? key = some f → holds key (frame key) (Machine.newFrame key)
  read : ∀ {key f slot φ}, program.at? key = some f → .var slot ∈ f.subnodes →
    frame key φ → holds key (fun _ => True) (readSlot p key φ slot)
  assign : ∀ {key f slot φ} (v : Value), program.at? key = some f → Assigns f slot →
    frame key φ → holds key (frame key) (assignSlot p key φ slot v)
  apply : ∀ {key f op l r site} (v w : Value), program.at? key = some f →
    .binary op l r site ∈ f.subnodes → holds key (fun _ => True) (applyOperator p key op site v w)
  builtin : ∀ {key f entry inst args location} (vs : List Value), program.at? key = some f →
    .call (.builtin entry inst) args location ∈ f.subnodes →
    holds key (fun _ => True) (invokeBuiltin key entry inst vs location)
  newObject : ∀ {key f cls fields} (vs : List (String × Value)), program.at? key = some f →
    .new cls fields ∈ f.subnodes → holds key (fun _ => True) (Machine.newObject cls vs)
  readField : ∀ {key f object name} (v : Value), program.at? key = some f →
    .field object name ∈ f.subnodes → holds key (fun _ => True) (Machine.readField v name)
  writeField : ∀ {key f object name value} (v w : Value), program.at? key = some f →
    .setField object name value ∈ f.body → holds key (fun _ => True) (Machine.writeField v name w)
  raise : ∀ {key f value location} {α : Type} {P : α → Prop} (v : Value),
    program.at? key = some f → .raise value location ∈ f.body →
    holds key P (raiseValue v location)
  unknown : ∀ {key f index args location}, program.at? key = some f →
    .call (.user index) args location ∈ f.subnodes → program.functions[index]? = none →
    holds key (fun _ => True) (Run.faulty (.unknownFunction index) : Run Value)
  arity : ∀ {key f index args location g}, program.at? key = some f →
    .call (.user index) args location ∈ f.subnodes → program.functions[index]? = some g →
    args.length ≠ g.arity →
    holds key (fun _ => True)
      (Run.fail (.arityMismatch g.name g.arity args.length) (some location) : Run Value)
  within : ∀ {key f index args location g} {x : Run Value}, program.at? key = some f →
    .call (.user index) args location ∈ f.subnodes → program.functions[index]? = some g →
    args.length = g.arity → holds (.user index) (fun _ => True) x →
    holds key (fun _ => True) (Run.within ⟨g.name, g.source, some location⟩ x)
  exhausted : ∀ {key}, holds key (fun _ => True) (Run.exhausted : Run Value)

namespace Law

variable (L : Law p program)

/-- A law as a simulation that looks at its first machine only. -/
def toSimulation : Simulation p p program where
  -- values of the first machine still need counterparts, or sequences could not be related
  rel key {_ _} R x _ := L.holds key (fun a => ∃ b, R a b) x
  frame key φ _ := L.frame key φ
  rel_pure h := L.holds_pure ⟨_, h⟩
  rel_bind hx hk := L.holds_bind hx fun a ⟨b, hab⟩ => hk a b hab
  newFrame hf := L.holds_mono (fun φ h => ⟨φ, h⟩) (L.newFrame hf)
  -- where equal values are asked for, a value is its own counterpart
  read hf hnode hframe := L.holds_mono (fun a _ => ⟨a, rfl⟩) (L.read hf hnode hframe)
  assign v hf hslot hframe := L.holds_mono (fun φ h => ⟨φ, h⟩) (L.assign v hf hslot hframe)
  apply v w hf hnode := L.holds_mono (fun a _ => ⟨a, rfl⟩) (L.apply v w hf hnode)
  builtin vs hf hnode := L.holds_mono (fun a _ => ⟨a, rfl⟩) (L.builtin vs hf hnode)
  newObject vs hf hnode := L.holds_mono (fun a _ => ⟨a, rfl⟩) (L.newObject vs hf hnode)
  readField v hf hnode := L.holds_mono (fun a _ => ⟨a, rfl⟩) (L.readField v hf hnode)
  writeField v w hf hstmt := L.holds_mono (fun a _ => ⟨a, rfl⟩) (L.writeField v w hf hstmt)
  raise v hf hstmt := L.raise v hf hstmt
  unknown hf hnode hg := L.holds_mono (fun a _ => ⟨a, rfl⟩) (L.unknown hf hnode hg)
  arity hf hnode hg harity := L.holds_mono (fun a _ => ⟨a, rfl⟩) (L.arity hf hnode hg harity)
  within hf hnode hg harity hx :=
    L.holds_mono (fun a _ => ⟨a, rfl⟩)
      (L.within hf hnode hg harity (L.holds_mono (fun _ _ => trivial) hx))
  exhausted := L.holds_mono (fun a _ => ⟨a, rfl⟩) L.exhausted

/-- The law holds of the inside of every call. -/
theorem inside_holds (fuel : Nat) {key : FunctionKey} {f : LinkedFunction}
    (hf : program.at? key = some f) (args : List Value) :
    L.holds key (fun _ => True) (inside p program fuel key f args) :=
  L.holds_mono (fun _ _ => trivial) (L.toSimulation.inside_rel fuel hf args)

/-- The law holds of every expression of a function. -/
theorem eval_holds (fuel : Nat) {key : FunctionKey} {f : LinkedFunction}
    (hf : program.at? key = some f) {φ : Frame} (hframe : L.frame key φ) {n : Node}
    (hn : n ∈ f.subnodes) :
    L.holds key (fun _ => True) (eval p (callUser program (enter p program fuel)) key φ n) :=
  L.holds_mono (fun _ _ => trivial)
    (L.toSimulation.eval_rel hf (L.toSimulation.calls fuel) (ψ := φ) hframe n
      (Node.subnodesAll_subset_of_mem hn))

/-- The law holds of every statement of a function. -/
theorem exec_holds (fuel : Nat) {key : FunctionKey} {f : LinkedFunction}
    (hf : program.at? key = some f) {φ : Frame} (hframe : L.frame key φ) {stmt : StmtNode}
    (hstmt : stmt ∈ f.body) :
    L.holds key (fun _ => True) (exec p (callUser program (enter p program fuel)) key φ stmt) :=
  L.holds_mono (fun _ _ => trivial)
    (L.toSimulation.exec_rel hf (L.toSimulation.calls fuel) (ψ := φ) hframe hstmt)

end Law

end Machine

end AdaptiveScript
