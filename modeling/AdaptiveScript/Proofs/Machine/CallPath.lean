import AdaptiveScript.Proofs.Machine.Simulation
import AdaptiveScript.Proofs.Operator.Failure
import Mathlib.Data.List.Chain

/-! # Backtraces Are Call Paths

  An error that ends a request has a backtrace unless the request was
  refused before anything was entered. The backtrace is then a path through
  the program: it starts at the function that was asked for, each frame
  stands at a call node whose target is the function of the next inner
  frame, and the innermost frame stands where the error arose (`Origin`).

  A path is put together where the error arises, from the calls that are
  live there; what happens afterwards is that these calls are left one by
  one, and none of them touches the path. The trace shows it: it ends with
  the leaving of exactly the calls of the path (`unwound`).

  The proof is a law of single runs (`callPaths`). Inside an activation the
  innermost live call is that of the activation; a run leaves the stack as
  it was, and if it fails, the live calls at the failure are those of the
  activation and a chain of calls that it made (`Failed`).
-/

namespace AdaptiveScript

/-! ### Errors without a path -/

/-- An error that has not been given a call path. -/
def EvalError.Pathless (e : EvalError) : Prop := e.backtrace = none

theorem EvalError.unsupportedOperands_pathless (names : ClassNames) (operation : String)
    (operands : List Value) : (unsupportedOperands names operation operands).Pathless := rfl

theorem EvalError.arityMismatch_pathless (name : String) (expected got : Nat) :
    (arityMismatch name expected got).Pathless := rfl

theorem EvalError.stackOverflow_pathless (limit : Nat) : (stackOverflow limit).Pathless := rfl

/-- Operators and the core builtins make errors that have no path. -/
theorem EvalError.Plain.pathless {e : EvalError} (h : e.Plain) : e.Pathless := by
  rw [h.bare]
  rfl

namespace Machine

/-! ### Call paths of a program -/

/-- The function that a request enters. -/
def entered? (program : LinkedProgram) : Request → Option LinkedFunction
  | .run => some program.main
  | .call name _ => program.function? name

/-- A request that is turned down before any call is entered: the number of
arguments is wrong, or no call is allowed at all. -/
def Refused (program : LinkedProgram) (limit : Option Nat) : Request → Prop
  | .run => limit = some 0
  | .call name args => ∃ f, program.function? name = some f ∧ (args.length ≠ f.arity ∨ limit = some 0)

/-- A frame of a backtrace stands for an activation of the function. -/
def Stands (f : LinkedFunction) (frame : BacktraceFrame) : Prop :=
  frame.function = f.name ∧ frame.source = f.source

/-- The outer frame stands at a call node that calls the function of the
inner frame. -/
def CalledFrom (program : LinkedProgram) (callee caller : BacktraceFrame) : Prop :=
  ∃ key f index args location g, program.at? key = some f ∧ Stands f caller ∧
    caller.location = some location ∧ .call (.user index) args location ∈ f.subnodes ∧
    program.functions[index]? = some g ∧ Stands g callee

/-- Where an error can arise in an activation of a function, the location
that the innermost frame of its backtrace has, and the error. -/
inductive Origin (program : LinkedProgram) (limit : Option Nat) (f : LinkedFunction) :
    Option Location → EvalError → Prop where
  /-- A raised value: at the statement. -/
  | raise {value : Node} {location : Location} (v : Value) (stack : CallStack) (heap : Heap) :
    .raise value location ∈ f.body →
    Origin program limit f (some location) (Raise.raise v location stack heap).1
  /-- A builtin that fails: at the call. -/
  | builtin {entry : Builtin.Entry} {inst : Nat} {args : List Node} {location : Location}
    {i : Builtin.Invocation} {e : EvalError} :
    .call (.builtin entry inst) args location ∈ f.subnodes → (entry.invoke i).result = .error e →
    Origin program limit f (some location) e
  /-- A call with the wrong number of arguments: at the call. -/
  | arity {index : Nat} {args : List Node} {location : Location} {g : LinkedFunction} :
    .call (.user index) args location ∈ f.subnodes → program.functions[index]? = some g →
    args.length ≠ g.arity →
    Origin program limit f (some location) (.arityMismatch g.name g.arity args.length)
  /-- An operator that fails: nowhere. -/
  | operator {op : Operator} {left right : Node} {place : Nat} {names : ClassNames} {v w : Value}
    {site : Site} {e : EvalError} :
    .binary op left right place ∈ f.subnodes → (op.evaluate names v w site).1 = .error e →
    Origin program limit f none e
  /-- A field of something that is not an object: nowhere. -/
  | readField {object : Node} {name : String} (names : ClassNames) (v : Value) :
    .field object name ∈ f.subnodes →
    Origin program limit f none (.unsupportedOperands names (fieldOperation name) [v])
  | writeField {object : Node} {name : String} {value : Node} (names : ClassNames) (v : Value) :
    .setField object name value ∈ f.body →
    Origin program limit f none (.unsupportedOperands names (fieldOperation name) [v])
  /-- A call beyond the depth limit: nowhere. -/
  | depth {index max : Nat} {args : List Node} {location : Location} {g : LinkedFunction} :
    .call (.user index) args location ∈ f.subnodes → program.functions[index]? = some g →
    limit = some max → Origin program limit f none (.stackOverflow max)

/-! ### Live calls -/

/-- The live calls after the steps of a trace, as its last call step says. -/
def liveCalls : List Event → List CallFrame
  | .entered stack :: _ => stack
  | .left stack :: _ => stack
  | _ :: trace => liveCalls trace
  | [] => []

/-- The steps of leaving the inner calls one after the other, the latest
first, while the outer calls stay. -/
def unwound (outer : List CallFrame) : List CallFrame → List Event
  | [] => []
  | _ :: inner => unwound outer inner ++ [.left (inner ++ outer)]

/-- The backtrace of an error of a request is a call path: from the function
that was entered to where the error arose, and untouched by the calls being
left, with which the trace ends. -/
structure CallPath (program : LinkedProgram) (limit : Option Nat) (request : Request)
    (e : EvalError) (backtrace : Backtrace) (trace : List Event) : Prop where
  outermost : ∃ f frame, entered? program request = some f ∧ backtrace.getLast? = some frame ∧
    Stands f frame
  calls : backtrace.IsChain (CalledFrom program)
  innermost : ∃ key f location error, program.at? key = some f ∧
    backtrace.head? = some ⟨f.name, f.source, location⟩ ∧ Origin program limit f location error ∧
    e = { error with backtrace := some backtrace }
  unwinding : ∃ location frames before, backtrace = CallStack.path location frames ∧
    liveCalls before = frames ∧ trace = unwound [] frames ++ before

/-! ### Stacks and traces -/

theorem unwound_append (outer inner : List CallFrame) (frame : CallFrame) :
    unwound outer (inner ++ [frame]) = .left outer :: unwound (frame :: outer) inner := by
  induction inner with
  | nil => rfl
  | cons f inner ih =>
    show unwound outer (inner ++ [frame]) ++ [.left ((inner ++ [frame]) ++ outer)] =
      .left outer :: (unwound (frame :: outer) inner ++ [.left (inner ++ frame :: outer)])
    rw [ih, List.append_assoc, List.singleton_append, List.cons_append]

/-- An error without a path gets the path of the live calls. -/
theorem attach_pathless {stack : CallStack} {e : EvalError} (he : e.Pathless)
    (hstack : stack.frames ≠ []) (here : Option Location) :
    stack.attach e here = { e with backtrace := some (CallStack.path here stack.frames) } := by
  have hframes : stack.frames.isEmpty = false := by
    cases hf : stack.frames with
    | nil => exact absurd hf hstack
    | cons f outer => rfl
  have hnone : e.backtrace.isSome = false := by rw [he]; rfl
  unfold CallStack.attach CallStack.capture
  rw [hframes, hnone]
  rfl

/-- Without live calls there is no path to attach. -/
theorem attach_empty {stack : CallStack} (h : stack.frames = []) (e : EvalError)
    (here : Option Location) : stack.attach e here = e := by
  unfold CallStack.attach
  rw [h]
  rfl

/-- A call is refused only by a limit. -/
theorem push_error {stack : CallStack} {frame : CallFrame} {e : EvalError}
    (h : stack.push frame = .error e) :
    ∃ max, stack.maxDepth = some max ∧ max ≤ stack.frames.length ∧
      e = stack.attach (.stackOverflow max) none := by
  unfold CallStack.push at h
  split at h
  case isTrue hfull =>
    cases h
    unfold CallStack.isFull at hfull
    split at hfull
    · cases hfull
    · rename_i max hmax
      refine ⟨max, hmax, ?_, ?_⟩
      · rw [← stack.depth_eq]
        exact of_decide_eq_true hfull
      · unfold CallStack.overflow
        rw [hmax]
        rfl
  case isFalse => cases h

theorem push_frames {stack stack' : CallStack} {frame : CallFrame}
    (h : stack.push frame = .ok stack') :
    stack'.frames = frame :: stack.frames ∧ stack'.maxDepth = stack.maxDepth ∧
      stack'.pop = stack := by
  unfold CallStack.push at h
  split at h <;> cases h
  exact ⟨rfl, rfl, rfl⟩

theorem push_below {stack stack' : CallStack} {frame : CallFrame} {max : Nat}
    (h : stack.push frame = .ok stack') (hmax : stack.maxDepth = some max) :
    stack.frames.length < max := by
  unfold CallStack.push CallStack.isFull at h
  rw [hmax] at h
  simp only [decide_eq_true_eq] at h
  split at h
  · cases h
  · rw [← stack.depth_eq]
    omega

/-! The path of some calls, from the outermost one on. -/

theorem path_append_cons (here : Option Location) (inner : List CallFrame) (frame : CallFrame)
    (outer : List CallFrame) :
    CallStack.path here (inner ++ frame :: outer) =
      CallStack.path here (inner ++ [frame]) ++ CallStack.path frame.callSite outer := by
  induction inner generalizing here with
  | nil => rfl
  | cons f inner ih =>
    rw [List.cons_append, List.cons_append, CallStack.path, CallStack.path, ih, List.cons_append]

theorem getLast?_path (here : Option Location) (inner : List CallFrame) (frame : CallFrame) :
    ∃ location, (CallStack.path here (inner ++ [frame])).getLast? =
      some ⟨frame.function, frame.source, location⟩ := by
  induction inner generalizing here with
  | nil => exact ⟨here, rfl⟩
  | cons f inner ih =>
    obtain ⟨location, hlast⟩ := ih f.callSite
    refine ⟨location, ?_⟩
    rw [List.cons_append, CallStack.path, List.getLast?_cons, hlast]
    rfl

/-! ### Failures -/

/-- Calls that lead on from an activation of a function, innermost first. -/
inductive CallChain (program : LinkedProgram) : FunctionKey → List CallFrame → Prop where
  | nil (key : FunctionKey) : CallChain program key []
  | call {key : FunctionKey} {f g : LinkedFunction} {index : Nat} {args : List Node}
    {location : Location} {inner : List CallFrame} :
    program.at? key = some f → .call (.user index) args location ∈ f.subnodes →
    program.functions[index]? = some g → CallChain program (.user index) inner →
    CallChain program key (inner ++ [⟨g.name, g.source, some location⟩])

/-- A chain of calls is a chain of call nodes of the program. -/
theorem CallChain.isChain {program : LinkedProgram} {key : FunctionKey} {inner : List CallFrame}
    (h : CallChain program key inner) {f : LinkedFunction} (hf : program.at? key = some f)
    (callSite here : Option Location) :
    (CallStack.path here (inner ++ [⟨f.name, f.source, callSite⟩])).IsChain
      (CalledFrom program) := by
  -- the chain grows at its outer end, where the function of the activation is
  induction h generalizing f callSite with
  | nil key => exact List.isChain_singleton _
  | @call key f' g index args location inner hf' hnode hg _ ih =>
    obtain rfl : f = f' := Option.some.inj (hf.symm.trans hf')
    rw [List.append_assoc, List.singleton_append, path_append_cons]
    have hinner := ih (f := g) hg (some location)
    refine hinner.append (List.isChain_singleton _) ?_
    -- the new pair: the frame that made the call, and the last one before it
    intro callee hcallee caller hcaller
    obtain ⟨location', hlast⟩ := getLast?_path here inner ⟨g.name, g.source, some location⟩
    rw [hlast] at hcallee
    cases hcallee
    cases hcaller
    exact ⟨key, f, index, args, location, g, hf, ⟨rfl, rfl⟩, rfl, hnode, hg, ⟨rfl, rfl⟩⟩

/-- The innermost of the calls is an activation of the function. -/
def Innermost (f : LinkedFunction) (frames : List CallFrame) : Prop :=
  ∃ callSite outer, frames = ⟨f.name, f.source, callSite⟩ :: outer

/-- What is known when a run inside an activation has failed: the live calls
at the failure were those of the activation, `outer`, and further ones that
it made, and these have been left since. -/
inductive Failed (program : LinkedProgram) (limit : Option Nat) (key : FunctionKey)
    (outer : List CallFrame) (e : EvalError) (trace : List Event) : Prop where
  | intro {inner : List CallFrame} {key' : FunctionKey} {f : LinkedFunction}
    {location : Option Location} {error : EvalError} {before : List Event}
    (chain : CallChain program key inner)
    (function : program.at? key' = some f)
    (innermost : Innermost f (inner ++ outer))
    (origin : Origin program limit f location error)
    (path : e = { error with backtrace := some (CallStack.path location (inner ++ outer)) })
    (live : liveCalls before = inner ++ outer)
    (left : trace = unwound outer inner ++ before)

/-- A failure inside a call is one of the caller once the call is left. -/
theorem Failed.leave {program : LinkedProgram} {limit : Option Nat} {key : FunctionKey}
    {f g : LinkedFunction} {index : Nat} {args : List Node} {location : Location}
    {outer : List CallFrame} {e : EvalError} {trace : List Event} (hf : program.at? key = some f)
    (hnode : .call (.user index) args location ∈ f.subnodes)
    (hg : program.functions[index]? = some g)
    (h : Failed program limit (.user index) (⟨g.name, g.source, some location⟩ :: outer) e trace) :
    Failed program limit key outer e (.left outer :: trace) := by
  obtain ⟨chain, function, innermost, origin, path, live, left⟩ := h
  -- the same live calls, with the call that is left counted among the inner ones
  rw [List.append_cons] at innermost path live
  refine .intro (.call hf hnode hg chain) function innermost origin path live ?_
  rw [unwound_append, left]
  rfl

/-- A state inside an activation of the function: the innermost live call is
the activation, and the trace agrees with the stack. -/
structure Ready (program : LinkedProgram) (key : FunctionKey) (s : State) : Prop where
  innermost : ∃ f, program.at? key = some f ∧ Innermost f s.stack.frames
  live : liveCalls s.trace = s.stack.frames

/-- How a run from a state inside an activation ends: the stack is as it was,
and a failure is one inside the activation. -/
inductive Kept (program : LinkedProgram) (key : FunctionKey) (s : State) {α : Type}
    (P : α → Prop) : Outcome α × State → Prop where
  | ok {a : α} {s' : State} : P a → s'.stack = s.stack → liveCalls s'.trace = s.stack.frames →
    Kept program key s P (.ok a, s')
  | error {e : EvalError} {s' : State} : s'.stack = s.stack →
    Failed program s.stack.maxDepth key s.stack.frames e s'.trace →
    Kept program key s P (.error e, s')
  | fault (f : Fault) {s' : State} : s'.stack = s.stack → Kept program key s P (.fault f, s')
  | outOfFuel {s' : State} : s'.stack = s.stack → Kept program key s P (.outOfFuel, s')

namespace Kept

variable {program : LinkedProgram} {key : FunctionKey} {α β : Type} {P : α → Prop} {Q : β → Prop}
  {s : State}

theorem mono {P' : α → Prop} (hP : ∀ a, P a → P' a) {out : Outcome α × State}
    (h : Kept program key s P out) : Kept program key s P' out := by
  cases h with
  | ok ha hstack hlive => exact .ok (hP _ ha) hstack hlive
  | error hstack hfailed => exact .error hstack hfailed
  | fault f hstack => exact .fault f hstack
  | outOfFuel hstack => exact .outOfFuel hstack

/-- Only the stack of the first state matters. -/
theorem of_stack {s₁ : State} (h₁ : s₁.stack = s.stack) {out : Outcome α × State}
    (h : Kept program key s₁ P out) : Kept program key s P out := by
  cases h with
  | ok ha hstack hlive => exact .ok ha (hstack.trans h₁) (h₁ ▸ hlive)
  | error hstack hfailed => exact .error (hstack.trans h₁) (h₁ ▸ hfailed)
  | fault f hstack => exact .fault f (hstack.trans h₁)
  | outOfFuel hstack => exact .outOfFuel (hstack.trans h₁)

theorem bind {x : Run α} {k : α → Run β} (hs : Ready program key s)
    (hx : Kept program key s P (x s))
    (hk : ∀ a, P a → ∀ s, Ready program key s → Kept program key s Q (k a s)) :
    Kept program key s Q ((x >>= k) s) := by
  rw [Run.bind_apply]
  generalize x s = out at hx
  cases hx with
  | @ok a s' ha hstack hlive =>
    -- the first run has left all calls that it made
    have hs' : Ready program key s' := ⟨hstack ▸ hs.innermost, hstack ▸ hlive⟩
    exact (hk a ha s' hs').of_stack hstack
  | error hstack hfailed => exact .error hstack hfailed
  | fault f hstack => exact .fault f hstack
  | outOfFuel hstack => exact .outOfFuel hstack

/-- A run that fails where it is, with an error that has no path yet. -/
theorem fail (hs : Ready program key s) {f : LinkedFunction} (hf : program.at? key = some f)
    {e : EvalError} (he : e.Pathless) {here : Option Location}
    (horigin : Origin program s.stack.maxDepth f here e) :
    Kept program key s P (Run.fail e here s) := by
  obtain ⟨f', hf', hinner⟩ := hs.innermost
  obtain rfl : f = f' := Option.some.inj (hf.symm.trans hf')
  have hframes : s.stack.frames ≠ [] := by
    obtain ⟨callSite, outer, hcons⟩ := hinner
    rw [hcons]
    exact List.cons_ne_nil _ _
  refine .error rfl ?_
  exact .intro (.nil key) hf hinner horigin (attach_pathless he hframes here) hs.live rfl

/-- A result in a state that differs from the first one neither in the stack
nor in the live calls. -/
theorem ofResult (hs : Ready program key s) {f : LinkedFunction} (hf : program.at? key = some f)
    {here : Option Location} {result : Except EvalError α} {s' : State}
    (hstack : s'.stack = s.stack) (hlive : liveCalls s'.trace = liveCalls s.trace)
    (hok : ∀ {a}, result = .ok a → P a)
    (herror : ∀ {e}, result = .error e →
      e.Pathless ∧ Origin program s.stack.maxDepth f here e) :
    Kept program key s P (Run.ofResult here result s') := by
  cases result with
  | ok a => exact .ok (hok rfl) hstack (hlive.trans hs.live)
  | error e =>
    obtain ⟨he, horigin⟩ := herror rfl
    have hs' : Ready program key s' :=
      ⟨hstack ▸ hs.innermost, by rw [hlive, hs.live, hstack]⟩
    have hfailed : Kept program key s' P (Run.fail e here s') :=
      .fail hs' hf he (by rw [hstack]; exact horigin)
    exact hfailed.of_stack hstack

theorem within (hs : Ready program key s) {f g : LinkedFunction} {index : Nat} {args : List Node}
    {location : Location} (hf : program.at? key = some f)
    (hnode : .call (.user index) args location ∈ f.subnodes)
    (hg : program.functions[index]? = some g) {x : Run Value}
    (hx : ∀ s, Ready program (.user index) s →
      Kept program (.user index) s (fun _ => True) (x s)) :
    Kept program key s (fun _ => True) (Run.within ⟨g.name, g.source, some location⟩ x s) := by
  cases hpush : s.stack.push ⟨g.name, g.source, some location⟩ with
  | error e =>
    -- the call was not entered: the failure is the caller's own
    obtain ⟨max, hmax, -, he⟩ := push_error hpush
    rw [within_refused hpush, he]
    exact fail hs hf (EvalError.stackOverflow_pathless max) (.depth hnode hg hmax)
  | ok stack =>
    obtain ⟨hframes, hlimit, hpop⟩ := push_frames hpush
    have hentered : Ready program (.user index) (s.enter stack) :=
      ⟨⟨g, hg, _, _, hframes⟩, rfl⟩
    have hinside := hx _ hentered
    have hleft : ∀ {s' : State}, s'.stack = stack → s'.leave.stack = s.stack := by
      intro s' hs'
      rw [← hpop, ← hs']
      rfl
    rw [within_entered hpush]
    generalize x (s.enter stack) = out at hinside
    cases hinside with
    | ok _ hstack _ =>
      refine .ok trivial (hleft hstack) ?_
      rw [← hleft hstack]
      rfl
    | error hstack hfailed =>
      refine .error (hleft hstack) ?_
      replace hfailed : Failed program stack.maxDepth (.user index) stack.frames _ _ := hfailed
      rw [hframes, hlimit] at hfailed
      rw [← hleft hstack] at hfailed ⊢
      exact hfailed.leave hf hnode hg
    | fault f hstack => exact .fault f (hleft hstack)
    | outOfFuel hstack => exact .outOfFuel (hleft hstack)

end Kept

/-! ### The law -/

theorem liveCalls_printAll (s : State) (texts : List String) :
    liveCalls (s.printAll texts).trace = liveCalls s.trace := by
  induction texts generalizing s with
  | nil => rfl
  | cons text texts ih => exact ih (s.print text)

theorem stack_printAll (s : State) (texts : List String) :
    (s.printAll texts).stack = s.stack := by
  induction texts generalizing s with
  | nil => rfl
  | cons text texts ih => exact ih (s.print text)

theorem raise_backtrace (v : Value) (location : Location) (stack : CallStack) (heap : Heap) :
    (Raise.raise v location stack heap).1.backtrace =
      some (CallStack.path (some location) stack.frames) := by
  cases v <;> rfl

section

variable {program : LinkedProgram} {key : FunctionKey} {f : LinkedFunction} {s : State}

theorem unsupported_kept {α : Type} {P : α → Prop} (hs : Ready program key s)
    (hf : program.at? key = some f) {operation : String} {v : Value}
    (horigin : Origin program s.stack.maxDepth f none
      (.unsupportedOperands s.heap.className operation [v])) :
    Kept program key s P (Run.unsupported operation [v] s) :=
  .fail hs hf (EvalError.unsupportedOperands_pathless _ _ _) horigin

theorem apply_kept (hs : Ready program key s) (hf : program.at? key = some f) {op : Operator}
    {left right : Node} {site : Nat} (hnode : .binary op left right site ∈ f.subnodes)
    (v w : Value) :
    Kept program key s (fun _ => True) (applyOperator .adaptive key op site v w s) := by
  refine .ofResult hs hf ?_ ?_ (fun _ => trivial) fun he => ?_
  · exact State.stack_setFunction _ _ _
  · show liveCalls (s.setFunction key _).trace = _
    rw [State.trace_setFunction]
  · exact ⟨(Operator.evaluate_plain he).pathless, .operator hnode he⟩

theorem builtin_kept (hs : Ready program key s) (hf : program.at? key = some f)
    (hplaced : f.Placed .core) {entry : Builtin.Entry} {inst : Nat} {args : List Node}
    {location : Location} (hnode : .call (.builtin entry inst) args location ∈ f.subnodes)
    (vs : List Value) :
    Kept program key s (fun _ => True) (invokeBuiltin key entry inst vs location s) := by
  rw [invokeBuiltin_eq]
  refine .ofResult hs hf ?_ ?_ (fun _ => trivial) fun he => ?_
  · rw [afterReply, stack_printAll, State.stack_record, State.stack_setFunction]
  · rw [afterReply, liveCalls_printAll]
    show liveCalls (State.setFunction _ key _).trace = _
    rw [State.trace_setFunction]
  · exact ⟨(Builtin.core_plain (hplaced.builtin_declared hnode) he).pathless, .builtin hnode he⟩

theorem raise_kept {α : Type} {P : α → Prop} (hs : Ready program key s)
    (hf : program.at? key = some f) {value : Node} {location : Location}
    (hstmt : .raise value location ∈ f.body) (v : Value) :
    Kept program key s P (raiseValue v location s) := by
  obtain ⟨f', hf', hinner⟩ := hs.innermost
  obtain rfl : f = f' := Option.some.inj (hf.symm.trans hf')
  refine .error rfl ?_
  refine .intro (.nil key) hf hinner (.raise v s.stack s.heap hstmt) ?_ hs.live rfl
  -- the error was made with the path of the live calls
  rw [List.nil_append, ← raise_backtrace v location s.stack s.heap]
  rfl

end

/-- Runs inside activations keep the stack, and their failures have call
paths. -/
def callPaths (program : LinkedProgram)
    (hplaced : ∀ {key f}, program.at? key = some f → f.Placed .core) : Law .adaptive program where
  holds key {_} P x := ∀ s, Ready program key s → Kept program key s P (x s)
  frame _ _ := True
  holds_pure h s hs := .ok h rfl hs.live
  holds_bind hx hk s hs := .bind hs (hx s hs) hk
  holds_mono hP hx s hs := (hx s hs).mono hP
  newFrame _ s hs := .ok trivial rfl hs.live
  read _ _ _ s hs := .ok trivial rfl hs.live
  assign v _ _ _ s hs :=
    .ok trivial (State.stack_setFunction _ _ _) (by
      show liveCalls (s.setFunction _ _).trace = _
      rw [State.trace_setFunction, hs.live])
  apply v w hf hnode s hs := apply_kept hs hf hnode v w
  builtin vs hf hnode s hs := builtin_kept hs hf (hplaced hf) hnode vs
  newObject vs _ _ s hs := .ok trivial rfl hs.live
  readField v hf hnode s hs := by
    rcases readField_cases v _ with ⟨id, hread⟩ | hfail
    · rw [hread]
      exact .ok trivial rfl hs.live
    · rw [hfail]
      exact unsupported_kept hs hf (.readField _ v hnode)
  writeField v w hf hstmt s hs := by
    rcases writeField_cases v _ w with ⟨id, hwrite⟩ | hfail
    · rw [hwrite]
      exact .ok trivial rfl hs.live
    · rw [hfail]
      exact unsupported_kept hs hf (.writeField _ v hstmt)
  raise v hf hstmt s hs := raise_kept hs hf hstmt v
  unknown _ _ _ s _ := .fault _ rfl
  arity hf hnode hg harity s hs :=
    .fail hs hf (EvalError.arityMismatch_pathless _ _ _) (.arity hnode hg harity)
  within hf hnode hg _ hx s hs := .within hs hf hnode hg hx
  exhausted s _ := .outOfFuel rfl

/-! ### Requests -/

section

variable {program : LinkedProgram} {s s' : State} {e : EvalError}

/-- The backtrace of a failure in the only live call. -/
theorem Failed.callPath {limit : Option Nat} {key : FunctionKey} {f : LinkedFunction}
    {trace : List Event} {request : Request} (hrequest : entered? program request = some f)
    (hf : program.at? key = some f)
    (h : Failed program limit key [⟨f.name, f.source, none⟩] e trace) :
    ∃ backtrace, e.backtrace = some backtrace ∧
      CallPath program limit request e backtrace (.left [] :: trace) := by
  obtain ⟨chain, function, innermost, origin, path, live, left⟩ := h
  refine ⟨_, by rw [path], ?_, chain.isChain hf none _, ?_, ?_⟩
  · obtain ⟨location, hlast⟩ := getLast?_path _ _ ⟨f.name, f.source, none⟩
    exact ⟨f, _, hrequest, hlast, ⟨rfl, rfl⟩⟩
  · obtain ⟨callSite, outer, hframes⟩ := innermost
    refine ⟨_, _, _, _, function, ?_, origin, path⟩
    rw [hframes]
    rfl
  · refine ⟨_, _, _, rfl, live, ?_⟩
    rw [unwound_append, left]
    rfl

/-- Entering a function when no call is live. -/
theorem within_callPath {key : FunctionKey} {f : LinkedFunction} {request : Request}
    (hrequest : entered? program request = some f) (hf : program.at? key = some f)
    (hempty : s.stack.frames = []) {x : Run Value}
    (hx : ∀ s, Ready program key s → Kept program key s (fun _ => True) (x s))
    (h : Run.within ⟨f.name, f.source, none⟩ x s = (.error e, s')) :
    (s.stack.maxDepth = some 0 ∧ e.backtrace = none) ∨
      (s.stack.maxDepth ≠ some 0 ∧ ∃ backtrace, e.backtrace = some backtrace ∧
        CallPath program s.stack.maxDepth request e backtrace s'.trace) := by
  cases hpush : s.stack.push ⟨f.name, f.source, none⟩ with
  | error e' =>
    -- a limit that no live call reaches is the limit zero
    obtain ⟨max, hmax, hfull, he⟩ := push_error hpush
    rw [hempty, List.length_nil, Nat.le_zero] at hfull
    rw [within_refused hpush, he, attach_empty hempty] at h
    cases h
    exact .inl ⟨hfull ▸ hmax, rfl⟩
  | ok stack =>
    obtain ⟨hframes, hlimit, hpop⟩ := push_frames hpush
    rw [hempty] at hframes
    have hinside := hx (s.enter stack) ⟨⟨f, hf, _, _, hframes⟩, rfl⟩
    rw [within_entered hpush] at h
    generalize x (s.enter stack) = out at hinside h
    cases hinside <;> cases h
    rename_i s₁ hstack hfailed
    replace hstack : s₁.stack = stack := hstack
    replace hfailed : Failed program stack.maxDepth key stack.frames e s₁.trace := hfailed
    rw [hframes, hlimit] at hfailed
    have hleft : s₁.leave.trace = .left [] :: s₁.trace := by
      show .left s₁.stack.pop.frames :: s₁.trace = _
      rw [hstack, hpop, hempty]
    refine .inr ⟨fun hzero => ?_, ?_⟩
    · have hbelow := push_below hpush hzero
      omega
    · rw [hleft]
      exact hfailed.callPath hrequest hf

/-- The error of a request when no call is live: refused without a backtrace,
or with one that is a call path. -/
theorem answer_cases (hplaced : ∀ {key f}, program.at? key = some f → f.Placed .core)
    (hempty : s.stack.frames = []) {fuel : Nat} {request : Request}
    (h : answer .adaptive program fuel s request = some (.error e, s')) :
    (Refused program s.stack.maxDepth request ∧ e.backtrace = none) ∨
      (¬ Refused program s.stack.maxDepth request ∧ ∃ backtrace, e.backtrace = some backtrace ∧
        CallPath program s.stack.maxDepth request e backtrace s'.trace) := by
  have hinside := @(callPaths program hplaced).inside_holds
  cases request with
  | run =>
    have hmain : program.at? .main = some program.main := rfl
    replace h := Option.some.inj h
    rw [runMain, enter_eq] at h
    exact within_callPath rfl hmain hempty (hinside _ hmain []) h
  | call name args =>
    obtain ⟨index, hindex, h⟩ := Option.map_eq_some_iff.mp h
    -- a request finds the index of a function, `entered?` the function itself
    have hfunction : program.function? name = program.functions[index]? := by
      have hfind : program.function? name =
          (program.index? name).bind fun i => program.functions[i]? :=
        Array.find?_eq_bind_findIdx?_getElem?
      rw [hfind, hindex]
      rfl
    unfold callIndex callUser at h
    cases hg : program.functions[index]? with
    | none =>
      rw [hg] at h
      cases h
    | some g =>
      have hat : program.at? (.user index) = some g := hg
      have hentered : entered? program (.call name args) = some g := hfunction.trans hg
      simp only [hg] at h
      split at h
      case isTrue harity =>
        rw [enter_eq] at h
        rcases within_callPath hentered hat hempty (hinside _ hat args) h with
          ⟨hzero, hnone⟩ | ⟨hzero, hpath⟩
        · exact .inl ⟨⟨g, hentered, .inr hzero⟩, hnone⟩
        · refine .inr ⟨?_, hpath⟩
          intro hrefused
          obtain ⟨g', hg', hwhy⟩ := hrefused
          obtain rfl : g = g' := Option.some.inj (hentered.symm.trans hg')
          exact hwhy.elim (fun hne => hne harity) hzero
      case isFalse harity =>
        unfold Run.fail at h
        rw [attach_empty hempty] at h
        cases h
        exact .inl ⟨⟨g, hentered, .inl harity⟩, rfl⟩

end

/-- An error that ends a request, made when no call is live, has a backtrace
unless the request was refused, and the backtrace is a call path. -/
theorem answer_backtrace {firstClass : Nat} {p : Program} {program : LinkedProgram}
    (hlink : p.linkFrom firstClass .core = .ok program) {s s' : State}
    (hempty : s.stack.frames = []) {fuel : Nat} {request : Request} {e : EvalError}
    (h : answer .adaptive program fuel s request = some (.error e, s')) :
    (e.backtrace = none ↔ Refused program s.stack.maxDepth request) ∧
      ∀ backtrace, e.backtrace = some backtrace →
        CallPath program s.stack.maxDepth request e backtrace s'.trace := by
  rcases answer_cases (fun hf => Program.linkFrom_placed hlink hf) hempty h with
    ⟨hrefused, hnone⟩ | ⟨hentered, backtrace, hsome, hpath⟩
  · refine ⟨⟨fun _ => hrefused, fun _ => hnone⟩, ?_⟩
    intro backtrace hsome
    rw [hnone] at hsome
    cases hsome
  · refine ⟨⟨fun hnone => ?_, fun hrefused => absurd hrefused hentered⟩, ?_⟩
    · rw [hsome] at hnone
      cases hnone
    · intro backtrace' hsome'
      obtain rfl : backtrace = backtrace' := Option.some.inj (hsome.symm.trans hsome')
      exact hpath

/-! ### A path of three calls -/

/-- A program that raises a text two calls below its top-level body. -/
def alarm : Program :=
  { source := "main"
    functions :=
      [ { name := "check", source := "main", params := [0], locals := ["n"]
          body := [.raise (.lit (.str "bad")) ⟨2, 3⟩], siteCount := 0, callCount := 0 },
        { name := "relay", source := "main", params := [0], locals := ["n"]
          body := [.ret (some (.call "check" [.var 0] 0 ⟨6, 10⟩))], siteCount := 0, callCount := 1 } ]
    main :=
      { name := programName, source := "main", params := [], locals := []
        body := [.expr (.call "relay" [.lit (.int 1)] 0 ⟨9, 1⟩)], siteCount := 0, callCount := 1 } }

/-- `alarm`, linked. -/
def linkedAlarm : LinkedProgram :=
  { source := "main"
    functions :=
      #[ { name := "check", source := "main", params := [0], locals := ["n"]
           body := [.raise (.const (.str "bad")) ⟨2, 3⟩] },
         { name := "relay", source := "main", params := [0], locals := ["n"]
           body := [.ret (some (.call (.user 0) [.var 0] ⟨6, 10⟩))] } ]
    main :=
      { name := programName, source := "main", params := [], locals := []
        body := [.expr (.call (.user 1) [.const (.int 1)] ⟨9, 1⟩)] }
    classes := [] }

/-- The state in which `alarm` starts. -/
def alarmStart : State := .initial linkedAlarm .testRun .empty .still

/-- The path to the raised text. -/
def alarmPath : Backtrace :=
  [⟨"check", "main", some ⟨2, 3⟩⟩, ⟨"relay", "main", some ⟨6, 10⟩⟩,
    ⟨programName, "main", some ⟨9, 1⟩⟩]

/-- Running `alarm` fails with the path to the raised text. -/
theorem answer_alarm :
    alarm.linkFrom 0 .core = .ok linkedAlarm ∧ alarmStart.stack.frames = [] ∧
      ∃ e s', answer .adaptive linkedAlarm 0 alarmStart .run = some (.error e, s') ∧
        e.backtrace = some alarmPath ∧
        CallPath linkedAlarm alarmStart.stack.maxDepth .run e alarmPath s'.trace := by
  have hlink : alarm.linkFrom 0 .core = .ok linkedAlarm := rfl
  have hempty : alarmStart.stack.frames = [] := rfl
  have houtcome : (answer .adaptive linkedAlarm 0 alarmStart .run).map (·.1) =
      some (.error { kind := .raised none "bad", value := some (.str "bad"),
                     backtrace := some alarmPath }) := by
    rfl
  obtain ⟨⟨o, s'⟩, hanswer, ho⟩ := Option.map_eq_some_iff.mp houtcome
  cases ho
  exact ⟨hlink, hempty, _, s', hanswer, rfl, (answer_backtrace hlink hempty hanswer).2 _ rfl⟩

end Machine

end AdaptiveScript
