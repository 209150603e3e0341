import AdaptiveScript.Proofs.Machine.Simulation
import AdaptiveScript.Proofs.Operator.Rule
import AdaptiveScript.Proofs.Slot.History
import Mathlib.Data.List.Basic

/-! # Adaptive Execution Refines Plain Execution

  The plain policy has no memory beyond the values themselves: a local holds
  what was assigned to it last, and an operator node follows the operator's
  rule afresh each time. The adaptive policy differs from it in two ways. A
  slot that has become a float slot turns integers into floats, and an
  operator node that has widened no longer yields integers.

  Both differences leave a mark in the trace of the plain run: a slot is
  given an integer and also a float, or a node meets two integers after
  operands that widen it. If a plain run shows neither (`Regular`), the
  adaptive run cannot be told from it, which is the main result
  (`session_adaptive_eq_plain`).

  The proof is a simulation. What it carries along from step to step is
  `Agree`: the two states show the same, a slot is a float slot only if the
  trace has a float for it, and the site of a node is as the trace of the
  node's operands says.
-/

namespace AdaptiveScript

/-! ### Slots and sites after one step -/

theorem SlotKind.join_eq_float {a b : SlotKind} (h : a.join b = .float) :
    a = .float ∨ b = .float := by
  cases a <;> cases b <;> simp_all [SlotKind.join]

theorem SlotKind.natural_eq_float {v : Value} (h : SlotKind.natural v = .float) :
    ∃ x, v = .float x := by
  cases v <;> simp_all [SlotKind.natural]

namespace SlotTable

/-- An assignment makes a float slot only of the slot that it gives a float. -/
theorem float_of_assign {t : SlotTable} {frame : Frame} {slot i : Nat} {v : Value}
    (h : (t.assign frame slot v).1.kind i = .float) :
    t.kind i = .float ∨ i = slot ∧ ∃ x, v = .float x := by
  unfold assign at h
  split at h
  case h_1 => exact .inl h
  case h_2 d hd =>
    by_cases hi : i = slot
    · subst hi
      simp only [kind, descriptor?_generalize_self, hd, Option.map_some,
        SlotDescriptor.generalize] at h
      rcases SlotKind.join_eq_float h with hkind | hnatural
      · exact .inl (by simp only [kind, hd, hkind])
      · exact .inr ⟨rfl, SlotKind.natural_eq_float hnatural⟩
    · simp only [kind, descriptor?_generalize_ne t v hi] at h
      exact .inl h

end SlotTable

namespace FunctionState

theorem site_setSite_self {fs : FunctionState} {index : Nat} {site : Site}
    (h : index < fs.sites.size) : (fs.setSite index site).site index = site := by
  simp [FunctionState.site, FunctionState.setSite, h]

theorem site_setSite_ne {fs : FunctionState} {index i : Nat} {site : Site} (h : index ≠ i) :
    (fs.setSite index site).site i = fs.site i := by
  simp only [FunctionState.site, FunctionState.setSite, Array.getElem?_setIfInBounds_ne h]

theorem size_initial (f : LinkedFunction) : (initial f).slots.size = f.locals.length := by
  simp [initial, SlotTable.ofNames, SlotTable.size]

end FunctionState

namespace Machine

/-! ### The plain policy -/

/-- The policy without adaptation: a local holds the value that it was given
last, nil before, and a node applies its operator afresh. -/
def Policy.plain : Policy where
  read _ frame slot :=
    match frame.cell? slot with
    | some (.boxed v) => some v
    | _ => some .nil
  assign fs frame slot v := some (fs, frame.setCell slot (.boxed v))
  apply fs names op _ left right := (op.rule false names left right, fs)

/-! ### Sessions -/

/-- What can be seen of the answer to a request. -/
structure Observation where
  /-- Nothing for a call of a function that the program does not have. -/
  outcome : Option (Outcome Value)
  heap : Heap
  sink : Sink
  stdout : String

/-- What can be seen of an outcome and the state after it. -/
def Observation.of (outcome : Option (Outcome Value)) (s : State) : Observation :=
  { outcome, heap := s.heap, sink := s.sink, stdout := s.stdout }

/-- Answers a request with the given fuel; a call of a function that the
program does not have leaves the state alone. -/
def respond (p : Policy) (program : LinkedProgram) (s : State) (request : Request × Nat) :
    Option (Outcome Value) × State :=
  match answer p program request.2 s request.1 with
  | some (outcome, s') => (some outcome, s')
  | none => (none, s)

/-- Answers requests one after the other: what can be seen of each answer,
and the last state. -/
def session (p : Policy) (program : LinkedProgram) (s : State) :
    List (Request × Nat) → List Observation × State
  | [] => ([], s)
  | request :: requests =>
    let (outcome, s') := respond p program s request
    let (seen, last) := session p program s' requests
    (.of outcome s' :: seen, last)

section

variable {p : Policy} {program : LinkedProgram} {s : State}

theorem respond_run (fuel : Nat) :
    respond p program s (.run, fuel) =
      ((runMain p program (s.budget fuel) s).map some fun s => s) := rfl

theorem respond_unknown {name : String} (h : program.index? name = none) (args : List Value)
    (fuel : Nat) : respond p program s (.call name args, fuel) = (none, s) := by
  simp only [respond, answer, h, Option.map_none]

theorem respond_call {name : String} {index : Nat} (h : program.index? name = some index)
    (args : List Value) (fuel : Nat) :
    respond p program s (.call name args, fuel) =
      ((callIndex p program (s.budget fuel) index args s).map some fun s => s) := by
  simp only [respond, answer, h, Option.map_some]
  rfl

theorem session_cons (request : Request × Nat) (requests : List (Request × Nat)) :
    session p program s (request :: requests) =
      (.of (respond p program s request).1 (respond p program s request).2 ::
          (session p program (respond p program s request).2 requests).1,
        (session p program (respond p program s request).2 requests).2) := rfl

end

/-- A state in which no function of the program has run. -/
structure State.Fresh (program : LinkedProgram) (s : State) : Prop where
  functions : s.functions = program.functions.map .initial
  main : s.main = .initial program.main
  trace : s.trace = []

theorem State.initial_fresh (program : LinkedProgram) (mode : Mode) (heap : Heap)
    (surroundings : Surroundings) : (State.initial program mode heap surroundings).Fresh program :=
  ⟨rfl, rfl, rfl⟩

/-! ### Regular traces -/

/-- The operator of a node, by its place. -/
def operatorAt (program : LinkedProgram) (key : FunctionKey) (site : Nat) : Option Operator :=
  (program.at? key).bind (·.operators[site]?)

/-- Nothing in the trace, whose latest step comes first, can tell an adaptive
run from a plain one. -/
structure Regular (program : LinkedProgram) (trace : List Event) : Prop where
  /-- No slot is given both an integer and a float. -/
  slots : ∀ {key slot n x}, .assigned key slot (.int n) ∈ trace →
    .assigned key slot (.float x) ∉ trace
  /-- No node meets two integers after operands that widen it. -/
  nodes : ∀ {later earlier key site op a b left right},
    trace = later ++ .applied key site (.int a) (.int b) :: earlier →
    operatorAt program key site = some op → .applied key site left right ∈ earlier →
    op.widens left right = false

/-! ### What a trace says about a node -/

/-- Whether the step widens the node. -/
def widensNode (op : Operator) (key : FunctionKey) (site : Nat) : Event → Bool
  | .applied key' site' left right => key' = key && site' = site && op.widens left right
  | _ => false

/-- Whether the node has widened in the course of the trace. -/
def widenedIn (op : Operator) (key : FunctionKey) (site : Nat) (trace : List Event) : Bool :=
  trace.any (widensNode op key site)

theorem widenedIn_cons (op : Operator) (key : FunctionKey) (site : Nat) (e : Event)
    (trace : List Event) :
    widenedIn op key site (e :: trace) =
      (widensNode op key site e || widenedIn op key site trace) := rfl

theorem exists_of_widenedIn {op : Operator} {key : FunctionKey} {site : Nat} {trace : List Event}
    (h : widenedIn op key site trace = true) :
    ∃ left right, .applied key site left right ∈ trace ∧ op.widens left right = true := by
  obtain ⟨e, he, hwidens⟩ := List.any_eq_true.mp h
  cases e with
  | applied key' site' left right =>
    simp only [widensNode, Bool.and_eq_true, decide_eq_true_eq] at hwidens
    obtain ⟨⟨hkey, hsite⟩, hwidens⟩ := hwidens
    subst hkey hsite
    exact ⟨left, right, he, hwidens⟩
  | _ => cases hwidens

/-! ### The state of a function -/

/-- The adaptive state of a function is what the trace says, its memories are
those of the plain state, and both tables have a slot for every local. -/
structure Fits (f : LinkedFunction) (key : FunctionKey) (trace : List Event)
    (fs plain : FunctionState) : Prop where
  memories : fs.memories = plain.memories
  slots : fs.slots.size = f.locals.length
  plainSlots : plain.slots.size = f.locals.length
  sites : fs.sites.size = f.operators.length
  /-- Only a float makes a float slot. -/
  kinds : ∀ {slot}, fs.slots.kind slot = .float → ∃ x, .assigned key slot (.float x) ∈ trace
  adapted : ∀ {site : Nat} {op : Operator}, f.operators[site]? = some op →
    op.Adapted (widenedIn op key site trace) (fs.site site)

namespace Fits

variable {f : LinkedFunction} {key : FunctionKey} {trace : List Event} {fs plain : FunctionState}

/-- A function that has not run. -/
theorem initial (f : LinkedFunction) (key : FunctionKey) :
    Fits f key [] (.initial f) (.initial f) where
  memories := rfl
  slots := FunctionState.size_initial f
  plainSlots := FunctionState.size_initial f
  sites := by simp [FunctionState.initial]
  kinds := by
    intro slot h
    unfold SlotTable.kind at h
    split at h
    case h_1 d hd =>
      simp only [FunctionState.initial, SlotTable.ofNames, SlotTable.descriptor?,
        List.getElem?_toArray, List.getElem?_map, Option.map_eq_some_iff] at hd
      obtain ⟨name, -, hname⟩ := hd
      rw [← hname] at h
      cases h
    case h_2 => cases h
  adapted := by
    intro site op hop
    have hsite : (FunctionState.initial f).site site = .fresh := by
      simp only [FunctionState.initial, FunctionState.site, List.getElem?_toArray,
        List.getElem?_map, hop, Option.map_some, Option.getD_some]
    rw [hsite]
    exact Operator.adapted_fresh op

/-- A step that no node of the function makes. -/
theorem skip (h : Fits f key trace fs plain) {e : Event}
    (he : ∀ site left right, e ≠ .applied key site left right) :
    Fits f key (e :: trace) fs plain where
  memories := h.memories
  slots := h.slots
  plainSlots := h.plainSlots
  sites := h.sites
  kinds hkind := (h.kinds hkind).imp fun _ hx => List.mem_cons_of_mem _ hx
  adapted := by
    intro site op hop
    -- applications at nodes of other functions are steps too, but not of this node
    have hnot : widensNode op key site e = false := by
      cases e with
      | applied key' site' left right =>
        have hne : key' ≠ key ∨ site' ≠ site := by
          by_cases hkey : key' = key
          · exact .inr fun hsite => he site left right (by rw [hkey, hsite])
          · exact .inl hkey
        rcases hne with hne | hne <;> simp [widensNode, hne]
      | _ => rfl
    rw [widenedIn_cons, hnot, Bool.false_or]
    exact h.adapted hop

/-- Giving a slot a value. -/
theorem assign (h : Fits f key trace fs plain) (frame : Frame) (slot : Nat) (v : Value) :
    Fits f key (.assigned key slot v :: trace)
      { fs with slots := (fs.slots.assign frame slot v).1 } plain where
  memories := h.memories
  slots := by rw [SlotTable.size_assign, h.slots]
  plainSlots := h.plainSlots
  sites := h.sites
  kinds := by
    intro slot' hkind
    -- a float slot was one before, or it is the one that was given a float just now
    rcases SlotTable.float_of_assign hkind with hold | ⟨hslot, x, hv⟩
    · exact (h.kinds hold).imp fun _ hx => List.mem_cons_of_mem _ hx
    · exact ⟨x, by rw [hslot, hv]; exact List.mem_cons_self⟩
  adapted hop := h.skip (by simp) |>.adapted hop

/-- Applying the operator of a node. -/
theorem apply (h : Fits f key trace fs plain) {site : Nat} {op : Operator}
    (hop : f.operators[site]? = some op) (names : ClassNames) (left right : Value) :
    Fits f key (.applied key site left right :: trace)
      (fs.setSite site (op.evaluate names left right (fs.site site)).2) plain where
  memories := h.memories
  slots := h.slots
  plainSlots := h.plainSlots
  sites := by simp [FunctionState.setSite, h.sites]
  kinds hkind := (h.kinds hkind).imp fun _ hx => List.mem_cons_of_mem _ hx
  adapted := by
    intro site' op' hop'
    rw [widenedIn_cons]
    by_cases hsite : site = site'
    -- the node itself: what it widens to is the invariant of its own site
    · subst hsite
      obtain rfl : op = op' := Option.some.inj (hop.symm.trans hop')
      have hlt : site < fs.sites.size := by
        rw [h.sites]
        exact (List.getElem?_eq_some_iff.mp hop).1
      rw [FunctionState.site_setSite_self hlt, Bool.or_comm]
      have hwidens : widensNode op key site (.applied key site left right) = op.widens left right := by
        simp [widensNode]
      rw [hwidens]
      exact ((h.adapted hop).evaluate names left right).2
    -- the other nodes of the function neither change nor see the step
    · rw [FunctionState.site_setSite_ne hsite]
      have hnot : widensNode op' key site' (.applied key site left right) = false := by
        simp [widensNode, hsite]
      rw [hnot, Bool.false_or]
      exact h.adapted hop'

/-- Replacing the memory of a call of a builtin. -/
theorem setMemory (h : Fits f key trace fs plain) (inst : Nat) (m : Builtin.Memory) :
    Fits f key trace (fs.setMemory inst m) (plain.setMemory inst m) :=
  { h with memories := by simp only [FunctionState.setMemory, h.memories] }

end Fits

/-! ### Frames -/

/-- What an adaptive cell and a plain cell of a slot have in common. An
integer that is not boxed reads differently once the slot is a float slot,
so it has to be known that the trace has it. -/
inductive Shows (trace : List Event) (key : FunctionKey) (slot : Nat) : Cell → Cell → Prop where
  | empty : Shows trace key slot .empty .empty
  | int {n : Int64} : .assigned key slot (.int n) ∈ trace →
    Shows trace key slot (.int n) (.boxed (.int n))
  | stable {c : Cell} {v : Value} : (∀ kind, c.decode kind = v) → Shows trace key slot c (.boxed v)

/-- Frames of an activation that show the same values. -/
structure Mirrors (program : LinkedProgram) (trace : List Event) (key : FunctionKey)
    (φ ψ : Frame) : Prop where
  size : ∀ {f}, program.at? key = some f → φ.cells.size = f.locals.length
  same : ψ.cells.size = φ.cells.size
  cells : ∀ {slot c d}, φ.cell? slot = some c → ψ.cell? slot = some d → Shows trace key slot c d

namespace Mirrors

variable {program : LinkedProgram} {trace : List Event} {key : FunctionKey} {φ ψ : Frame}

/-- The frames in which an activation starts. -/
theorem ofSize {f : LinkedFunction} (hf : program.at? key = some f) :
    Mirrors program trace key (.ofSize f.locals.length) (.ofSize f.locals.length) where
  size := by
    intro g hg
    obtain rfl : f = g := Option.some.inj (hf.symm.trans hg)
    simp [Frame.ofSize]
  same := rfl
  cells := by
    intro slot c d hc hd
    rw [Frame.cell?_ofSize] at hc hd
    split at hc
    · cases hc
      rw [if_pos ‹_›] at hd
      cases hd
      exact .empty
    · cases hc

/-- A slot has a cell in both frames or in none. -/
theorem cell_cases (h : Mirrors program trace key φ ψ) (slot : Nat) :
    (φ.cell? slot = none ∧ ψ.cell? slot = none) ∨
      ∃ c d, φ.cell? slot = some c ∧ ψ.cell? slot = some d ∧ Shows trace key slot c d := by
  unfold Frame.cell?
  by_cases hslot : slot < φ.cells.size
  · have hslot' : slot < ψ.cells.size := by rw [h.same]; exact hslot
    have hc := Array.getElem?_eq_getElem hslot
    have hd := Array.getElem?_eq_getElem hslot'
    exact .inr ⟨_, _, hc, hd, h.cells hc hd⟩
  · have hslot' : ¬ slot < ψ.cells.size := by rw [h.same]; exact hslot
    exact .inl ⟨Array.getElem?_eq_none (Nat.le_of_not_lt hslot),
      Array.getElem?_eq_none (Nat.le_of_not_lt hslot')⟩

/-- Writing related cells. -/
theorem setCell (h : Mirrors program trace key φ ψ) {slot : Nat} {c d : Cell}
    (hcd : Shows trace key slot c d) :
    Mirrors program trace key (φ.setCell slot c) (ψ.setCell slot d) where
  size hf := by simp [Frame.setCell, h.size hf]
  same := by simp [Frame.setCell, h.same]
  cells := by
    intro slot' c' d' hc hd
    by_cases hslot : slot' = slot
    · subst hslot
      rw [Frame.cell?_setCell_self, Option.map_eq_some_iff] at hc hd
      obtain ⟨-, -, hc⟩ := hc
      obtain ⟨-, -, hd⟩ := hd
      subst hc hd
      exact hcd
    · rw [Frame.cell?_setCell_ne _ _ hslot] at hc hd
      exact h.cells hc hd

variable {T : List Event} {f : LinkedFunction} {fs plain : FunctionState}

/-- In a regular run a local has the same value under both policies. -/
theorem read_eq (hT : Regular program T) (hframe : Mirrors program T key φ ψ)
    (hfs : Fits f key trace fs plain) (htrace : trace <:+ T) (slot : Nat) :
    Policy.adaptive.read fs φ slot = Policy.plain.read plain ψ slot := by
  simp only [Policy.adaptive, Policy.plain, SlotTable.read]
  rcases hframe.cell_cases slot with ⟨hc, hd⟩ | ⟨c, d, hc, hd, hcd⟩
  · rw [hc, hd]
  · rw [hc, hd]
    cases hcd with
    | empty => rfl
    | @int n hn =>
      -- a float slot that holds an integer is what a regular run does not have
      have hkind : fs.slots.kind slot ≠ .float := by
        intro hfloat
        obtain ⟨x, hx⟩ := hfs.kinds hfloat
        exact hT.slots hn (htrace.subset hx)
      simp only [Cell.decode, if_neg hkind]
    | stable hv => simp only [hv]

/-- A value stored in a slot is shown as it is, unless it is an integer in a
float slot. -/
theorem shows_encode {slot : Nat} {v : Value} {kind : SlotKind}
    (hmem : .assigned key slot v ∈ T) (hint : ∀ n, v = .int n → kind ≠ .float) :
    Shows T key slot (.encode kind v) (.boxed v) := by
  cases v with
  | int n =>
    cases kind with
    | integer => exact .int hmem
    | float => exact absurd rfl (hint n rfl)
    | _ => exact .stable fun _ => rfl
  | _ => cases kind <;> exact .stable fun _ => rfl

/-- In a regular run an assignment keeps the frames alike. -/
theorem assign (hT : Regular program T) (hframe : Mirrors program T key φ ψ)
    (hf : program.at? key = some f) (hfs : Fits f key trace fs plain) {slot : Nat} {v : Value}
    (htrace : .assigned key slot v :: trace <:+ T) :
    Mirrors program T key (fs.slots.assign φ slot v).2 (ψ.setCell slot (.boxed v)) := by
  have hmem : .assigned key slot v ∈ T := htrace.subset List.mem_cons_self
  cases hd : fs.slots.descriptor? slot with
  | none =>
    -- without a descriptor there is no cell either
    have hsize : ψ.cells.size ≤ slot := by
      rw [hframe.same, hframe.size hf, ← hfs.slots]
      exact Array.getElem?_eq_none_iff.mp hd
    have hψ : ψ.setCell slot (.boxed v) = ψ := by
      simp only [Frame.setCell, Array.setIfInBounds_eq_of_size_le hsize]
    have hφ : (fs.slots.assign φ slot v).2 = φ := by
      simp only [SlotTable.assign, hd]
    rw [hφ, hψ]
    exact hframe
  | some d =>
    simp only [SlotTable.assign, hd]
    refine hframe.setCell (shows_encode hmem fun n hv hkind => ?_)
    -- an integer does not make a float slot, so the slot was one before
    have hold : fs.slots.kind slot = .float := by
      subst hv
      rcases SlotKind.join_eq_float hkind with hkind | hnatural
      · simp only [SlotTable.kind, hd, hkind]
      · cases hnatural
    obtain ⟨x, hx⟩ := hfs.kinds hold
    subst hv
    exact hT.slots hmem (htrace.subset (List.mem_cons_of_mem _ hx))

end Mirrors

/-! ### States -/

/-- An adaptive state and a plain state that cannot be told apart. -/
structure Agree (program : LinkedProgram) (s t : State) : Prop where
  heap : s.heap = t.heap
  stack : s.stack = t.stack
  sink : s.sink = t.sink
  stdout : s.stdout = t.stdout
  surroundings : s.surroundings = t.surroundings
  readings : s.readings = t.readings
  trace : s.trace = t.trace
  functions : s.functions.size = program.functions.size
  plain : t.functions.size = program.functions.size
  fits : ∀ {key f}, program.at? key = some f →
    Fits f key s.trace (s.function key) (t.function key)

theorem State.function_setFunction_self {program : LinkedProgram} {s : State} {key : FunctionKey}
    {f : LinkedFunction} (hf : program.at? key = some f)
    (hsize : s.functions.size = program.functions.size) (fs : FunctionState) :
    (s.setFunction key fs).function key = fs := by
  cases key with
  | main => rfl
  | user index =>
    have hlt : index < s.functions.size := by
      rw [hsize]
      exact (Array.getElem?_eq_some_iff.mp hf).1
    simp [State.setFunction, State.function, hlt]

theorem State.size_setFunction (s : State) (key : FunctionKey) (fs : FunctionState) :
    (s.setFunction key fs).functions.size = s.functions.size := by
  cases key <;> simp [State.setFunction]

/-- A function that the program does not have has no state to replace. -/
theorem State.function_setFunction_cases (s : State) (key : FunctionKey) (fs : FunctionState) :
    (s.setFunction key fs).function key = fs ∨
      (s.setFunction key fs).function key = s.function key := by
  cases key with
  | main => exact .inl rfl
  | user index =>
    by_cases hlt : index < s.functions.size
    · exact .inl (by simp [State.setFunction, State.function, hlt])
    · exact .inr (by simp [State.setFunction, State.function, hlt])

namespace Agree

variable {program : LinkedProgram} {s t : State}

/-- Two machines that start with the same fresh state. -/
theorem fresh (h : s.Fresh program) : Agree program s s where
  heap := rfl
  stack := rfl
  sink := rfl
  stdout := rfl
  surroundings := rfl
  readings := rfl
  trace := rfl
  functions := by rw [h.functions, Array.size_map]
  plain := by rw [h.functions, Array.size_map]
  fits := by
    intro key f hf
    have hfs : s.function key = .initial f := by
      cases key with
      | main =>
        cases hf
        exact h.main
      | user index =>
        have hindex : program.functions[index]? = some f := hf
        simp [State.function, h.functions, hindex]
    rw [hfs, h.trace]
    exact .initial f key

theorem setHeap (h : Agree program s t) (heap : Heap) :
    Agree program { s with heap } { t with heap } :=
  { h with heap := rfl }

theorem setStack (h : Agree program s t) (stack : CallStack) :
    Agree program { s with stack } { t with stack } :=
  { h with stack := rfl }

/-- A step that is not the application of an operator. -/
theorem record (h : Agree program s t) {e : Event}
    (he : ∀ key site left right, e ≠ .applied key site left right) :
    Agree program (s.record e) (t.record e) :=
  { h with
    trace := by simp only [State.record, h.trace]
    fits := fun hf => (h.fits hf).skip (he _) }

theorem enter (h : Agree program s t) (stack : CallStack) :
    Agree program (s.enter stack) (t.enter stack) :=
  (h.setStack stack).record (by simp)

theorem leave (h : Agree program s t) : Agree program s.leave t.leave := by
  unfold State.leave
  rw [h.stack]
  exact (h.setStack _).record (by simp)

theorem print (h : Agree program s t) (text : String) :
    Agree program (s.print text) (t.print text) := by
  have hsink : s.sink.print text = t.sink.print text := by rw [h.sink]
  have hprinted : Agree program
      { s with sink := (s.sink.print text).1, stdout := s.stdout ++ (s.sink.print text).2 }
      { t with sink := (t.sink.print text).1, stdout := t.stdout ++ (t.sink.print text).2 } :=
    { h with
      sink := by simp only [hsink]
      stdout := by simp only [hsink, h.stdout] }
  exact hprinted.record (by simp)

theorem printAll (h : Agree program s t) (texts : List String) :
    Agree program (s.printAll texts) (t.printAll texts) := by
  induction texts generalizing s t with
  | nil => exact h
  | cons text texts ih => exact ih (h.print text)

/-- Replacing the state of one function, and the trace. -/
theorem replace (h : Agree program s t) {key : FunctionKey} {f : LinkedFunction}
    (hf : program.at? key = some f) {trace : List Event} {fs plain : FunctionState}
    (hfits : Fits f key trace fs plain)
    (hother : ∀ {other g a b}, other ≠ key → Fits g other s.trace a b → Fits g other trace a b) :
    Agree program { s.setFunction key fs with trace } { t.setFunction key plain with trace } where
  heap := by simp [h.heap]
  stack := by simp [h.stack]
  sink := by simp [h.sink]
  stdout := by simp [h.stdout]
  surroundings := by simp [h.surroundings]
  readings := by simp [h.readings]
  trace := rfl
  functions := by rw [State.size_setFunction, h.functions]
  plain := by rw [State.size_setFunction, h.plain]
  fits := by
    intro other g hg
    show Fits g other trace ((s.setFunction key fs).function other)
      ((t.setFunction key plain).function other)
    by_cases hkey : other = key
    · subst hkey
      obtain rfl : f = g := Option.some.inj (hf.symm.trans hg)
      rw [State.function_setFunction_self hf h.functions, State.function_setFunction_self hf h.plain]
      exact hfits
    · rw [State.function_setFunction_ne s fs hkey, State.function_setFunction_ne t plain hkey]
      exact hother hkey (h.fits hg)

/-- Replacing the state of one function. -/
theorem setFunction (h : Agree program s t) {key : FunctionKey} {f : LinkedFunction}
    (hf : program.at? key = some f) {fs plain : FunctionState}
    (hfits : Fits f key s.trace fs plain) :
    Agree program (s.setFunction key fs) (t.setFunction key plain) := by
  have hreplaced := h.replace hf hfits fun _ hother => hother
  -- putting the old trace back changes nothing
  have hs : { s.setFunction key fs with trace := s.trace } = s.setFunction key fs := by
    cases key <;> rfl
  have ht : { t.setFunction key plain with trace := s.trace } = t.setFunction key plain := by
    rw [h.trace]
    cases key <;> rfl
  rw [hs, ht] at hreplaced
  exact hreplaced

/-- A step of one function, which replaces its state. -/
theorem step (h : Agree program s t) {key : FunctionKey} {f : LinkedFunction}
    (hf : program.at? key = some f) {e : Event} {fs plain : FunctionState}
    (hfits : Fits f key (e :: s.trace) fs plain)
    (he : ∀ other, other ≠ key → ∀ site left right, e ≠ .applied other site left right) :
    Agree program ((s.setFunction key fs).record e) ((t.setFunction key plain).record e) := by
  have hreplaced := h.replace hf hfits fun hne hother => hother.skip (he _ hne)
  have hs : { s.setFunction key fs with trace := e :: s.trace } =
      (s.setFunction key fs).record e := by
    cases key <;> rfl
  have ht : { t.setFunction key plain with trace := e :: s.trace } =
      (t.setFunction key plain).record e := by
    rw [h.trace]
    cases key <;> rfl
  rw [hs, ht] at hreplaced
  exact hreplaced

theorem tick (h : Agree program s t) :
    Agree program { s with readings := s.readings + 1 } { t with readings := t.readings + 1 } :=
  { h with readings := by simp only [h.readings] }

/-- The same reply of a builtin, remembered and printed. -/
theorem afterReply (h : Agree program s t) {key : FunctionKey} {f : LinkedFunction}
    (hf : program.at? key = some f) (inst : Nat) {e : Event}
    (he : ∀ key site left right, e ≠ .applied key site left right) (reply : Builtin.Reply) :
    Agree program (afterReply key inst e reply s) (afterReply key inst e reply t) := by
  have hremembered := h.tick.setFunction hf ((h.fits hf).setMemory inst reply.memory)
  exact (hremembered.record he).printAll _

end Agree

/-! ### Runs -/

/-- The tables of a state have a slot for every local. -/
def State.Sized (program : LinkedProgram) (t : State) : Prop :=
  ∀ ⦃key f⦄, program.at? key = some f → (t.function key).slots.size = f.locals.length

/-- What a plain run does at least: it adds to the trace, and the tables keep
their sizes. -/
structure Extends (t t' : State) : Prop where
  trace : t.trace <:+ t'.trace
  slots : ∀ key, (t'.function key).slots.size = (t.function key).slots.size

namespace Extends

variable {program : LinkedProgram} {t t' t'' : State}

theorem refl (t : State) : Extends t t := ⟨List.suffix_refl _, fun _ => rfl⟩

theorem trans (h : Extends t t') (h' : Extends t' t'') : Extends t t'' :=
  ⟨h.trace.trans h'.trace, fun key => (h'.slots key).trans (h.slots key)⟩

theorem record (t : State) (e : Event) : Extends t (t.record e) :=
  ⟨List.suffix_cons _ _, fun _ => rfl⟩

theorem enter (t : State) (stack : CallStack) : Extends t (t.enter stack) :=
  ⟨List.suffix_cons _ _, fun _ => rfl⟩

theorem leave (t : State) : Extends t t.leave := ⟨List.suffix_cons _ _, fun _ => rfl⟩

theorem setFunction (t : State) (key : FunctionKey) (fs : FunctionState)
    (h : fs.slots.size = (t.function key).slots.size) : Extends t (t.setFunction key fs) where
  trace := by simp only [State.trace_setFunction, List.suffix_refl]
  slots other := by
    by_cases hkey : other = key
    · subst hkey
      rcases State.function_setFunction_cases t other fs with hfs | hfs
      · rw [hfs, h]
      · rw [hfs]
    · rw [State.function_setFunction_ne t fs hkey]

theorem printAll (t : State) (texts : List String) : Extends t (t.printAll texts) := by
  induction texts generalizing t with
  | nil => exact refl t
  | cons text texts ih =>
    have hprint : Extends t (t.print text) := ⟨List.suffix_cons _ _, fun _ => rfl⟩
    exact hprint.trans (ih (t.print text))

/-- What a builtin remembers and prints extends the trace. -/
theorem afterReply (key : FunctionKey) (inst : Nat) (e : Event) (reply : Builtin.Reply)
    (t : State) : Extends t (afterReply key inst e reply t) := by
  have hticked : Extends t { t with readings := t.readings + 1 } :=
    ⟨List.suffix_refl _, fun _ => rfl⟩
  have hremembered := Extends.setFunction { t with readings := t.readings + 1 } key
    ((t.function key).setMemory inst reply.memory) rfl
  exact ((hticked.trans hremembered).trans (.record _ e)).trans (.printAll _ _)

theorem sized (h : Extends t t') (ht : t.Sized program) : t'.Sized program :=
  fun _ _ hf => (h.slots _).trans (ht hf)

end Extends

theorem Agree.sized {program : LinkedProgram} {s t : State} (h : Agree program s t) :
    t.Sized program := fun _ _ hf => (h.fits hf).plainSlots

/-- Outcomes that differ at most in related values. -/
inductive Alike {α β : Type} (R : α → β → Prop) : Outcome α → Outcome β → Prop where
  | ok {a : α} {b : β} : R a b → Alike R (.ok a) (.ok b)
  | error (e : EvalError) : Alike R (.error e) (.error e)
  | fault (f : Fault) : Alike R (.fault f) (.fault f)
  | outOfFuel : Alike R .outOfFuel .outOfFuel

theorem Alike.eq {α : Type} {o o' : Outcome α} (h : Alike Eq o o') : o = o' := by
  cases h with
  | ok h => rw [h]
  | _ => rfl

/-- An adaptive run refines a plain one: from states that agree it ends
alike, in states that agree, as long as the steps of the plain run are among
those of a longer run `T`. The plain run on its own only adds to the trace,
and never has a value without a counterpart; sequences need that, because
the first half of a run has to be known to lie in `T` before anything is
known about the adaptive side. For frames to have counterparts the tables
must have their sizes. -/
structure Refines (program : LinkedProgram) (T : List Event) {α β : Type} (R : α → β → Prop)
    (x : Run α) (y : Run β) : Prop where
  grows : ∀ {t : State}, t.Sized program → Extends t (y t).2
  matched : ∀ {t : State} {b : β}, t.Sized program → (y t).1 = .ok b → ∃ a, R a b
  ends : ∀ {s t}, Agree program s t → (y t).2.trace <:+ T →
    Alike R (x s).1 (y t).1 ∧ Agree program (x s).2 (y t).2

namespace Refines

variable {program : LinkedProgram} {T : List Event} {α β γ δ : Type} {R : α → β → Prop}
  {R' : γ → δ → Prop}

theorem pure {a : α} {b : β} (h : R a b) :
    Refines program T R (pure a : Run α) (pure b : Run β) where
  grows _ := .refl _
  matched _ hb := by
    cases hb
    exact ⟨a, h⟩
  ends hst _ := ⟨.ok h, hst⟩

theorem bind {x : Run α} {y : Run β} {k : α → Run γ} {l : β → Run δ}
    (hx : Refines program T R x y) (hk : ∀ a b, R a b → Refines program T R' (k a) (l b)) :
    Refines program T R' (x >>= k) (y >>= l) where
  grows := by
    intro t ht
    have hgrows := hx.grows ht
    rw [Run.bind_apply]
    rcases hy : y t with ⟨o, t'⟩
    rw [hy] at hgrows
    cases o with
    | ok b =>
      obtain ⟨a, hab⟩ := hx.matched ht (congrArg Prod.fst hy)
      exact hgrows.trans ((hk a b hab).grows (hgrows.sized ht))
    | _ => exact hgrows
  matched := by
    intro t d ht hd
    have hgrows := hx.grows ht
    rw [Run.bind_apply] at hd
    rcases hy : y t with ⟨o, t'⟩
    rw [hy] at hd hgrows
    cases o with
    | ok b =>
      obtain ⟨a, hab⟩ := hx.matched ht (congrArg Prod.fst hy)
      exact (hk a b hab).matched (hgrows.sized ht) hd
    | _ => cases hd
  ends := by
    intro s t hst hT
    rw [Run.bind_apply] at hT
    rw [Run.bind_apply, Run.bind_apply]
    have hgrows := hx.grows hst.sized
    rcases hy : y t with ⟨o, t'⟩
    rcases hxs : x s with ⟨o', s'⟩
    rw [hy] at hT hgrows
    -- what the first run did is part of what both did
    have hfirst : t'.trace <:+ T := by
      cases o with
      | ok b =>
        obtain ⟨a, hab⟩ := hx.matched hst.sized (congrArg Prod.fst hy)
        exact ((hk a b hab).grows (hgrows.sized hst.sized)).trace.trans hT
      | _ => exact hT
    have hends := hx.ends hst (by rw [hy]; exact hfirst)
    rw [hy, hxs] at hends
    obtain ⟨halike, hst'⟩ := hends
    cases halike with
    | ok hab => exact (hk _ _ hab).ends hst' hT
    | error e => exact ⟨.error e, hst'⟩
    | fault f => exact ⟨.fault f, hst'⟩
    | outOfFuel => exact ⟨.outOfFuel, hst'⟩

/-! Steps that do not depend on the policy. -/

theorem fail (e : EvalError) (here : Option Location) :
    Refines program T R (Run.fail e here : Run α) (Run.fail e here : Run β) where
  grows _ := .refl _
  matched _ h := by cases h
  ends {s t} hst _ := by
    have hattach : s.stack.attach e here = t.stack.attach e here := by rw [hst.stack]
    refine ⟨?_, hst⟩
    show Alike R (.error (s.stack.attach e here)) (.error (t.stack.attach e here))
    rw [hattach]
    exact .error _

theorem ofResult (here : Option Location) (result : Except EvalError α) :
    Refines program T Eq (Run.ofResult here result) (Run.ofResult here result) := by
  cases result with
  | ok a => exact .pure rfl
  | error e => exact .fail e here

theorem faulty (f : Fault) :
    Refines program T R (Run.faulty f : Run α) (Run.faulty f : Run β) where
  grows _ := .refl _
  matched _ h := by cases h
  ends hst _ := ⟨.fault f, hst⟩

theorem exhausted : Refines program T R (Run.exhausted : Run α) (Run.exhausted : Run β) where
  grows _ := .refl _
  matched _ h := by cases h
  ends hst _ := ⟨.outOfFuel, hst⟩

theorem unsupported (operation : String) (operands : List Value) :
    Refines program T R (Run.unsupported operation operands : Run α)
      (Run.unsupported operation operands : Run β) where
  grows _ := .refl _
  matched _ h := by cases h
  ends {s t} hst hT := by
    unfold Run.unsupported
    rw [hst.heap]
    exact (Refines.fail _ none).ends hst hT

/-- A step that only looks at the heap and changes it. -/
theorem onHeap (step : Heap → α × Heap) :
    Refines program T Eq (fun s => (.ok (step s.heap).1, { s with heap := (step s.heap).2 }))
      (fun t => (.ok (step t.heap).1, { t with heap := (step t.heap).2 })) where
  grows _ := ⟨List.suffix_refl _, fun _ => rfl⟩
  matched {_ b} _ _ := ⟨b, rfl⟩
  ends {s t} hst _ := by
    rw [hst.heap]
    exact ⟨.ok rfl, hst.setHeap _⟩

theorem newObject (cls : ClassRef) (fields : List (String × Value)) :
    Refines program T Eq (Machine.newObject cls fields) (Machine.newObject cls fields) :=
  onHeap fun heap =>
    let made := heap.alloc { cls, fields := .ofList fields }
    (Value.object made.1, made.2)

theorem readField (v : Value) (name : String) :
    Refines program T Eq (Machine.readField v name) (Machine.readField v name) := by
  rcases readField_cases v name with ⟨id, hread⟩ | hfail
  · rw [hread]
    exact onHeap fun heap => ((heap.field? id name).getD .nil, heap)
  · rw [hfail]
    exact unsupported _ _

theorem writeField (v : Value) (name : String) (w : Value) :
    Refines program T Eq (Machine.writeField v name w) (Machine.writeField v name w) := by
  rcases writeField_cases v name w with ⟨id, hwrite⟩ | hfail
  · rw [hwrite]
    exact onHeap fun heap => ((), heap.setField id name w)
  · rw [hfail]
    exact unsupported _ _

theorem raise (v : Value) (location : Location) :
    Refines program T R (raiseValue v location : Run α) (raiseValue v location : Run β) where
  grows _ := ⟨List.suffix_refl _, fun _ => rfl⟩
  matched _ h := by cases h
  ends {s t} hst _ := by
    have hraise : Raise.raise v location s.stack s.heap = Raise.raise v location t.stack t.heap := by
      rw [hst.stack, hst.heap]
    unfold raiseValue
    rw [hraise]
    exact ⟨.error _, hst.setHeap _⟩

/-- A call: what happens inside decides. -/
theorem within (frame : CallFrame) {x : Run α} {y : Run β} (hx : Refines program T R x y) :
    Refines program T R (Run.within frame x) (Run.within frame y) where
  grows := by
    intro t ht
    cases hpush : t.stack.push frame with
    | error e =>
      rw [within_refused hpush]
      exact .refl t
    | ok stack =>
      rw [within_entered hpush]
      have hentered : Extends t (t.enter stack) := .enter t stack
      have hinside := hx.grows (hentered.sized ht)
      exact (hentered.trans hinside).trans (.leave _)
  matched := by
    intro t b ht hb
    cases hpush : t.stack.push frame with
    | error e =>
      rw [within_refused hpush] at hb
      cases hb
    | ok stack =>
      rw [within_entered hpush] at hb
      exact hx.matched ((Extends.enter t stack).sized ht) hb
  ends := by
    intro s t hst hT
    cases hpush : t.stack.push frame with
    | error e =>
      rw [within_refused hpush, within_refused (hst.stack ▸ hpush)]
      exact ⟨.error e, hst⟩
    | ok stack =>
      rw [within_entered hpush] at hT
      rw [within_entered hpush, within_entered (hst.stack ▸ hpush)]
      -- leaving the call adds a step, so the steps inside are in `T` too
      have hinside : (y (t.enter stack)).2.trace <:+ T := (List.suffix_cons _ _).trans hT
      obtain ⟨halike, hst'⟩ := hx.ends (hst.enter stack) hinside
      exact ⟨halike, hst'.leave⟩

theorem builtin {key : FunctionKey} {f : LinkedFunction} (hf : program.at? key = some f)
    (entry : Builtin.Entry) (inst : Nat) (vs : List Value) (location : Location) :
    Refines program T Eq (invokeBuiltin key entry inst vs location)
      (invokeBuiltin key entry inst vs location) where
  grows {t} _ := by
    rw [invokeBuiltin_eq, ofResult_snd]
    exact .afterReply key inst _ _ t
  matched {_ b} _ _ := ⟨b, rfl⟩
  ends := by
    intro s t hst hT
    -- a builtin sees the heap, the clock and its own memory, which are all the same
    have hgiven : invocation key inst vs s = invocation key inst vs t := by
      simp only [invocation, FunctionState.memory, (hst.fits hf).memories, State.now,
        hst.surroundings, hst.readings, hst.heap]
    have hreply : builtinReply key entry inst vs s = builtinReply key entry inst vs t := by
      simp only [builtinReply, hgiven]
    have hevent : invokedEvent key entry inst vs s = invokedEvent key entry inst vs t := by
      simp only [invokedEvent, hgiven]
    rw [invokeBuiltin_eq] at hT
    rw [invokeBuiltin_eq, invokeBuiltin_eq, hreply, hevent]
    exact (ofResult _ _).ends (hst.afterReply hf inst (by simp [invokedEvent]) _) hT

/-! Steps that the policies make differently. -/

section

variable {key : FunctionKey} {f : LinkedFunction} {φ ψ : Frame}

/-- An activation starts with an empty cell for every local. -/
theorem newFrame (hf : program.at? key = some f) :
    Refines program T (Mirrors program T key) (Machine.newFrame key) (Machine.newFrame key) where
  grows _ := .refl _
  matched := by
    intro t ψ ht h
    obtain rfl : (t.function key).slots.newFrame = ψ := Outcome.ok.inj h
    rw [SlotTable.newFrame, ht hf]
    exact ⟨_, .ofSize hf⟩
  ends := by
    intro s t hst _
    have hfs := hst.fits hf
    refine ⟨.ok ?_, hst⟩
    simp only [SlotTable.newFrame, hfs.slots, hfs.plainSlots]
    exact .ofSize hf

theorem read (hT : Regular program T) (hf : program.at? key = some f)
    (hframe : Mirrors program T key φ ψ) (slot : Nat) :
    Refines program T Eq (readSlot .adaptive key φ slot) (readSlot .plain key ψ slot) where
  grows _ := by
    unfold readSlot
    split <;> exact .refl _
  matched {_ b} _ _ := ⟨b, rfl⟩
  ends := by
    intro s t hst htrace
    have hsuffix : s.trace <:+ T := by
      rw [hst.trace]
      unfold readSlot at htrace
      split at htrace <;> exact htrace
    unfold readSlot
    rw [hframe.read_eq hT (hst.fits hf) hsuffix slot]
    split
    · exact ⟨.ok rfl, hst⟩
    · exact ⟨.fault _, hst⟩

theorem assign (hT : Regular program T) (hf : program.at? key = some f)
    (hframe : Mirrors program T key φ ψ) (slot : Nat) (v : Value) :
    Refines program T (Mirrors program T key) (assignSlot .adaptive key φ slot v)
      (assignSlot .plain key ψ slot v) where
  grows {t} _ := (Extends.setFunction t key _ rfl).trans (.record _ (.assigned key slot v))
  matched := by
    intro t ψ' _ h
    cases h
    -- not the frame that the adaptive machine makes, but some frame is enough here
    exact ⟨φ.setCell slot (.boxed v), hframe.setCell (.stable fun _ => rfl)⟩
  ends := by
    intro s t hst htrace
    replace htrace : .assigned key slot v :: (t.setFunction key (t.function key)).trace <:+ T := htrace
    rw [State.trace_setFunction, ← hst.trace] at htrace
    have hfs := hst.fits hf
    refine ⟨.ok (hframe.assign hT hf hfs htrace), ?_⟩
    exact hst.step hf (hfs.assign φ slot v) (by simp)

/-- Operands that are not both integers are treated alike by all nodes. -/
theorem rule_eq {op : Operator} {wide : Bool} {names : ClassNames} {left right : Value}
    (h : wide = true → ∀ a b, left = .int a → right = .int b → False) :
    op.rule wide names left right = op.rule false names left right := by
  cases wide with
  | false => rfl
  | true =>
    cases left with
    | int a =>
      cases right with
      | int b => exact (h rfl a b rfl rfl).elim
      | _ => rfl
    | float x => cases right <;> rfl
    | _ => rfl

theorem applyOperator_adaptive (op : Operator) (site : Nat) (v w : Value) (s : State) :
    applyOperator .adaptive key op site v w s =
      Run.ofResult none (op.evaluate s.heap.className v w ((s.function key).site site)).1
        ((s.setFunction key ((s.function key).setSite site
          (op.evaluate s.heap.className v w ((s.function key).site site)).2)).record
            (.applied key site v w)) := rfl

theorem applyOperator_plain (op : Operator) (site : Nat) (v w : Value) (t : State) :
    applyOperator .plain key op site v w t =
      Run.ofResult none (op.rule false t.heap.className v w)
        ((t.setFunction key (t.function key)).record (.applied key site v w)) := rfl

theorem apply (hT : Regular program T) (hf : program.at? key = some f) {op : Operator} {site : Nat}
    (hop : f.operators[site]? = some op) (v w : Value) :
    Refines program T Eq (applyOperator .adaptive key op site v w)
      (applyOperator .plain key op site v w) where
  grows {t} _ := by
    rw [applyOperator_plain, ofResult_snd]
    exact (Extends.setFunction t key _ rfl).trans (.record _ _)
  matched {_ b} _ _ := ⟨b, rfl⟩
  ends := by
    intro s t hst htrace
    have hfs := hst.fits hf
    rw [applyOperator_plain] at htrace
    have hsteps : .applied key site v w :: s.trace <:+ T := by
      rw [ofResult_snd, State.record, State.trace_setFunction, ← hst.trace] at htrace
      exact htrace
    -- a node that has widened does not meet two integers in a regular run
    have hrule : op.rule (widenedIn op key site s.trace) s.heap.className v w =
        op.rule false t.heap.className v w := by
      rw [hst.heap]
      refine rule_eq fun hwide a b hv hw => ?_
      obtain ⟨left, right, hmem, hwidens⟩ := exists_of_widenedIn hwide
      obtain ⟨later, hlater⟩ := hsteps
      subst hv hw
      have hat : operatorAt program key site = some op := by simp [operatorAt, hf, hop]
      have hnot := hT.nodes hlater.symm hat hmem
      rw [hwidens] at hnot
      cases hnot
    have hresult := ((hfs.adapted hop).evaluate s.heap.className v w).1
    have hagree := hst.step hf (hfs.apply hop s.heap.className v w)
      fun other hne _ _ _ he => hne (Event.applied.inj he).1.symm
    rw [applyOperator_adaptive, applyOperator_plain, hresult, hrule]
    exact (ofResult none _).ends hagree htrace

end

end Refines

/-! ### The simulation -/

section

variable {program : LinkedProgram} {registry : Registry} {T : List Event}

/-- The adaptive machine simulates the plain one on a regular run. -/
def refinement (hplaced : ∀ {key f}, program.at? key = some f → f.Placed registry)
    (hT : Regular program T) : Simulation .adaptive .plain program where
  rel _ {_ _} R x y := Refines program T R x y
  frame key φ ψ := Mirrors program T key φ ψ
  rel_pure h := .pure h
  rel_bind hx hk := hx.bind hk
  newFrame hf := .newFrame hf
  read hf _ hframe := .read hT hf hframe _
  assign v hf _ hframe := .assign hT hf hframe _ v
  apply v w hf hnode := .apply hT hf ((hplaced hf).operator_at hnode) v w
  builtin vs hf _ := .builtin hf _ _ vs _
  newObject vs _ _ := .newObject _ vs
  readField v _ _ := .readField v _
  writeField v w _ _ := .writeField v _ w
  raise v _ _ := .raise v _
  unknown _ _ _ := .faulty _
  arity _ _ _ _ := .fail _ _
  within _ _ _ _ hx := .within _ hx
  exhausted := .exhausted

theorem runMain_refines (hplaced : ∀ {key f}, program.at? key = some f → f.Placed registry)
    (hT : Regular program T) (fuel : Nat) :
    Refines program T Eq (runMain .adaptive program fuel) (runMain .plain program fuel) := by
  unfold runMain
  rw [enter_eq, enter_eq]
  have hmain : program.at? .main = some program.main := rfl
  exact .within _ ((refinement hplaced hT).inside_rel fuel hmain [])

theorem callIndex_refines (hplaced : ∀ {key f}, program.at? key = some f → f.Placed registry)
    (hT : Regular program T) (fuel index : Nat) (args : List Value) :
    Refines program T Eq (callIndex .adaptive program fuel index args)
      (callIndex .plain program fuel index args) := by
  unfold callIndex callUser
  cases hg : program.functions[index]? with
  | none => exact .faulty _
  | some g =>
    have hat : program.at? (.user index) = some g := hg
    simp only [enter_eq]
    split
    · exact .within _ ((refinement hplaced hT).inside_rel fuel hat args)
    · exact .fail _ _

/-- The plain machine only adds to the trace. -/
theorem respond_extends (hplaced : ∀ {key f}, program.at? key = some f → f.Placed registry)
    (hT : Regular program T) {t : State} (ht : t.Sized program) (request : Request × Nat) :
    Extends t (respond .plain program t request).2 := by
  obtain ⟨request, fuel⟩ := request
  cases request with
  | run =>
    rw [respond_run]
    exact (runMain_refines hplaced hT _).grows ht
  | call name args =>
    cases hindex : program.index? name with
    | none =>
      rw [respond_unknown hindex]
      exact .refl t
    | some index =>
      rw [respond_call hindex]
      exact (callIndex_refines hplaced hT _ index args).grows ht

/-- Answering a request. -/
theorem respond_refines (hplaced : ∀ {key f}, program.at? key = some f → f.Placed registry)
    (hT : Regular program T) {s t : State} (hst : Agree program s t) (request : Request × Nat)
    (htrace : (respond .plain program t request).2.trace <:+ T) :
    (respond .adaptive program s request).1 = (respond .plain program t request).1 ∧
      Agree program (respond .adaptive program s request).2
        (respond .plain program t request).2 := by
  obtain ⟨request, fuel⟩ := request
  have hbudget : s.budget fuel = t.budget fuel := by
    unfold State.budget
    rw [hst.stack]
  cases request with
  | run =>
    rw [respond_run] at htrace
    rw [respond_run, respond_run, hbudget]
    obtain ⟨halike, hagree⟩ := (runMain_refines hplaced hT _).ends hst htrace
    exact ⟨congrArg some halike.eq, hagree⟩
  | call name args =>
    cases hindex : program.index? name with
    | none =>
      rw [respond_unknown hindex, respond_unknown hindex]
      exact ⟨rfl, hst⟩
    | some index =>
      rw [respond_call hindex] at htrace
      rw [respond_call hindex, respond_call hindex, hbudget]
      obtain ⟨halike, hagree⟩ := (callIndex_refines hplaced hT _ index args).ends hst htrace
      exact ⟨congrArg some halike.eq, hagree⟩

theorem session_extends (hplaced : ∀ {key f}, program.at? key = some f → f.Placed registry)
    (hT : Regular program T) {t : State} (ht : t.Sized program)
    (requests : List (Request × Nat)) :
    Extends t (session .plain program t requests).2 := by
  induction requests generalizing t with
  | nil => exact .refl t
  | cons request requests ih =>
    have hfirst := respond_extends hplaced hT ht request
    exact hfirst.trans (ih (hfirst.sized ht))

/-- Sessions from states that agree, the plain one being the end of a regular
run. -/
theorem session_refines (hplaced : ∀ {key f}, program.at? key = some f → f.Placed registry)
    (hT : Regular program T) {s t : State} (hst : Agree program s t)
    (requests : List (Request × Nat))
    (htrace : (session .plain program t requests).2.trace <:+ T) :
    (session .adaptive program s requests).1 = (session .plain program t requests).1 := by
  induction requests generalizing s t with
  | nil => rfl
  | cons request requests ih =>
    -- the steps of the first answer are among those of the whole session
    have hsized := (respond_extends hplaced hT hst.sized request).sized hst.sized
    have hfirst := (session_extends hplaced hT hsized requests).trace.trans htrace
    obtain ⟨houtcome, hagree⟩ := respond_refines hplaced hT hst request hfirst
    have hrest := ih hagree htrace
    have hseen : Observation.of (respond .adaptive program s request).1
        (respond .adaptive program s request).2 =
        .of (respond .plain program t request).1 (respond .plain program t request).2 := by
      simp only [Observation.of, houtcome, hagree.heap, hagree.sink, hagree.stdout]
    rw [session_cons, session_cons, hseen, hrest]

end

/-- A session of the adaptive machine with a program that was linked shows the
same as the session of the plain machine, if the plain session is regular. The
two start in one state, so the readings of the clock, the addresses of objects
and the hasher are the same for both. The builtins of the registry are pure, as
all implementations are. -/
theorem session_adaptive_eq_plain {firstClass : Nat} {p : Program} {registry : Registry}
    {program : LinkedProgram} (hlink : p.linkFrom firstClass registry = .ok program) {s : State}
    (hfresh : s.Fresh program) (requests : List (Request × Nat))
    (hregular : Regular program (session .plain program s requests).2.trace) :
    (session .adaptive program s requests).1 = (session .plain program s requests).1 :=
  session_refines (fun hf => Program.linkFrom_placed hlink hf) hregular (.fresh hfresh) requests
    (List.suffix_refl _)

/-! ### A regular session -/

/-- A program that adds one to a square. -/
def squares : Program :=
  { source := "main"
    functions :=
      [ { name := "square", source := "main", params := [0], locals := ["n"]
          body := [.ret (some (.binary .mul (.var 0) (.var 0) 0))]
          siteCount := 1, callCount := 0 } ]
    main :=
      { name := programName, source := "main", params := [], locals := ["a"]
        body :=
          [ .assign 0 (.binary .add (.call "square" [.lit (.int 5)] 0 ⟨1, 5⟩) (.lit (.int 1)) 0),
            .ret (some (.var 0)) ]
        siteCount := 1, callCount := 1 } }

/-- `squares`, linked. -/
def linkedSquares : LinkedProgram :=
  { source := "main"
    functions :=
      #[ { name := "square", source := "main", params := [0], locals := ["n"]
           body := [.ret (some (.binary .mul (.var 0) (.var 0) 0))] } ]
    main :=
      { name := programName, source := "main", params := [], locals := ["a"]
        body :=
          [ .assign 0 (.binary .add (.call (.user 0) [.const (.int 5)] ⟨1, 5⟩) (.const (.int 1)) 0),
            .ret (some (.var 0)) ] }
    classes := [] }

/-- The state in which `squares` starts. -/
def squaresStart : State := .initial linkedSquares .interpret .empty .still

/-- The top-level body, a call from outside, and the top-level body again. -/
def squaresRequests : List (Request × Nat) := [(.run, 2), (.call "square" [.int 7], 1), (.run, 2)]

theorem squares_trace : (session .plain linkedSquares squaresStart squaresRequests).2.trace =
    [ .left [], .assigned .main 0 (.int 26), .applied .main 0 (.int 25) (.int 1),
      .left [⟨programName, "main", none⟩], .applied (.user 0) 0 (.int 5) (.int 5),
      .assigned (.user 0) 0 (.int 5),
      .entered [⟨"square", "main", some ⟨1, 5⟩⟩, ⟨programName, "main", none⟩],
      .entered [⟨programName, "main", none⟩],
      .left [], .applied (.user 0) 0 (.int 7) (.int 7), .assigned (.user 0) 0 (.int 7),
      .entered [⟨"square", "main", none⟩],
      .left [], .assigned .main 0 (.int 26), .applied .main 0 (.int 25) (.int 1),
      .left [⟨programName, "main", none⟩], .applied (.user 0) 0 (.int 5) (.int 5),
      .assigned (.user 0) 0 (.int 5),
      .entered [⟨"square", "main", some ⟨1, 5⟩⟩, ⟨programName, "main", none⟩],
      .entered [⟨programName, "main", none⟩] ] := by
  cbv

theorem squares_regular :
    Regular linkedSquares (session .plain linkedSquares squaresStart squaresRequests).2.trace := by
  rw [squares_trace]
  refine ⟨?_, ?_⟩
  · intro key slot n x _ hfloat
    simp at hfloat
  · intro later earlier key site op a b left right hsplit _ hmem
    have hin := List.mem_append_right later
      (List.mem_cons_of_mem (.applied key site (.int a) (.int b)) hmem)
    rw [← hsplit] at hin
    simp only [List.mem_cons, reduceCtorEq, false_or, List.not_mem_nil, or_false,
      Event.applied.injEq] at hin
    -- none of the operands of the session widens any node
    rcases hin with ⟨-, -, hl, hr⟩ | ⟨-, -, hl, hr⟩ | ⟨-, -, hl, hr⟩ | ⟨-, -, hl, hr⟩ |
      ⟨-, -, hl, hr⟩ <;> subst hl hr <;> cases op <;> rfl

/-- The session with `squares` is one of those that show the same. -/
theorem session_squares :
    squares.linkFrom 0 Registry.core = .ok linkedSquares ∧
      squaresStart.Fresh linkedSquares ∧
      Regular linkedSquares (session .plain linkedSquares squaresStart squaresRequests).2.trace ∧
      (session .adaptive linkedSquares squaresStart squaresRequests).1 =
        (session .plain linkedSquares squaresStart squaresRequests).1 := by
  have hlink : squares.linkFrom 0 Registry.core = .ok linkedSquares := rfl
  have hfresh : squaresStart.Fresh linkedSquares := State.initial_fresh _ _ _ _
  exact ⟨hlink, hfresh, squares_regular,
    session_adaptive_eq_plain hlink hfresh squaresRequests squares_regular⟩

end Machine

end AdaptiveScript
