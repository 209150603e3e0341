/-! # Specialization Sites

  An operation that adapts to its operands has a table of guarded
  strategies in order of preference, and every place in a program where it
  stands has a *site*: a cursor that remembers the strategy that answered
  last and a mask of the strategies excluded there for good.

  - The cursor's strategy is tried first, unless it is excluded.
  - Otherwise the strategies are scanned in order; the first that answers
    becomes the cursor and excludes the strategies that it replaces.
  - A strategy that retires is excluded, and the scan goes on.

  A site holds one bit per strategy, so only the first 32 strategies of a
  table take part.
-/

namespace AdaptiveScript

/-! ### Strategies -/

/-- What a strategy says about some operands. -/
inductive Attempt (β : Type) where
  /-- It has a result. -/
  | done (result : β)
  /-- It cannot handle them and is to be retired at this site. -/
  | retire
  /-- It does not take operands of this shape. -/
  | decline
  deriving Repr

/-- Strategies that a site can tell apart. -/
def maxStrategies : Nat := 32

/-- A set of strategies, as bits by their index in the table. -/
abbrev Mask := BitVec 32

/-- The set that holds one strategy; empty for an index without a bit. -/
def Mask.bit (index : Nat) : Mask := if index < 32 then BitVec.twoPow 32 index else 0

theorem Mask.getLsbD_bit (index i : Nat) :
    (Mask.bit index).getLsbD i = (decide (index < 32) && decide (index = i)) := by
  by_cases h : index < 32
  · simp only [Mask.bit, if_pos h, BitVec.getLsbD_twoPow]
  · simp only [Mask.bit, if_neg h, BitVec.ofNat_eq_ofNat, BitVec.getLsbD_zero,
      decide_eq_false h, Bool.false_and]

/-- One guarded strategy for operands of type `α` with results in `β`. -/
structure Strategy (α β : Type) where
  name : String
  guard : α → Bool
  body : α → Attempt β
  /-- The strategies that this one supersedes once it is activated. -/
  replaces : Mask := 0

/-! ### Sites -/

/-- The memory of one place where a table is used. -/
structure Site where
  /-- Index of the strategy that was activated last. -/
  cursor : Option Nat := none
  /-- The strategies that are never tried again. -/
  excluded : Mask := 0
  deriving DecidableEq, Repr, Inhabited

namespace Site

/-- A site that nothing has been tried at. -/
def fresh : Site := {}

/-- Whether a strategy is excluded. -/
def isExcluded (s : Site) (index : Nat) : Bool := s.excluded.getLsbD index

/-- Excludes one strategy. -/
def exclude (s : Site) (index : Nat) : Site :=
  { s with excluded := s.excluded ||| Mask.bit index }

/-- Makes a strategy the cursor and excludes what it replaces. -/
def activate (s : Site) (index : Nat) (replaces : Mask) : Site :=
  { cursor := some index, excluded := s.excluded ||| replaces }

/-! What the two updates do to the exclusions. -/

@[simp] theorem cursor_exclude (s : Site) (index : Nat) :
    (s.exclude index).cursor = s.cursor := rfl

@[simp] theorem cursor_activate (s : Site) (index : Nat) (replaces : Mask) :
    (s.activate index replaces).cursor = some index := rfl

theorem isExcluded_exclude (s : Site) (index i : Nat) :
    (s.exclude index).isExcluded i =
      (s.isExcluded i || (decide (index < 32) && decide (index = i))) := by
  simp only [isExcluded, exclude, BitVec.getLsbD_or, Mask.getLsbD_bit]

theorem isExcluded_activate (s : Site) (index i : Nat) (replaces : Mask) :
    (s.activate index replaces).isExcluded i = (s.isExcluded i || replaces.getLsbD i) := by
  simp only [isExcluded, activate, BitVec.getLsbD_or]

/-! ### Dispatch -/

variable {α β : Type}

/-- Tries the cursor's strategy. -/
def tryCursor (table : List (Strategy α β)) (args : α) (s : Site) : Option β × Site :=
  match s.cursor with
  | none => (none, s)
  | some index =>
    match table[index]? with
    | none => (none, s)
    | some strategy =>
      if s.isExcluded index || !strategy.guard args then (none, s)
      else
        match strategy.body args with
        | .done result => (some result, s)
        | .retire => (none, s.exclude index)
        | .decline => (none, s)

/-- Tries strategies in order, the first of them having index `index`. An
answer of any other strategy than the cursor's activates it. -/
def scan (cursor : Option Nat) (args : α) :
    List (Strategy α β) → Nat → Site → Option β × Site
  | [], _, s => (none, s)
  | strategy :: rest, index, s =>
    if s.isExcluded index || !strategy.guard args then scan cursor args rest (index + 1) s
    else
      match strategy.body args with
      | .done result =>
        (some result,
          if cursor = some index then s else s.activate index strategy.replaces)
      | .retire => scan cursor args rest (index + 1) (s.exclude index)
      | .decline => scan cursor args rest (index + 1) s

/-- Runs the first strategy of the table that answers. There is no result
when none does. -/
def dispatch (table : List (Strategy α β)) (args : α) (s : Site) : Option β × Site :=
  match s.tryCursor table args with
  | (some result, s') => (some result, s')
  | (none, s') => scan s.cursor args (table.take maxStrategies) 0 s'

/-- The name of the cursor's strategy. -/
def activeName (table : List (Strategy α β)) (s : Site) : Option String :=
  s.cursor.bind fun index => table[index]?.map (·.name)

/-- The names of the excluded strategies, in table order. -/
def excludedNames (table : List (Strategy α β)) (s : Site) : List String :=
  (table.zipIdx.filter fun e => s.isExcluded e.2).map (·.1.name)

end Site

end AdaptiveScript
