import AdaptiveScript.Operator.Strategies
import AdaptiveScript.Proofs.Specialization.Dispatch
import AdaptiveScript.Proofs.Value.Widening
import Mathlib.Tactic.IntervalCases

/-! # The Rule Behind an Operator Node

  An operator node keeps a cursor and a mask, but all that its answers can
  show of them is one bit: whether the node has *widened*. A node of `+` or
  `*` widens when it meets two floats, or two integers whose exact result
  does not fit; a node of `/` never does. `Operator.rule` gives the answer
  from the operands and that bit alone, without a table. It computes with whole
  numbers and with the floats nearest to them, and not with the helpers of the
  tables; `int64?_eq` and `widen_eq_nearestFloat` say that those agree with it.

  The main result, `results_eq_rule`, says that a node that is applied any
  number of times answers by the rule every time. It rests on an invariant,
  `Operator.Adapted`, that ties the mask and the cursor to the bit.
-/

namespace AdaptiveScript

namespace Operator

/-! ### The rule -/

/-- The operator on floats. -/
def onFloats : Operator → Float → Float → Float
  | .add => (· + ·)
  | .mul => (· * ·)
  | .div => (· / ·)

/-- The exact result of the operator on two whole numbers, if there is one. -/
def integral? : Operator → Int → Int → Option Int
  | .add, a, b => some (a + b)
  | .mul, a, b => some (a * b)
  | .div, a, b => if b ≠ 0 ∧ b ∣ a then some (a / b) else none

/-- The exact result of the operator on two integers, if there is one and it
fits in 64 bits. -/
def exactInt? (op : Operator) (a b : Int64) : Option Int64 :=
  match op.integral? a.toInt b.toInt with
  | some n => if -2 ^ 63 ≤ n ∧ n < 2 ^ 63 then some (Int64.ofInt n) else none
  | none => none

/-- `count` copies of something that consists of `unit` bytes or elements. -/
def repetition (unit : Nat) (count : Int64) (measure : String) (copies : Nat → Value) :
    EvalResult :=
  let size := count.toInt.toNat * unit
  if count.toInt < 0 then .error { kind := .negativeCount Operator.mul.symbol count }
  else if maxRepeated < size then
    .error { kind := .sizeOutOfBounds Operator.mul.symbol size maxRepeated measure }
  else .ok (copies count.toInt.toNat)

/-- What the operator yields for operands that are not both numbers. -/
def onOthers (op : Operator) (names : ClassNames) (left right : Value) : EvalResult :=
  match op, left, right with
  | .add, left, right =>
    if left.isStr || right.isStr then .ok (.str (left.display names ++ right.display names))
    else .error (.unsupportedOperands names op.symbol [left, right])
  | .mul, .str text, .int count =>
    repetition text.utf8ByteSize count "bytes" fun n => .str (repeatText text n)
  | .mul, .list items, .int count =>
    repetition items.length count "elements" fun n => .list (repeatItems items n)
  | op, left, right => .error (.unsupportedOperands names op.symbol [left, right])

/-- What the operator yields at a node, given whether the node has widened. -/
def rule (op : Operator) (wide : Bool) (names : ClassNames) (left right : Value) : EvalResult :=
  match left, right with
  | .int a, .int b =>
    match wide, op.exactInt? a b with
    | false, some n => .ok (.int n)
    | _, _ => .ok (.float (op.onFloats (nearestFloat a) (nearestFloat b)))
  | .int a, .float y => .ok (.float (op.onFloats (nearestFloat a) y))
  | .float x, .int b => .ok (.float (op.onFloats x (nearestFloat b)))
  | .float x, .float y => .ok (.float (op.onFloats x y))
  | left, right => op.onOthers names left right

/-- Whether these operands widen a node. -/
def widens : Operator → Value → Value → Bool
  | .div, _, _ => false
  | _, .float _, .float _ => true
  | op, .int a, .int b => (op.exactInt? a b).isNone
  | _, _, _ => false

/-! ### Exact results -/

/-- What makes an integer the exact result of the operator on two others. -/
def Exact : Operator → Int64 → Int64 → Int64 → Prop
  | .add, a, b, n => n.toInt = a.toInt + b.toInt
  | .mul, a, b, n => n.toInt = a.toInt * b.toInt
  | .div, a, b, n => b.toInt ≠ 0 ∧ n.toInt * b.toInt = a.toInt

/-- Where there is an exact result, it is found. -/
theorem exactInt?_eq_some_iff {op : Operator} {a b n : Int64} :
    op.exactInt? a b = some n ↔ op.Exact a b n := by
  have hfits : ∀ m : Int, (if -2 ^ 63 ≤ m ∧ m < 2 ^ 63 then some (Int64.ofInt m) else none) =
      some n ↔ n.toInt = m := by
    intro m
    constructor
    · intro h
      split at h
      · rename_i hbounds
        cases h
        exact Int64.toInt_ofInt_of_le hbounds.1 hbounds.2
      · cases h
    · rintro rfl
      rw [if_pos ⟨n.le_toInt, n.toInt_lt⟩, Int64.ofInt_toInt]
  cases op with
  | add => exact hfits _
  | mul => exact hfits _
  | div =>
    simp only [exactInt?, integral?, Exact]
    by_cases hdvd : b.toInt ≠ 0 ∧ b.toInt ∣ a.toInt
    · rw [if_pos hdvd, hfits, and_iff_right hdvd.1, eq_comm,
        Int.ediv_eq_iff_eq_mul_left hdvd.1 hdvd.2, eq_comm]
    · rw [if_neg hdvd]
      refine ⟨fun h => (by cases h), fun h => absurd ⟨h.1, ?_⟩ hdvd⟩
      exact ⟨n.toInt, by rw [← h.2, Int.mul_comm]⟩

end Operator

/-- The integer that the tables make of a number. -/
theorem int64?_eq (n : Int) :
    int64? n = if -2 ^ 63 ≤ n ∧ n < 2 ^ 63 then some (Int64.ofInt n) else none := by
  have hmin : Int64.minValue.toInt = -2 ^ 63 := rfl
  have hmax : Int64.maxValue.toInt = 2 ^ 63 - 1 := rfl
  simp only [int64?, hmin, hmax, Int.le_sub_one_iff]

/-! ### What the guards accept -/

/-- Two numbers, by their types. -/
inductive Numbers : Value → Value → Prop where
  | ints (a b : Int64) : Numbers (.int a) (.int b)
  | intFloat (a : Int64) (y : Float) : Numbers (.int a) (.float y)
  | floatInt (x : Float) (b : Int64) : Numbers (.float x) (.int b)
  | floats (x y : Float) : Numbers (.float x) (.float y)

namespace Operands

variable {names : ClassNames} {left right : Value}

theorem isInts_iff : isInts ⟨[left, right], names⟩ = true ↔
    ∃ a b, left = .int a ∧ right = .int b := by
  cases left <;> cases right <;> simp [isInts, ints?]

theorem isFloatInt_iff : isFloatInt ⟨[left, right], names⟩ = true ↔
    ∃ x b, left = .float x ∧ right = .int b := by
  cases left <;> cases right <;> simp [isFloatInt]

theorem isIntFloat_iff : isIntFloat ⟨[left, right], names⟩ = true ↔
    ∃ a y, left = .int a ∧ right = .float y := by
  cases left <;> cases right <;> simp [isIntFloat]

theorem isFloats_iff : isFloats ⟨[left, right], names⟩ = true ↔
    ∃ x y, left = .float x ∧ right = .float y := by
  cases left <;> cases right <;> simp [isFloats]

theorem isStrs_iff : isStrs ⟨[left, right], names⟩ = true ↔
    ∃ a b, left = .str a ∧ right = .str b := by
  cases left <;> cases right <;> simp [isStrs]

theorem isStrInt_iff : isStrInt ⟨[left, right], names⟩ = true ↔
    ∃ a b, left = .str a ∧ right = .int b := by
  cases left <;> cases right <;> simp [isStrInt]

theorem isIntStr_iff : isIntStr ⟨[left, right], names⟩ = true ↔
    ∃ a b, left = .int a ∧ right = .str b := by
  cases left <;> cases right <;> simp [isIntStr]

theorem isListInt_iff : isListInt ⟨[left, right], names⟩ = true ↔
    ∃ items b, left = .list items ∧ right = .int b := by
  cases left <;> cases right <;> simp [isListInt]

theorem hasStr_iff (names : ClassNames) : hasStr ⟨[left, right], names⟩ = true ↔
    (left.isStr || right.isStr) = true := by
  simp [hasStr]

theorem number?_int (n : Int64) : (Value.int n).number? = some (nearestFloat n) :=
  congrArg some (widen_eq_nearestFloat n)

/-- A float operation on two numbers is done on the nearest floats. -/
theorem onNumbers_eq {f : Float → Float → Float} {x y : Float} (hleft : left.number? = some x)
    (hright : right.number? = some y) :
    onNumbers f ⟨[left, right], names⟩ = .done (.ok (.float (f x y))) := by
  simp [onNumbers, numbers?, hleft, hright]

/-- A float operation on operands either has two numbers or declines. -/
theorem onNumbers_cases (f : Float → Float → Float) (names : ClassNames) (left right : Value) :
    Numbers left right ∨ onNumbers f ⟨[left, right], names⟩ = .decline := by
  cases left <;> cases right <;> first | exact .inr rfl | exact .inl (by constructor)

end Operands

namespace Operator

open Operands

variable {op : Operator} {wide : Bool} {names : ClassNames} {left right : Value}

/-! ### The rule by the shape of the operands -/

/-- Two numbers are computed with as floats, unless they are integers with
an exact result at a node that has not widened. -/
theorem onNumbers_eq_rule (h : Numbers left right)
    (hexact : ∀ a b n, left = .int a → right = .int b → op.exactInt? a b = some n →
      wide = true) :
    onNumbers op.onFloats ⟨[left, right], names⟩ = .done (op.rule wide names left right) := by
  cases h with
  | ints a b =>
    rw [onNumbers_eq (number?_int a) (number?_int b)]
    cases hn : op.exactInt? a b with
    | none => simp [rule, hn]
    | some n => simp [rule, hexact a b n rfl rfl hn]
  | intFloat a y => exact onNumbers_eq (number?_int a) rfl
  | floatInt x b => exact onNumbers_eq rfl (number?_int b)
  | floats x y => rfl

theorem not_numbers_of_text (h : (left.isStr || right.isStr) = true) : ¬ Numbers left right := by
  intro hnumbers
  cases hnumbers <;> cases h

/-- Operands that are not both numbers. -/
theorem rule_others (h : ¬ Numbers left right) :
    op.rule wide names left right = op.onOthers names left right := by
  cases left <;> cases right <;> first | rfl | exact absurd (by constructor) h

/-- Widening is about numbers. -/
theorem numbers_of_widens (h : op.widens left right = true) :
    op ≠ .div ∧ Numbers left right := by
  cases op with
  | div => cases h
  | add => cases left <;> cases right <;> first | exact ⟨by decide, by constructor⟩ | cases h
  | mul => cases left <;> cases right <;> first | exact ⟨by decide, by constructor⟩ | cases h

/-- Two integers widen a node of `+` or `*` if they have no exact result. -/
theorem widens_ints (hop : op ≠ .div) (a b : Int64) :
    op.widens (.int a) (.int b) = (op.exactInt? a b).isNone := by
  cases op with
  | div => exact absurd rfl hop
  | add => rfl
  | mul => rfl

/-! ### The forms of a strategy

    The tables hold strategies of four forms only. What follows is about the
    forms and hardly looks at a table again. -/

/-- What the integer strategy says about two integers. -/
def onInts (op : Operator) (a b : Int64) : Attempt EvalResult :=
  match op.exactInt? a b with
  | some n => .done (.ok (.int n))
  | none =>
    if op = .div then .done (.ok (.float (op.onFloats (nearestFloat a) (nearestFloat b))))
    else .retire

theorem onInts_exact {a b n : Int64} (h : op.exactInt? a b = some n) :
    op.onInts a b = .done (.ok (.int n)) := by
  unfold onInts
  rw [h]

theorem onInts_division {a b : Int64} (hop : op = .div) (h : op.exactInt? a b = none) :
    op.onInts a b = .done (.ok (.float (op.onFloats (nearestFloat a) (nearestFloat b)))) := by
  unfold onInts
  rw [h]
  exact if_pos hop

theorem onInts_retire {a b : Int64} (hop : op ≠ .div) (h : op.exactInt? a b = none) :
    op.onInts a b = .retire := by
  unfold onInts
  rw [h]
  exact if_neg hop

/-- The form of the strategy at an index of the operator's table. -/
inductive Form (op : Operator) (index : Nat) (strategy : OperandStrategy) : Prop where
  /-- Two integers, exactly. -/
  | ints (position : index = 0)
      (guard : strategy.guard = isInts)
      (body : ∀ names a b, strategy.body ⟨[.int a, .int b], names⟩ = op.onInts a b)
      (replaces : strategy.replaces = 0)
  /-- Two numbers that are not both integers. -/
  | mixed (position : 0 < index ∧ (op ≠ .div → index < 3))
      (guard : ∀ names left right, strategy.guard ⟨[left, right], names⟩ = true →
        op.widens left right = false ∧ ∀ a b, left = .int a → right ≠ .int b)
      (body : strategy.body = onNumbers op.onFloats)
      (replaces : strategy.replaces = 0)
  /-- Any two numbers, at a node that widens. -/
  | general (position : index = 3) (adaptive : op ≠ .div)
      (body : strategy.body = onNumbers op.onFloats)
      (replaces : strategy.replaces = Mask.bit 0)
  /-- Operands that are not both numbers. -/
  | others (position : 3 < index)
      (body : ∀ names left right, strategy.guard ⟨[left, right], names⟩ = true →
        ¬ Numbers left right ∧
        strategy.body ⟨[left, right], names⟩ = .done (op.onOthers names left right))
      (replaces : strategy.replaces = 0)

theorem Form.ofFloatInt {index : Nat} {strategy : OperandStrategy}
    (position : 0 < index ∧ (op ≠ .div → index < 3)) (guard : strategy.guard = isFloatInt)
    (body : strategy.body = onNumbers op.onFloats) (replaces : strategy.replaces = 0) :
    op.Form index strategy := by
  refine .mixed position ?_ body replaces
  intro names left right hg
  rw [guard] at hg
  obtain ⟨x, b, rfl, rfl⟩ := isFloatInt_iff.mp hg
  exact ⟨by cases op <;> rfl, fun _ _ hleft => by cases hleft⟩

theorem Form.ofIntFloat {index : Nat} {strategy : OperandStrategy}
    (position : 0 < index ∧ (op ≠ .div → index < 3)) (guard : strategy.guard = isIntFloat)
    (body : strategy.body = onNumbers op.onFloats) (replaces : strategy.replaces = 0) :
    op.Form index strategy := by
  refine .mixed position ?_ body replaces
  intro names left right hg
  rw [guard] at hg
  obtain ⟨a, y, rfl, rfl⟩ := isIntFloat_iff.mp hg
  exact ⟨by cases op <;> rfl, fun _ _ _ hright => by cases hright⟩

/-- An empty text or list needs no copy, so the limit is never in its way. -/
theorem repeatCount_map (unit : Nat) (count : Int64) (measure : String) (copies : Nat → Value)
    (hempty : unit = 0 → ∀ n, copies n = copies 0) :
    (repeatCount unit count measure).map copies = repetition unit count measure copies := by
  unfold repeatCount repetition
  by_cases hneg : count.toInt < 0
  · rw [if_pos hneg, if_pos hneg]; rfl
  · rw [if_neg hneg, if_neg hneg]
    by_cases hunit : unit = 0
    · have hsize : ¬ maxRepeated < count.toInt.toNat * unit := by
        rw [hunit, Nat.mul_zero]
        exact Nat.not_lt_zero _
      rw [if_pos hunit, if_neg hsize, hempty hunit count.toInt.toNat]; rfl
    · rw [if_neg hunit]
      by_cases hsize : maxRepeated < count.toInt.toNat * unit
      · rw [if_pos hsize, if_pos hsize]; rfl
      · rw [if_neg hsize, if_neg hsize]; rfl

theorem repeatText_empty {text : String} (h : text.utf8ByteSize = 0) (n : Nat) :
    repeatText text n = repeatText text 0 := by
  have htext : text = "" := String.utf8ByteSize_eq_zero_iff.mp h
  subst htext
  unfold repeatText
  induction n with
  | zero => rfl
  | succ n ih =>
    rw [List.replicate_succ, String.join_cons, ih]
    rfl

theorem repeatItems_empty {items : List Value} (h : items.length = 0) (n : Nat) :
    repeatItems items n = repeatItems items 0 := by
  have hitems : items = [] := List.length_eq_zero_iff.mp h
  subst hitems
  unfold repeatItems
  simp

/-- Making an integer of an exact result. -/
theorem int64?_exact {a b : Int64} {n : Int} (h : op.integral? a.toInt b.toInt = some n) :
    int64? n = op.exactInt? a b := by
  rw [int64?_eq, exactInt?, h]

/-- Truncating division is exact where there is an exact quotient. -/
theorem quotient?_eq (a b : Int64) : quotient? a b = div.exactInt? a b := by
  unfold quotient?
  by_cases hdvd : b.toInt ≠ 0 ∧ b.toInt ∣ a.toInt
  · rw [if_pos ⟨hdvd.1, Int.dvd_iff_tmod_eq_zero.mp hdvd.2⟩, Int.tdiv_eq_ediv_of_dvd hdvd.2]
    exact int64?_exact (if_pos hdvd)
  · have hnone : div.integral? a.toInt b.toInt = none := if_neg hdvd
    rw [if_neg fun h => hdvd ⟨h.1, Int.dvd_iff_tmod_eq_zero.mpr h.2⟩, exactInt?, hnone]

/-- Every strategy of a table has one of the four forms. -/
theorem form_of_entry {index : Nat} {strategy : OperandStrategy}
    (h : op.strategies[index]? = some strategy) : op.Form index strategy := by
  have hlt : index < op.strategies.length := (List.getElem?_eq_some_iff.mp h).1
  -- the only look at the tables: one bullet for each entry, in order
  cases op with
  | add =>
    have hindex : index < 8 := hlt
    interval_cases index <;> cases h
    · refine .ints rfl rfl ?_ rfl
      intro names a b
      have hexact : int64? (a.toInt + b.toInt) = add.exactInt? a b := int64?_exact rfl
      simp only [checkedInts, ints?, onInts, hexact]
      cases add.exactInt? a b <;> rfl
    · exact .ofFloatInt (by omega) rfl rfl rfl
    · exact .ofIntFloat (by omega) rfl rfl rfl
    · exact .general rfl (by decide) rfl rfl
    · refine .others (by omega) ?_ rfl
      intro names left right hg
      obtain ⟨a, b, rfl, rfl⟩ := isStrs_iff.mp hg
      refine ⟨?_, rfl⟩
      intro hnumbers
      cases hnumbers
    · refine .others (by omega) ?_ rfl
      intro names left right hg
      obtain ⟨a, b, rfl, rfl⟩ := isStrInt_iff.mp hg
      refine ⟨?_, rfl⟩
      intro hnumbers
      cases hnumbers
    · refine .others (by omega) ?_ rfl
      intro names left right hg
      obtain ⟨a, b, rfl, rfl⟩ := isIntStr_iff.mp hg
      refine ⟨?_, rfl⟩
      intro hnumbers
      cases hnumbers
    · refine .others (by omega) ?_ rfl
      intro names left right hg
      have htext : (left.isStr || right.isStr) = true := (hasStr_iff names).mp hg
      exact ⟨not_numbers_of_text htext, by simp [concatDisplayed, onOthers, htext]⟩
  | mul =>
    have hindex : index < 6 := hlt
    interval_cases index <;> cases h
    · refine .ints rfl rfl ?_ rfl
      intro names a b
      have hexact : int64? (a.toInt * b.toInt) = mul.exactInt? a b := int64?_exact rfl
      simp only [checkedInts, ints?, onInts, hexact]
      cases mul.exactInt? a b <;> rfl
    · exact .ofFloatInt (by omega) rfl rfl rfl
    · exact .ofIntFloat (by omega) rfl rfl rfl
    · exact .general rfl (by decide) rfl rfl
    · refine .others (by omega) ?_ rfl
      intro names left right hg
      obtain ⟨text, count, rfl, rfl⟩ := isStrInt_iff.mp hg
      refine ⟨(fun hnumbers => by cases hnumbers), ?_⟩
      refine congrArg Attempt.done (repeatCount_map _ _ _ _ ?_)
      intro hunit n
      rw [repeatText_empty hunit n]
    · refine .others (by omega) ?_ rfl
      intro names left right hg
      obtain ⟨items, count, rfl, rfl⟩ := isListInt_iff.mp hg
      refine ⟨(fun hnumbers => by cases hnumbers), ?_⟩
      refine congrArg Attempt.done (repeatCount_map _ _ _ _ ?_)
      intro hunit n
      rw [repeatItems_empty hunit n]
  | div =>
    have hindex : index < 4 := hlt
    interval_cases index <;> cases h
    · refine .ints rfl rfl ?_ rfl
      intro names a b
      simp only [divideInts, ints?, onInts, quotient?_eq, widen_eq_nearestFloat]
      cases div.exactInt? a b <;> rfl
    · exact .ofFloatInt (by omega) rfl rfl rfl
    · exact .ofIntFloat (by omega) rfl rfl rfl
    · refine .mixed ⟨by omega, absurd rfl⟩ ?_ rfl rfl
      intro names left right hg
      obtain ⟨x, y, rfl, rfl⟩ := isFloats_iff.mp hg
      exact ⟨rfl, fun _ _ hleft => by cases hleft⟩

/-! ### The invariant of a node -/

/-- The state of a node's site is what its history bit says: the integer
strategy is excluded once the node has widened, nothing else ever is, and
the cursor stands at the general strategy only at a node that has widened. -/
structure Adapted (op : Operator) (wide : Bool) (s : Site) : Prop where
  cursor_lt : ∀ c, s.cursor = some c → c < 32
  excluded : ∀ j, s.isExcluded j = true ↔ wide = true ∧ j = 0
  general : op ≠ .div → s.cursor = some 3 → wide = true
  division : op = .div → wide = false

theorem adapted_fresh (op : Operator) : op.Adapted false .fresh where
  cursor_lt _ hc := by cases hc
  excluded j := by simp [Site.isExcluded, Site.fresh]
  general _ hc := by cases hc
  division _ := rfl

variable {s : Site}

/-! What an adapted node's strategies say, for the operands of each type. -/

/-- An open strategy is asked. -/
theorem Adapted.consult_eq (hs : op.Adapted wide s) (index : Nat) {strategy : OperandStrategy}
    (hentry : op.strategies[index]? = some strategy) (hopen : wide = true → index ≠ 0)
    (hguard : strategy.guard ⟨[left, right], names⟩ = true) :
    s.consult op.strategies ⟨[left, right], names⟩ index =
      some (strategy.body ⟨[left, right], names⟩) := by
  rw [Site.consult_of_some _ _ hentry, hguard]
  have hclosed : ¬ s.isExcluded index = true := by
    rw [hs.excluded]
    exact fun h => hopen h.1 h.2
  simp [hclosed]

theorem Adapted.consult_ints (hs : op.Adapted false s) (names : ClassNames) (a b : Int64) :
    s.consult op.strategies ⟨[.int a, .int b], names⟩ 0 = some (op.onInts a b) := by
  have hpos : 0 < op.strategies.length := by cases op <;> decide
  have hentry : op.strategies[0]? = some op.strategies[0] := List.getElem?_eq_getElem hpos
  cases form_of_entry hentry with
  | ints _ guard body _ =>
    rw [← body names a b]
    refine hs.consult_eq 0 hentry (fun hwide => by cases hwide) ?_
    rw [guard]
    exact isInts_iff.mpr ⟨a, b, rfl, rfl⟩
  | mixed position => omega
  | general position => omega
  | others position => omega

theorem Adapted.consult_floatInt (hs : op.Adapted wide s) (names : ClassNames) (x : Float)
    (b : Int64) :
    s.consult op.strategies ⟨[.float x, .int b], names⟩ 1 =
      some (.done (.ok (.float (op.onFloats x (nearestFloat b))))) := by
  rw [← widen_eq_nearestFloat]
  cases op <;> exact hs.consult_eq 1 rfl (by omega) rfl

theorem Adapted.consult_intFloat (hs : op.Adapted wide s) (names : ClassNames) (a : Int64)
    (y : Float) :
    s.consult op.strategies ⟨[.int a, .float y], names⟩ 2 =
      some (.done (.ok (.float (op.onFloats (nearestFloat a) y)))) := by
  rw [← widen_eq_nearestFloat]
  cases op <;> exact hs.consult_eq 2 rfl (by omega) rfl

theorem Adapted.consult_floats (hs : op.Adapted wide s) (names : ClassNames) (x y : Float) :
    s.consult op.strategies ⟨[.float x, .float y], names⟩ 3 =
      some (.done (.ok (.float (op.onFloats x y)))) := by
  cases op <;> exact hs.consult_eq 3 rfl (by omega) rfl

/-- The general strategy takes two integers too. -/
theorem Adapted.consult_general (hs : op.Adapted wide s) (hop : op ≠ .div) (names : ClassNames)
    (a b : Int64) :
    s.consult op.strategies ⟨[.int a, .int b], names⟩ 3 =
      some (.done (.ok (.float (op.onFloats (nearestFloat a) (nearestFloat b))))) := by
  rw [← widen_eq_nearestFloat, ← widen_eq_nearestFloat]
  cases op with
  | div => exact absurd rfl hop
  | add => exact hs.consult_eq 3 rfl (by omega) rfl
  | mul => exact hs.consult_eq 3 rfl (by omega) rfl

/-- Some strategy answers two numbers. -/
theorem Adapted.answers_numbers (hs : op.Adapted wide s) (names : ClassNames)
    (h : Numbers left right) :
    ∃ index result, s.consult op.strategies ⟨[left, right], names⟩ index =
      some (.done result) := by
  cases h with
  | intFloat a y => exact ⟨2, _, hs.consult_intFloat names a y⟩
  | floatInt x b => exact ⟨1, _, hs.consult_floatInt names x b⟩
  | floats x y => exact ⟨3, _, hs.consult_floats names x y⟩
  | ints a b =>
    by_cases hop : op = .div
    · -- a division never widens, and its integer strategy never retires
      have hwide := hs.division hop
      subst hwide hop
      have hints := hs.consult_ints names a b
      cases hn : div.exactInt? a b with
      | some n => exact ⟨0, _, by rw [hints, onInts_exact hn]⟩
      | none => exact ⟨0, _, by rw [hints, onInts_division rfl hn]⟩
    · exact ⟨3, _, hs.consult_general hop names a b⟩

/-! ### What an answer tells -/

/-- An answer is the rule's, if it is not the general strategy's for two
integers with an exact result at a node that has not widened. -/
theorem Adapted.answer_eq_rule (hs : op.Adapted wide s) {index : Nat} {result : EvalResult}
    (h : s.consult op.strategies ⟨[left, right], names⟩ index = some (.done result))
    (hgeneral : op ≠ .div → index = 3 → ∀ a b n, left = .int a → right = .int b →
      op.exactInt? a b = some n → wide = true) :
    result = op.rule wide names left right := by
  obtain ⟨strategy, hentry, hopen, hguard, hbody⟩ := Site.consult_eq_some h
  -- the two numeric forms run the same body
  have hnumeric : strategy.body = onNumbers op.onFloats →
      (∀ a b n, left = .int a → right = .int b → op.exactInt? a b = some n → wide = true) →
      result = op.rule wide names left right := by
    intro body hexact
    rw [body] at hbody
    rcases onNumbers_cases op.onFloats names left right with hnumbers | hdecline
    · rw [onNumbers_eq_rule hnumbers hexact] at hbody
      cases hbody
      rfl
    · rw [hdecline] at hbody
      cases hbody
  cases form_of_entry hentry with
  | ints position guard body _ =>
    rw [guard] at hguard
    obtain ⟨a, b, rfl, rfl⟩ := isInts_iff.mp hguard
    -- the integer strategy is open, so the node has not widened
    have hwide : wide = false := by
      cases hw : wide with
      | false => rfl
      | true =>
        rw [(hs.excluded index).mpr ⟨hw, position⟩] at hopen
        cases hopen
    rw [body] at hbody
    cases hn : op.exactInt? a b with
    | some n =>
      rw [onInts_exact hn] at hbody
      cases hbody
      simp [rule, hwide, hn]
    | none =>
      by_cases hop : op = .div
      · rw [onInts_division hop hn] at hbody
        cases hbody
        simp [rule, hwide, hn]
      · rw [onInts_retire hop hn] at hbody
        cases hbody
  | mixed _ guard body _ =>
    refine hnumeric body ?_
    intro a b n ha hb _
    exact absurd hb ((guard names left right hguard).2 a b ha)
  | general position adaptive body _ => exact hnumeric body (hgeneral adaptive position)
  | others _ body _ =>
    obtain ⟨hnumbers, hdone⟩ := body names left right hguard
    rw [hdone] at hbody
    cases hbody
    exact (rule_others hnumbers).symm

/-- Operands that widen are answered by the general strategy alone. -/
theorem index_of_widens {index : Nat} {result : EvalResult} (hw : op.widens left right = true)
    (h : s.consult op.strategies ⟨[left, right], names⟩ index = some (.done result)) :
    index = 3 := by
  obtain ⟨hop, hnumbers⟩ := numbers_of_widens hw
  obtain ⟨strategy, hentry, _, hguard, hbody⟩ := Site.consult_eq_some h
  cases form_of_entry hentry with
  | ints _ guard body _ =>
    rw [guard] at hguard
    obtain ⟨a, b, rfl, rfl⟩ := isInts_iff.mp hguard
    rw [widens_ints hop, Option.isNone_iff_eq_none] at hw
    rw [body, onInts_retire hop hw] at hbody
    cases hbody
  | mixed _ guard _ _ =>
    rw [(guard names left right hguard).1] at hw
    cases hw
  | general position _ _ _ => exact position
  | others _ body _ => exact absurd hnumbers (body names left right hguard).1

/-- Only the integer strategy retires, on operands that widen. -/
theorem widens_of_retire {j : Nat}
    (h : s.consult op.strategies ⟨[left, right], names⟩ j = some .retire) :
    j = 0 ∧ op.widens left right = true := by
  obtain ⟨strategy, hentry, _, hguard, hbody⟩ := Site.consult_eq_some h
  have hnumeric : onNumbers op.onFloats ⟨[left, right], names⟩ ≠ .retire := by
    unfold onNumbers
    split <;> simp
  cases form_of_entry hentry with
  | ints position guard body _ =>
    rw [guard] at hguard
    obtain ⟨a, b, rfl, rfl⟩ := isInts_iff.mp hguard
    rw [body] at hbody
    cases hn : op.exactInt? a b with
    | some n => rw [onInts_exact hn] at hbody; cases hbody
    | none =>
      by_cases hop : op = .div
      · rw [onInts_division hop hn] at hbody
        cases hbody
      · exact ⟨position, by rw [widens_ints hop, hn]; rfl⟩
  | mixed _ _ body _ => exact absurd (body ▸ hbody) hnumeric
  | general _ _ body _ => exact absurd (body ▸ hbody) hnumeric
  | others _ body _ =>
    rw [(body names left right hguard).2] at hbody
    cases hbody

/-- The general strategy is the first with an answer only for operands that
widen, or at a node that has widened. -/
theorem Adapted.wide_of_first (hs : op.Adapted wide s) (hop : op ≠ .div) {result : EvalResult}
    (h : Site.IsFirst op.strategies ⟨[left, right], names⟩ s 0 3 result) :
    (wide || op.widens left right) = true := by
  obtain ⟨strategy, hentry, _, _, hbody⟩ := Site.consult_eq_some h.answers
  -- the strategy at this index is the general one, which takes numbers only
  have hnumbers : Numbers left right := by
    cases form_of_entry hentry with
    | ints position => omega
    | mixed position => exact absurd (position.2 hop) (by omega)
    | general _ _ body =>
      rcases onNumbers_cases op.onFloats names left right with hnumbers | hdecline
      · exact hnumbers
      · rw [body, hdecline] at hbody
        cases hbody
    | others position => omega
  -- a mixed pair is answered by a strategy before it
  cases hnumbers with
  | intFloat a y =>
    exact absurd (hs.consult_intFloat names a y) (h.least 2 (by omega) (by omega) _)
  | floatInt x b =>
    exact absurd (hs.consult_floatInt names x b) (h.least 1 (by omega) (by omega) _)
  | floats x y => cases op <;> first | exact absurd rfl hop | exact Bool.or_true _
  | ints a b =>
    cases wide with
    | true => rfl
    | false =>
      -- an exact result would have been the integer strategy's answer
      have hints := hs.consult_ints names a b
      cases hn : op.exactInt? a b with
      | some n =>
        rw [onInts_exact hn] at hints
        exact absurd hints (h.least 0 (by omega) (by omega) _)
      | none => rw [widens_ints hop, hn]; rfl

/-- Operands that no strategy answers are unsupported. -/
theorem Adapted.rule_of_silent (hs : op.Adapted wide s)
    (h : Site.Silent op.strategies ⟨[left, right], names⟩ s 0) :
    op.rule wide names left right =
      .error (.unsupportedOperands names op.symbol [left, right]) := by
  have hnumbers : ¬ Numbers left right := by
    intro hnumbers
    obtain ⟨index, result, hanswer⟩ := hs.answers_numbers names hnumbers
    exact h index (Nat.zero_le _) result hanswer
  rw [rule_others hnumbers]
  -- what is left of each operator's table would have answered its operands
  cases op with
  | add =>
    have htext : ¬ (left.isStr || right.isStr) = true := by
      intro htext
      refine h 7 (Nat.zero_le _) _ (hs.consult_eq 7 rfl (by omega) ?_)
      exact (hasStr_iff names).mpr htext
    simp [onOthers, htext]
  | mul =>
    cases left <;> cases right <;> try rfl
    case str.int text count =>
      exact absurd (hs.consult_eq 4 rfl (by omega) rfl) (h 4 (Nat.zero_le _) _)
    case list.int items count =>
      exact absurd (hs.consult_eq 5 rfl (by omega) rfl) (h 5 (Nat.zero_le _) _)
  | div => rfl

/-! ### One application -/

theorem take_strategies (op : Operator) : op.strategies.take maxStrategies = op.strategies := by
  cases op <;> rfl

/-- What the strategy that is activated replaces. -/
theorem replaces_iff {index j : Nat} {strategy : OperandStrategy}
    (h : op.strategies[index]? = some strategy) :
    strategy.replaces.getLsbD j = true ↔ (op ≠ .div ∧ index = 3) ∧ j = 0 := by
  have hempty : strategy.replaces = 0 → ¬ (op ≠ .div ∧ index = 3) →
      (strategy.replaces.getLsbD j = true ↔ (op ≠ .div ∧ index = 3) ∧ j = 0) := by
    intro hzero hindex
    simp [hzero, hindex]
  cases form_of_entry h with
  | ints position _ _ replaces => exact hempty replaces (by omega)
  | mixed position _ _ replaces =>
    refine hempty replaces ?_
    intro hgeneral
    have := position.2 hgeneral.1
    omega
  | general position adaptive _ replaces =>
    rw [replaces, Mask.getLsbD_bit]
    simp [adaptive, position, eq_comm]
  | others position _ replaces => exact hempty replaces (by omega)

theorem Adapted.widens_division (hs : op.Adapted wide s) (hop : op = .div) :
    (wide || op.widens left right) = false := by
  rw [hs.division hop, hop]
  rfl

/-- A node whose remembered strategy answers stays as it is. -/
theorem Adapted.remembered (hs : op.Adapted wide s) {index : Nat} {result : EvalResult}
    (cursor : s.cursor = some index)
    (answers : s.consult op.strategies ⟨[left, right], names⟩ index = some (.done result)) :
    result = op.rule wide names left right ∧ op.Adapted (wide || op.widens left right) s := by
  have hwide : op ≠ .div → index = 3 → wide = true := by
    intro hop hindex
    exact hs.general hop (hindex ▸ cursor)
  refine ⟨hs.answer_eq_rule answers ?_, ?_⟩
  · intro hop hindex _ _ _ _ _ _
    exact hwide hop hindex
  · -- a node that remembers the general strategy has widened before
    have hsame : (wide || op.widens left right) = wide := by
      cases hw : op.widens left right with
      | false => exact Bool.or_false _
      | true =>
        have hindex := index_of_widens hw answers
        rw [hwide (numbers_of_widens hw).1 hindex]
        rfl
    rw [hsame]
    exact hs

/-- A node whose first strategy with an answer is activated. -/
theorem Adapted.found (hs : op.Adapted wide s) {index : Nat} {strategy : OperandStrategy}
    {result : EvalResult} {s' : Site}
    (first : Site.IsFirst op.strategies ⟨[left, right], names⟩ s 0 index result)
    (entry : op.strategies[index]? = some strategy) (cursor : s'.cursor = some index)
    (excluded : ∀ j, s'.isExcluded j = true ↔ s.isExcluded j = true ∨
      ((j < index ∨ s.cursor = some j) ∧
        s.consult op.strategies ⟨[left, right], names⟩ j = some .retire) ∨
      strategy.replaces.getLsbD j = true) :
    result = op.rule wide names left right ∧ op.Adapted (wide || op.widens left right) s' := by
  have hwide : op ≠ .div → index = 3 → (wide || op.widens left right) = true := by
    intro hop hindex
    subst hindex
    exact hs.wide_of_first hop first
  refine ⟨hs.answer_eq_rule first.answers ?_, ?_, ?_, ?_, hs.widens_division⟩
  · -- operands with an exact result do not widen, so the node had before
    intro hop hindex a b n ha hb hn
    have hnow := hwide hop hindex
    rw [ha, hb, widens_ints hop, hn] at hnow
    simpa using hnow
  · intro c hc
    rw [cursor] at hc
    cases hc
    have hlt := (List.getElem?_eq_some_iff.mp entry).1
    have hlength : op.strategies.length ≤ 8 := by cases op <;> decide
    omega
  · -- the mask gains the integer strategy, by its retiring or by its being
    -- replaced, exactly when the operands widen
    intro j
    rw [excluded j, hs.excluded j, replaces_iff entry]
    constructor
    · intro hcase
      rcases hcase with ⟨hw, hj⟩ | ⟨_, hretire⟩ | ⟨hgeneral, hj⟩
      · exact ⟨by rw [hw]; rfl, hj⟩
      · obtain ⟨hj, hw⟩ := widens_of_retire hretire
        exact ⟨by rw [hw]; exact Bool.or_true _, hj⟩
      · exact ⟨hwide hgeneral.1 hgeneral.2, hj⟩
    · intro hcase
      obtain ⟨hw, hj⟩ := hcase
      rcases (Bool.or_eq_true _ _).mp hw with hw | hw
      · exact .inl ⟨hw, hj⟩
      · have hindex := index_of_widens hw first.answers
        exact .inr (.inr ⟨⟨(numbers_of_widens hw).1, hindex⟩, hj⟩)
  · intro hop hc
    rw [cursor] at hc
    exact hwide hop (Option.some.inj hc)

/-- A node that no strategy answers at: the operands are unsupported. -/
theorem Adapted.missed (hs : op.Adapted wide s) {s' : Site}
    (silent : Site.Silent op.strategies ⟨[left, right], names⟩ s 0) (cursor : s'.cursor = s.cursor)
    (excluded : ∀ j, s'.isExcluded j = true ↔ s.isExcluded j = true ∨
      s.consult op.strategies ⟨[left, right], names⟩ j = some .retire) :
    .error (.unsupportedOperands names op.symbol [left, right]) =
        op.rule wide names left right ∧
      op.Adapted (wide || op.widens left right) s' := by
  -- operands that widen would have had an answer
  have hsame : op.widens left right = false := by
    cases hw : op.widens left right with
    | false => rfl
    | true =>
      obtain ⟨index, result, hanswer⟩ := hs.answers_numbers names (numbers_of_widens hw).2
      exact absurd hanswer (silent index (Nat.zero_le _) result)
  refine ⟨(hs.rule_of_silent silent).symm, ?_⟩
  rw [hsame, Bool.or_false]
  refine ⟨?_, ?_, ?_, hs.division⟩
  · rw [cursor]
    exact hs.cursor_lt
  · intro j
    rw [excluded j, ← hs.excluded j]
    refine ⟨?_, .inl⟩
    intro hcase
    rcases hcase with h | hretire
    · exact h
    · have hw := (widens_of_retire hretire).2
      rw [hsame] at hw
      cases hw
  · rw [cursor]
    exact hs.general

/-- The step lemma: an application at an adapted node answers by the rule
and leaves the node adapted, with its history bit brought up to date. -/
theorem Adapted.evaluate (hs : op.Adapted wide s) (names : ClassNames) (left right : Value) :
    (op.evaluate names left right s).1 = op.rule wide names left right ∧
      op.Adapted (wide || op.widens left right) (op.evaluate names left right s).2 := by
  have hstep := Site.dispatch_dispatched op.strategies ⟨[left, right], names⟩ s hs.cursor_lt
  rw [take_strategies] at hstep
  unfold Operator.evaluate
  generalize s.dispatch op.strategies ⟨[left, right], names⟩ = out at hstep
  cases hstep with
  | remembered cursor answers => exact hs.remembered cursor answers
  | found _ first entry cursor excluded => exact hs.found first entry cursor excluded
  | missed silent cursor excluded => exact hs.missed silent cursor excluded

/-! ### Any number of applications -/

/-- One application of an operator: the operands, and the class names of the
objects at that time. -/
structure Application where
  names : ClassNames
  left : Value
  right : Value

/-- The answers of a site to applications in order. -/
def resultsFrom (op : Operator) (site : Site) : List Application → List EvalResult
  | [] => []
  | a :: as =>
    let (result, site) := op.evaluate a.names a.left a.right site
    result :: op.resultsFrom site as

/-- The answers of a new node to applications in order. -/
def results (op : Operator) (as : List Application) : List EvalResult := op.resultsFrom .fresh as

/-- Whether a node has widened after some applications. -/
def widened (op : Operator) (as : List Application) : Bool :=
  as.any fun a => op.widens a.left a.right

theorem resultsFrom_eq_rule (as : List Application) (hs : op.Adapted wide s) (i : Nat) :
    (op.resultsFrom s as)[i]? = as[i]?.map fun a =>
      op.rule (wide || op.widened (as.take i)) a.names a.left a.right := by
  -- the bit of the invariant is the bit of the applications already made
  induction as generalizing wide s i with
  | nil => rfl
  | cons a as ih =>
    obtain ⟨hresult, hnext⟩ := hs.evaluate a.names a.left a.right
    cases i with
    | zero => simp [resultsFrom, hresult, widened]
    | succ i =>
      have htail := ih hnext i
      simpa [resultsFrom, widened, Bool.or_assoc] using htail

/-- A node that is applied any number of times answers by the rule every
time: its answers depend on its history only through the bit that says
whether an earlier application has widened it. -/
theorem results_eq_rule (op : Operator) (as : List Application) (i : Nat) :
    (op.results as)[i]? = as[i]?.map fun a =>
      op.rule (op.widened (as.take i)) a.names a.left a.right := by
  have h := resultsFrom_eq_rule as (adapted_fresh op) i
  simpa [results] using h

/-! ### Nodes in use -/

/-- Applications to pairs of operands, with no object among them. -/
def applications (pairs : List (Value × Value)) : List Application :=
  pairs.map fun pair => ⟨fun _ => "", pair.1, pair.2⟩

/-- A node of `+` that meets a sum of `2 ^ 63` makes floats of later sums too, and
so does a node of `*` that meets two floats. A node of `/` makes an integer
wherever the quotient is one and fits. -/
theorem results_widening :
    add.results (applications [(.int 1, .int 2), (.int 9223372036854775807, .int 1),
        (.int 1, .int 2), (.int 1, .str "a")]) =
      [.ok (.int 3), .ok (.float (.ofBits 0x43e0000000000000)),
        .ok (.float (.ofBits 0x4008000000000000)), .ok (.str "1a")] ∧
    mul.results (applications [(.int 6, .int 7), (.float (.ofBits 0x3ff8000000000000),
        .float (.ofBits 0x4000000000000000)), (.int 6, .int 7), (.str "ab", .int 2)]) =
      [.ok (.int 42), .ok (.float (.ofBits 0x4008000000000000)),
        .ok (.float (.ofBits 0x4045000000000000)), .ok (.str "abab")] ∧
    div.results (applications [(.int 6, .int (-3)), (.int 7, .int 2),
        (.int (-9223372036854775808), .int (-1)), (.int 6, .int (-3))]) =
      [.ok (.int (-2)), .ok (.float (.ofBits 0x400c000000000000)),
        .ok (.float (.ofBits 0x43e0000000000000)), .ok (.int (-2))] := by
  have hlarge : nearestFloat 9223372036854775807 + nearestFloat 1 =
      .ofBits 0x43e0000000000000 := by decide +kernel
  have hthree : nearestFloat 1 + nearestFloat 2 = .ofBits 0x4008000000000000 := by decide +kernel
  have hfloats : Float.ofBits 0x3ff8000000000000 * .ofBits 0x4000000000000000 =
      .ofBits 0x4008000000000000 := by decide +kernel
  have hproduct : nearestFloat 6 * nearestFloat 7 = .ofBits 0x4045000000000000 := by
    decide +kernel
  have hhalf : nearestFloat 7 / nearestFloat 2 = .ofBits 0x400c000000000000 := by decide +kernel
  have hleast : nearestFloat (-9223372036854775808) / nearestFloat (-1) =
      .ofBits 0x43e0000000000000 := by decide +kernel
  refine ⟨List.ext_getElem? fun i => ?_, List.ext_getElem? fun i => ?_,
    List.ext_getElem? fun i => ?_⟩
  · rw [results_eq_rule, ← hlarge, ← hthree]
    match i with
    | 0 => rfl
    | 1 => rfl
    | 2 => rfl
    | 3 => rfl
    | _ + 4 => rfl
  · rw [results_eq_rule, ← hfloats, ← hproduct]
    match i with
    | 0 => rfl
    | 1 => rfl
    | 2 => rfl
    | 3 => rfl
    | _ + 4 => rfl
  · rw [results_eq_rule, ← hhalf, ← hleast]
    match i with
    | 0 => rfl
    | 1 => rfl
    | 2 => rfl
    | 3 => rfl
    | _ + 4 => rfl

end Operator

end AdaptiveScript
