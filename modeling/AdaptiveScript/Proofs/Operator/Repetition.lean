import AdaptiveScript.Proofs.Operator.Rule
import Mathlib.Data.List.Induction

/-! # Repetition

  A node of `*` repeats texts and lists. Whatever it has been applied to
  before, the outcome depends on the repeated value and the count alone
  (`Operator.repetition_exact`):

  - a negative count is refused first, also where there is nothing to repeat;
  - a result of more than `maxRepeated` bytes or elements is refused, and the
    error has the exact size;
  - any other result is made, and it is that many copies one after the other.

  The size is a product that 64 bits do not always hold. Computed in 128 bits it
  is exact, and once it is within the limit the count fits in a machine word
  (`repeatCountInWords_eq`).
-/

namespace AdaptiveScript

/-! ### Copies -/

theorem repeatItems_succ (items : List Value) (n : Nat) :
    repeatItems items (n + 1) = items ++ repeatItems items n := by
  unfold repeatItems
  rw [List.replicate_succ, List.flatten_cons]

theorem length_repeatItems (items : List Value) (n : Nat) :
    (repeatItems items n).length = items.length * n := by
  induction n with
  | zero => rfl
  | succ n ih =>
    rw [repeatItems_succ, List.length_append, ih, Nat.mul_succ, Nat.add_comm]

/-- The copies are read round and round. -/
theorem getElem?_repeatItems (items : List Value) {n k : Nat} (hk : k < items.length * n) :
    (repeatItems items n)[k]? = items[k % items.length]? := by
  induction n generalizing k with
  | zero => omega
  | succ n ih =>
    rw [repeatItems_succ]
    by_cases hfirst : k < items.length
    · rw [List.getElem?_append_left hfirst, Nat.mod_eq_of_lt hfirst]
    · -- in a later copy: one copy less, at the same place of it
      have hrest : k - items.length < items.length * n := by
        rw [Nat.mul_succ] at hk
        omega
      have hplace : k % items.length = (k - items.length) % items.length :=
        Nat.mod_eq_sub_mod (by omega)
      rw [List.getElem?_append_right (by omega), ih hrest, hplace]

theorem repeatText_succ (text : String) (n : Nat) :
    repeatText text (n + 1) = text ++ repeatText text n := by
  unfold repeatText
  rw [List.replicate_succ, String.join_cons]

theorem toList_repeatText (text : String) (n : Nat) :
    (repeatText text n).toList = (List.replicate n text.toList).flatten := by
  induction n with
  | zero => rfl
  | succ n ih =>
    rw [repeatText_succ, String.toList_append, ih, List.replicate_succ, List.flatten_cons]

theorem utf8ByteSize_repeatText (text : String) (n : Nat) :
    (repeatText text n).utf8ByteSize = text.utf8ByteSize * n := by
  induction n with
  | zero => rfl
  | succ n ih =>
    rw [repeatText_succ, String.utf8ByteSize_append, ih, Nat.mul_succ, Nat.add_comm]

/-! ### The count in machine words -/

/-- How often something is to be repeated, worked out in machine words: the
product has 128 bits, and at the end the count becomes a word. There is nothing
where the product overflows or the count does not fit. -/
def repeatCountInWords (unit : USize) (count : Int64) (measure : String) :
    Option (Except EvalError Nat) :=
  if count.toInt < 0 then some (.error { kind := .negativeCount Operator.mul.symbol count })
  else if unit.toNat = 0 then some (.ok 0)
  else
    let wideCount := count.toBitVec.setWidth 128
    let wideUnit := unit.toBitVec.setWidth 128
    let size := (wideCount * wideUnit).toNat
    if wideCount.umulOverflow wideUnit then none
    else if maxRepeated < size then
      some (.error { kind := .sizeOutOfBounds Operator.mul.symbol size maxRepeated measure })
    else if count.toBitVec.toNat < USize.size then some (.ok count.toBitVec.toNat)
    else none

/-- The bits of a count that is not negative are those of its value. -/
theorem toNat_count {count : Int64} (h : 0 ≤ count.toInt) :
    count.toBitVec.toNat = count.toInt.toNat := by
  have hle : 0 ≤ count := Int64.le_iff_toInt_le.mpr h
  rw [Int64.toNat_toBitVec_of_le hle, Int64.toNat_toInt]

theorem toNat_wideCount {count : Int64} (h : 0 ≤ count.toInt) :
    (count.toBitVec.setWidth 128).toNat = count.toInt.toNat := by
  have hlt := count.toInt_lt
  rw [BitVec.toNat_setWidth, toNat_count h]
  omega

theorem toNat_wideUnit (unit : USize) : (unit.toBitVec.setWidth 128).toNat = unit.toNat := by
  have hlt := unit.toNat_lt_size
  have hsize := USize.size_le
  rw [BitVec.toNat_setWidth, USize.toNat_toBitVec]
  omega

/-- The product of a count and a unit has at most 127 bits. -/
theorem product_lt {count : Int64} (unit : USize) (h : 0 ≤ count.toInt) :
    count.toInt.toNat * unit.toNat < 2 ^ 128 := by
  have hcount : count.toInt.toNat < 2 ^ 63 := by
    have hlt := count.toInt_lt
    omega
  have hunit : unit.toNat < 2 ^ 64 := Nat.lt_of_lt_of_le unit.toNat_lt_size USize.size_le
  calc count.toInt.toNat * unit.toNat < 2 ^ 63 * 2 ^ 64 := Nat.mul_lt_mul'' hcount hunit
    _ < 2 ^ 128 := by decide

/-- No step in machine words fails, and they give what exact numbers do. -/
theorem repeatCountInWords_eq (unit : USize) (count : Int64) (measure : String) :
    repeatCountInWords unit count measure = some (repeatCount unit.toNat count measure) := by
  unfold repeatCountInWords repeatCount
  by_cases hneg : count.toInt < 0
  · simp [hneg]
  by_cases hunit : unit.toNat = 0
  · simp [hneg, hunit]
  have hcount := Int.not_lt.mp hneg
  have hlt := product_lt unit hcount
  have hoverflow :
      (count.toBitVec.setWidth 128).umulOverflow (unit.toBitVec.setWidth 128) = false := by
    unfold BitVec.umulOverflow
    rw [toNat_wideCount hcount, toNat_wideUnit]
    exact decide_eq_false (by omega)
  have hsize : (count.toBitVec.setWidth 128 * unit.toBitVec.setWidth 128).toNat =
      count.toInt.toNat * unit.toNat := by
    rw [BitVec.toNat_mul, toNat_wideCount hcount, toNat_wideUnit, Nat.mod_eq_of_lt hlt]
  simp only [if_neg hneg, if_neg hunit, hoverflow, hsize, toNat_count hcount]
  by_cases hlarge : maxRepeated < count.toInt.toNat * unit.toNat
  · simp only [if_pos hlarge]
    rfl
  · -- a unit of at least one makes the count no greater than the product
    have hle : count.toInt.toNat ≤ count.toInt.toNat * unit.toNat :=
      Nat.le_mul_of_pos_right _ (Nat.pos_of_ne_zero hunit)
    have hfits : count.toInt.toNat < USize.size := by
      have hword := USize.le_size
      unfold maxRepeated at hlarge
      omega
    simp only [if_neg hlarge, if_pos hfits]
    rfl

/-! ### A node of `*` -/

namespace Operator

/-- The site of a node that has been applied to some operands, in order. -/
def siteAfter (op : Operator) (as : List Application) : Site :=
  as.foldl (fun s a => (op.evaluate a.names a.left a.right s).2) .fresh

theorem adapted_siteAfter (op : Operator) (as : List Application) :
    op.Adapted (op.widened as) (op.siteAfter as) := by
  induction as using List.reverseRecOn with
  | nil => exact adapted_fresh op
  | append_singleton as a ih =>
    have hnext := (ih.evaluate a.names a.left a.right).2
    simpa [siteAfter, widened] using hnext

/-- What becomes of `count` copies of something that consists of `unit` bytes or
elements, where `copies n` is the value that `n` copies are. -/
structure Repeats (unit : Nat) (count : Int64) (measure : String) (copies : Nat → Value)
    (outcome : EvalResult) : Prop where
  /-- No negative number of copies, whatever the unit. -/
  negative : count.toInt < 0 → outcome = .error { kind := .negativeCount "*" count }
  /-- No more than the limit; the error tells how much it would have been. -/
  beyond : 0 ≤ count.toInt → maxRepeated < unit * count.toInt →
    outcome = .error
      { kind := .sizeOutOfBounds "*" (unit * count.toInt).toNat maxRepeated measure }
  /-- Everything else is made. -/
  within : 0 ≤ count.toInt → unit * count.toInt ≤ maxRepeated →
    outcome = .ok (copies count.toInt.toNat)

theorem repetition_repeats (unit : Nat) (count : Int64) (measure : String)
    (copies : Nat → Value) :
    Repeats unit count measure copies (repetition unit count measure copies) := by
  have hsize : 0 ≤ count.toInt →
      ((count.toInt.toNat * unit : Nat) : Int) = unit * count.toInt := by
    intro h
    rw [Int.natCast_mul, Int.toNat_of_nonneg h, Int.mul_comm]
  refine ⟨?_, ?_, ?_⟩
  · intro hneg
    simp only [repetition, if_pos hneg]
    rfl
  · intro hcount hbeyond
    have hexact := hsize hcount
    have hlarge : maxRepeated < count.toInt.toNat * unit := by omega
    have hvalue : (unit * count.toInt).toNat = count.toInt.toNat * unit := by omega
    simp only [repetition, if_neg (Int.not_lt.mpr hcount), if_pos hlarge, hvalue]
    rfl
  · intro hcount hwithin
    have hexact := hsize hcount
    have hsmall : ¬ maxRepeated < count.toInt.toNat * unit := by omega
    simp only [repetition, if_neg (Int.not_lt.mpr hcount), if_neg hsmall]

/-- Nothing that a node has been applied to stands between it and operands that
are not numbers. -/
theorem evaluate_siteAfter_others (op : Operator) (as : List Application) (names : ClassNames)
    {left right : Value} (h : ¬ Numbers left right) :
    (op.evaluate names left right (op.siteAfter as)).1 = op.onOthers names left right := by
  have hanswer := ((adapted_siteAfter op as).evaluate names left right).1
  rw [rule_others h] at hanswer
  exact hanswer

theorem list_repeats (as : List Application) (names : ClassNames) (items : List Value)
    (count : Int64) :
    Repeats items.length count "elements" (fun n => .list (repeatItems items n))
      (mul.evaluate names (.list items) (.int count) (mul.siteAfter as)).1 := by
  rw [evaluate_siteAfter_others mul as names (fun h => by cases h)]
  exact repetition_repeats _ _ _ _

theorem text_repeats (as : List Application) (names : ClassNames) (text : String)
    (count : Int64) :
    Repeats text.utf8ByteSize count "bytes" (fun n => .str (repeatText text n))
      (mul.evaluate names (.str text) (.int count) (mul.siteAfter as)).1 := by
  rw [evaluate_siteAfter_others mul as names (fun h => by cases h)]
  exact repetition_repeats _ _ _ _

/-- A node of `*`, whatever it has been applied to, repeats lists and texts
exactly and within the limit. The copies of a list are read round and round. An
empty list or text stays one. The arithmetic fits in machine words. -/
theorem repetition_exact (as : List Application) (names : ClassNames) (count : Int64) :
    let outcome := fun left => (mul.evaluate names left (.int count) (mul.siteAfter as)).1
    (∀ items,
      Repeats items.length count "elements" (fun n => .list (repeatItems items n))
          (outcome (.list items)) ∧
        ∀ n, (repeatItems items n).length = items.length * n ∧
          ∀ k < items.length * n, (repeatItems items n)[k]? = items[k % items.length]?) ∧
    (∀ text,
      Repeats text.utf8ByteSize count "bytes" (fun n => .str (repeatText text n))
          (outcome (.str text)) ∧
        ∀ n, (repeatText text n).utf8ByteSize = text.utf8ByteSize * n ∧
          (repeatText text n).toList = (List.replicate n text.toList).flatten) ∧
    (0 ≤ count.toInt → outcome (.list []) = .ok (.list []) ∧ outcome (.str "") = .ok (.str "")) ∧
    ∀ unit measure,
      repeatCountInWords unit count measure = some (repeatCount unit.toNat count measure) := by
  intro outcome
  refine ⟨?_, ?_, ?_, fun unit measure => repeatCountInWords_eq unit count measure⟩
  · intro items
    refine ⟨list_repeats as names items count, ?_⟩
    intro n
    exact ⟨length_repeatItems items n, fun k => getElem?_repeatItems items⟩
  · intro text
    refine ⟨text_repeats as names text count, ?_⟩
    intro n
    exact ⟨utf8ByteSize_repeatText text n, toList_repeatText text n⟩
  · intro hcount
    constructor
    · have hmade := (list_repeats as names [] count).within hcount (by simp)
      rw [repeatItems_empty rfl] at hmade
      exact hmade
    · have hmade := (text_repeats as names "" count).within hcount (by simp)
      rw [repeatText_empty rfl] at hmade
      exact hmade

/-- At a node that has widened, a text of one byte can be repeated up to the limit
and no further, and an empty list not even a negative number of times. -/
theorem repetition_at_limit :
    let names : ClassNames := fun _ => ""
    let site := mul.siteAfter [⟨names, .float 1.5, .float 1.5⟩]
    let outcome := fun left count => (mul.evaluate names left (.int count) site).1
    outcome (.str "a") 2147483647 = .ok (.str (repeatText "a" 2147483647)) ∧
      outcome (.str "a") 2147483648 =
        .error { kind := .sizeOutOfBounds "*" 2147483648 2147483647 "bytes" } ∧
      outcome (.list []) (-1) = .error { kind := .negativeCount "*" (-1) } := by
  intro names site outcome
  have hexact := repetition_exact [⟨names, .float 1.5, .float 1.5⟩] names
  refine ⟨?_, ?_, ?_⟩
  · exact ((hexact 2147483647).2.1 "a").1.within (by decide) (by decide)
  · exact ((hexact 2147483648).2.1 "a").1.beyond (by decide) (by decide)
  · exact ((hexact (-1)).1 []).1.negative (by decide)

end Operator

end AdaptiveScript
