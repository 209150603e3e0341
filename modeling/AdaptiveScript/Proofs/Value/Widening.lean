import AdaptiveScript.Value.Basic
import Mathlib

/-! # Widening an Integer

  An integer of 64 bits becomes the float nearest to it: its magnitude is cut to
  53 significant bits, rounded to the nearest, and to the even one from halfway.
  `nearestFloat` spells the bits of that float out, with no use of the library's
  conversion, and `widen_eq_nearestFloat` says that `widen` gives this float.

  The library converts through its model of floats. What it does there to a
  magnitude is to shift it until 53 bits are left, with a round bit and a sticky
  bit for what was shifted out (`shifted`). All of Mathlib is imported for the
  lemmas on the parts of a packed float, which no smaller import reaches.
-/

namespace AdaptiveScript

/-! ### The nearest float -/

/-- The multiple of `unit` that is nearest to `m`, as a number of units; halfway
between two of them the even one. -/
def roundHalfEven (m unit : Nat) : Nat :=
  if 2 * (m % unit) < unit then m / unit
  else if 2 * (m % unit) = unit then m / unit + m / unit % 2
  else m / unit + 1

/-- The significand of a positive number: its 53 leading bits, rounded. -/
def significand (m : Nat) : Nat :=
  if m.log2 ≤ 52 then m * 2 ^ (52 - m.log2) else roundHalfEven m (2 ^ (m.log2 - 52))

/-- The bits of the float nearest to a natural number: the exponent, with a bias
of 1023, above the 52 lower bits of the significand. The leading bit of the
significand is added to the exponent, and so is a carry. -/
def nearestBits (m : Nat) : Nat :=
  if m = 0 then 0 else (m.log2 + 1022) * 2 ^ 52 + significand m

/-- The float nearest to an integer. The sign is the uppermost bit. -/
def nearestFloat (n : Int64) : Float :=
  .ofBits (UInt64.ofNat ((if n.toInt < 0 then 2 ^ 63 else 0) + nearestBits n.toInt.natAbs))

/-- A rounded number is off by half a unit at most. -/
theorem roundHalfEven_near {m unit : Nat} (hunit : 0 < unit) :
    2 * m ≤ 2 * (roundHalfEven m unit * unit) + unit ∧
      2 * (roundHalfEven m unit * unit) ≤ 2 * m + unit := by
  have hdiv := Nat.div_add_mod' m unit
  have hlt := Nat.mod_lt m hunit
  have hbit : m / unit % 2 = 0 ∨ m / unit % 2 = 1 := Nat.mod_two_eq_zero_or_one _
  unfold roundHalfEven
  split
  · omega
  · split
    · rcases hbit with hbit | hbit <;> rw [hbit, Nat.add_mul] <;> omega
    · rw [Nat.add_mul]
      omega

/-- A multiple of the unit is not changed by rounding. -/
theorem roundHalfEven_mul (q : Nat) {unit : Nat} (hunit : 0 < unit) :
    roundHalfEven (q * unit) unit = q := by
  rw [roundHalfEven, Nat.mul_mod_left, if_pos (by omega), Nat.mul_div_cancel q hunit]

/-- Rounding does not depend on the scale. -/
theorem roundHalfEven_scale (m unit : Nat) {c : Nat} (hc : 0 < c) :
    roundHalfEven (m * c) (unit * c) = roundHalfEven m unit := by
  have hlt : 2 * (m % unit * c) < unit * c ↔ 2 * (m % unit) < unit := by
    rw [← Nat.mul_assoc, Nat.mul_lt_mul_right hc]
  have heq : 2 * (m % unit * c) = unit * c ↔ 2 * (m % unit) = unit := by
    rw [← Nat.mul_assoc, Nat.mul_left_inj (by omega)]
  simp only [roundHalfEven, Nat.mul_mod_mul_right, Nat.mul_div_mul_right _ _ hc, hlt, heq]

/-! ### Rounding in the model -/

namespace Widening

open Float.Model Float.Model.UnpackedFloat

/-- What is left of a number after `k` shifts: the round bit is the last one
shifted out, and the sticky bit tells whether another one was set. -/
def shifted (m k : Nat) : ExtendedMantissa where
  mantissa := m / 2 ^ k
  roundBit := decide (2 ^ k ≤ 2 * (m % 2 ^ k))
  stickyBit := decide (m % 2 ^ k ≠ 0 ∧ 2 * (m % 2 ^ k) ≠ 2 ^ k)

theorem shifted_zero (m : Nat) : ExtendedMantissa.ofMantissaAndAccuracy m .exact = shifted m 0 := by
  simp [ExtendedMantissa.ofMantissaAndAccuracy, shifted, Nat.mod_one]

theorem shiftRightOne_shifted (m k : Nat) : (shifted m k).shiftRightOne = shifted m (k + 1) := by
  have hpos : 0 < 2 ^ k := Nat.two_pow_pos k
  have hlt := Nat.mod_lt m hpos
  have hpow : 2 ^ (k + 1) = 2 * 2 ^ k := by rw [Nat.pow_succ, Nat.mul_comm]
  -- the remainder gains the lowest bit of the quotient
  have hrest : m % (2 * 2 ^ k) = m % 2 ^ k + 2 ^ k * (m / 2 ^ k % 2) := by
    rw [Nat.mul_comm 2, Nat.mod_mul]
  have hbit : m / 2 ^ k % 2 = 0 ∨ m / 2 ^ k % 2 = 1 := Nat.mod_two_eq_zero_or_one _
  simp only [shifted, ExtendedMantissa.shiftRightOne, ExtendedMantissa.mk.injEq, hpow, hrest]
  -- the quotient, the round bit, and the sticky bit, which keeps the old round bit
  refine ⟨?_, ?_, ?_⟩
  · rw [Nat.div_div_eq_div_mul, Nat.mul_comm]
  · rcases hbit with hbit | hbit
    · simp [hbit, hlt]
    · simp [hbit]
  · rw [← Bool.decide_or, decide_eq_decide]
    rcases hbit with hbit | hbit <;> rw [hbit] <;> omega

theorem shiftRight_eq_shifted (m k : Nat) :
    ExtendedMantissa.ofMantissaAndAccuracy m .exact >>> k = shifted m k := by
  show k.repeat ExtendedMantissa.shiftRightOne _ = _
  induction k with
  | zero => exact shifted_zero m
  | succ k ih => rw [Nat.repeat, ih, shiftRightOne_shifted]

/-- The round bit and the sticky bit tell how to round. -/
theorem roundedMantissa_shifted (m k : Nat) :
    (shifted m k).roundedMantissa = roundHalfEven m (2 ^ k) := by
  have hlt := Nat.mod_lt m (Nat.two_pow_pos k)
  unfold roundHalfEven shifted ExtendedMantissa.roundedMantissa
  -- the round bit says that half a unit or more is left, the sticky bit tells these two apart
  by_cases hround : 2 ^ k ≤ 2 * (m % 2 ^ k)
  · rw [if_neg (by omega)]
    by_cases hhalf : 2 * (m % 2 ^ k) = 2 ^ k
    · simp [ExtendedMantissa.accuracy, Accuracy.roundToNearestEven, hhalf]
    · have hrest : m % 2 ^ k ≠ 0 := by omega
      simp [ExtendedMantissa.accuracy, Accuracy.roundToNearestEven, hround, hhalf, hrest]
  · rw [if_pos (by omega)]
    have hhalf : 2 * (m % 2 ^ k) ≠ 2 ^ k := by omega
    by_cases hrest : m % 2 ^ k = 0
    · simp [ExtendedMantissa.accuracy, Accuracy.roundToNearestEven, hrest]
    · simp [ExtendedMantissa.accuracy, Accuracy.roundToNearestEven, hround, hhalf, hrest]

/-! ### The unpacked result -/

theorem log2_mul_two_pow {m : Nat} (hm : m ≠ 0) (k : Nat) :
    (m * 2 ^ k).log2 = m.log2 + k := by
  have hpos := Nat.two_pow_pos k
  rw [Nat.log2_eq_iff (Nat.mul_ne_zero hm (Nat.ne_of_gt hpos))]
  constructor
  · rw [Nat.pow_add]
    exact Nat.mul_le_mul_right _ (Nat.log2_self_le hm)
  · rw [Nat.add_right_comm, Nat.pow_add]
    exact Nat.mul_lt_mul_of_pos_right Nat.lt_log2_self hpos

/-- Rounding to 53 bits leaves 53 bits, or the next power of two by a carry. -/
theorem roundHalfEven_bounds {m : Nat} (hm : 2 ^ 52 ≤ m) :
    2 ^ 52 ≤ roundHalfEven m (2 ^ (m.log2 - 52)) ∧
      roundHalfEven m (2 ^ (m.log2 - 52)) ≤ 2 ^ 53 := by
  have hlog : 52 ≤ m.log2 := (Nat.le_log2 (by omega)).mpr hm
  have hpos := Nat.two_pow_pos (m.log2 - 52)
  have hlow : 2 ^ 52 ≤ m / 2 ^ (m.log2 - 52) := by
    rw [Nat.le_div_iff_mul_le hpos, ← Nat.pow_add, Nat.add_sub_cancel' hlog]
    exact Nat.log2_self_le (by omega)
  have hhigh : m / 2 ^ (m.log2 - 52) < 2 ^ 53 := by
    rw [Nat.div_lt_iff_lt_mul hpos, ← Nat.pow_add, show 53 + (m.log2 - 52) = m.log2 + 1 by omega]
    exact Nat.lt_log2_self
  unfold roundHalfEven
  split
  · omega
  · split <;> omega

/-- A float from a significand and the exponent of its last bit, where a carry
may have made the significand `2 ^ 53`. -/
def carried (s : Sign) (q : Nat) (e : Int) : UnpackedFloat :=
  if h : 0 < q ∧ q < 2 ^ 53 then .finite s q e h.1 else .finite s (2 ^ 52) (e + 1) (by decide)

theorem carried_of_lt {s : Sign} {q : Nat} {e : Int} (hhigh : q < 2 ^ 53) (hq : 0 < q) :
    carried s q e = .finite s q e hq :=
  dif_pos ⟨hq, hhigh⟩

theorem carried_carry {s : Sign} {e : Int} :
    carried s (2 ^ 53) e = .finite s (2 ^ 52) (e + 1) (by decide) :=
  dif_neg fun h => Nat.lt_irrefl _ h.2

/-- The exponent at which 53 bits are left. -/
theorem targetExponent_eq (m : Nat) (e : Int) :
    Format.targetExponent .binary64 (totalExponent m e) = max (e + m.log2 + 1 - 53) (-1074) := by
  simp only [Format.targetExponent, totalExponent, Format.mantissaBits, Format.minExponent]
  omega

/-- A significand of 53 bits has its place. -/
theorem shiftToTargetExponent_fits {q : Nat} {e : Int} (hlow : 2 ^ 52 ≤ q) (hhigh : q < 2 ^ 53)
    (he : -1074 ≤ e) : shiftToTargetExponent .binary64 q e .exact = (shifted q 0, e) := by
  have hlog : q.log2 = 52 := (Nat.log2_eq_iff (by omega)).mpr ⟨hlow, hhigh⟩
  have htarget : Format.targetExponent .binary64 (totalExponent q e) = e := by
    rw [targetExponent_eq, hlog]
    omega
  rw [shiftToTargetExponent, htarget, shiftToExponent, shiftRight_eq_shifted, Int.sub_self]
  simp

/-- A carry is shifted out. -/
theorem shiftToTargetExponent_carry {e : Int} (he : -1074 ≤ e) :
    shiftToTargetExponent .binary64 (2 ^ 53) e .exact = (shifted (2 ^ 53) 1, e + 1) := by
  have htarget : Format.targetExponent .binary64 (totalExponent (2 ^ 53) e) = e + 1 := by
    rw [targetExponent_eq, Nat.log2_two_pow]
    omega
  rw [shiftToTargetExponent, htarget, shiftToExponent, shiftRight_eq_shifted,
    show e + 1 - e = 1 by omega]
  simp

/-- A number of 53 bits or more is shifted until 53 are left, and rounded. -/
theorem roundWithAccuracy_eq (s : Sign) {m : Nat} {e : Int} (hm : 2 ^ 52 ≤ m) (he : -1074 ≤ e) :
    roundWithAccuracy .binary64 s m e .exact =
      carried s (roundHalfEven m (2 ^ (m.log2 - 52))) (e + (m.log2 - 52 : Nat)) := by
  have hlog : 52 ≤ m.log2 := (Nat.le_log2 (by omega)).mpr hm
  have htarget : Format.targetExponent .binary64 (totalExponent m e) = e + (m.log2 - 52 : Nat) := by
    rw [targetExponent_eq]
    omega
  have hfirst : shiftToTargetExponent .binary64 m e .exact =
      (shifted m (m.log2 - 52), e + (m.log2 - 52 : Nat)) := by
    rw [shiftToTargetExponent, htarget, shiftToExponent, shiftRight_eq_shifted,
      show e + (m.log2 - 52 : Nat) - e = (m.log2 - 52 : Nat) by omega]
    simp
  obtain ⟨hlow, hhigh⟩ := roundHalfEven_bounds hm
  rw [roundWithAccuracy, hfirst]
  simp only [roundedMantissa_shifted]
  -- a carry makes the significand too long, and it is shifted once more
  by_cases hcarry : roundHalfEven m (2 ^ (m.log2 - 52)) = 2 ^ 53
  · simp only [hcarry, shiftToTargetExponent_carry (show -1074 ≤ e + (m.log2 - 52 : Nat) by omega)]
    rfl
  · have hq : 0 < roundHalfEven m (2 ^ (m.log2 - 52)) ∧
        roundHalfEven m (2 ^ (m.log2 - 52)) < 2 ^ 53 := by omega
    simp only [shiftToTargetExponent_fits hlow hq.2
      (show -1074 ≤ e + (m.log2 - 52 : Nat) by omega)]
    rw [carried_of_lt hq.2 hq.1]
    simp [shifted, Nat.ne_of_gt hq.1]

/-! ### Packing -/

section Finite

variable {s : Sign} {q : Nat} {e : Int}

/-- The fields of a float with a significand of 53 bits. -/
theorem pack_finite (hlow : 2 ^ 52 ≤ q) (hhigh : q < 2 ^ 53) (he : e ≤ 970) (hq : 0 < q) :
    UnpackedFloat.pack .binary64 (.finite s q e hq) =
      packComponents .binary64 s (BitVec.ofNat 11 (e + 1075).toNat) (BitVec.ofNat 52 q) := by
  have hlog : q.log2 = 52 := (Nat.log2_eq_iff (by omega)).mpr ⟨hlow, hhigh⟩
  have hbiased : e + (Format.exponentBias .binary64 : Int) +
      (Format.mantissaBitsWithoutImplicit .binary64 : Int) = e + 1075 := by
    simp [Format.exponentBias]
    omega
  rw [UnpackedFloat.pack, hbiased, if_neg (by show ¬ 2 ^ 11 ≤ (e + 1075).toNat + 1; omega), if_pos]
  rw [hlog]
  rfl

/-- Packing loses nothing of it. -/
theorem unpack_pack_finite (hlow : 2 ^ 52 ≤ q) (hhigh : q < 2 ^ 53) (he : -1074 ≤ e)
    (he' : e ≤ 970) (hq : 0 < q) :
    (Float.Model.pack (.finite s q e hq)).unpack = .finite s q e hq := by
  have hexp : (BitVec.ofNat 11 (e + 1075).toNat).toNat = (e + 1075).toNat := by
    rw [BitVec.toNat_ofNat, Nat.mod_eq_of_lt (by omega)]
  have hones : BitVec.ofNat 11 (e + 1075).toNat ≠ -1#11 := by
    intro h
    have hnat := congrArg BitVec.toNat h
    rw [hexp, show (-1#11).toNat = 2047 from rfl] at hnat
    omega
  have hzero : BitVec.ofNat 11 (e + 1075).toNat ≠ 0#11 := by
    intro h
    have hnat := congrArg BitVec.toNat h
    rw [hexp, show (0#11).toNat = 0 from rfl] at hnat
    omega
  have hmantissa : (1#1 ++ BitVec.ofNat 52 q).toNat = q := by
    rw [BitVec.toNat_append, BitVec.toNat_ofNat, ← Nat.shiftLeft_add_eq_or_of_lt (by omega)]
    simp [Nat.shiftLeft_eq]
    omega
  show UnpackedFloat.unpack .binary64 (UnpackedFloat.pack .binary64 (.finite s q e hq)) = _
  rw [pack_finite hlow hhigh he']
  unfold UnpackedFloat.unpack
  simp only [unpackMantissa_packComponents, unpackExponent_packComponents,
    unpackSign_packComponents, Sign.ofBitVec_toBitVec, hones, hzero, if_false, hexp, hmantissa]
  congr 1
  simp [Format.exponentBias]
  omega

/-- Its bits: the sign, the exponent with the leading bit of the significand added
to it, and the other bits of the significand. -/
theorem toNat_pack_finite (hlow : 2 ^ 52 ≤ q) (hhigh : q < 2 ^ 53) (he : -1074 ≤ e)
    (he' : e ≤ 970) (hq : 0 < q) :
    ((Float.Model.pack (.finite s q e hq)).toBits.toNat : Int) =
      s.toBitVec.toNat * 2 ^ 63 + (e + 1074) * 2 ^ 52 + q := by
  have hfits : (e + 1075).toNat < 2 ^ 11 := by omega
  show ((UnpackedFloat.pack .binary64 (.finite s q e hq)).toNat : Int) = _
  rw [pack_finite hlow hhigh he', packComponents, BitVec.toNat_append, BitVec.toNat_append,
    ← Nat.shiftLeft_add_eq_or_of_lt (BitVec.isLt _),
    ← Nat.shiftLeft_add_eq_or_of_lt (BitVec.isLt _)]
  simp only [BitVec.toNat_ofNat, Nat.shiftLeft_eq, Nat.mod_eq_of_lt hfits]
  omega

/-! The same with a carry. -/

theorem unpack_pack_carried (hlow : 2 ^ 52 ≤ q) (hhigh : q ≤ 2 ^ 53) (he : -1074 ≤ e)
    (he' : e ≤ 969) : (Float.Model.pack (carried s q e)).unpack = carried s q e := by
  rcases Nat.lt_or_eq_of_le hhigh with hlt | rfl
  · rw [carried_of_lt hlt (by omega)]
    exact unpack_pack_finite hlow hlt he (by omega) _
  · rw [carried_carry]
    exact unpack_pack_finite (by decide) (by decide) (by omega) (by omega) _

theorem toNat_pack_carried (hlow : 2 ^ 52 ≤ q) (hhigh : q ≤ 2 ^ 53) (he : -1074 ≤ e)
    (he' : e ≤ 969) :
    ((Float.Model.pack (carried s q e)).toBits.toNat : Int) =
      s.toBitVec.toNat * 2 ^ 63 + (e + 1074) * 2 ^ 52 + q := by
  rcases Nat.lt_or_eq_of_le hhigh with hlt | rfl
  · rw [carried_of_lt hlt (by omega)]
    exact toNat_pack_finite hlow hlt he (by omega) _
  · rw [carried_carry, toNat_pack_finite (by decide) (by decide) (by omega) (by omega)]
    omega

theorem neg_carried : (carried s q e).neg = carried (-s) q e := by
  unfold carried
  split <;> rfl

end Finite

/-! ### The library's conversion -/

variable {m : Nat}

theorem significand_of_le (h : m.log2 ≤ 52) : significand m = m * 2 ^ (52 - m.log2) := if_pos h

theorem significand_of_lt (h : 52 < m.log2) :
    significand m = roundHalfEven m (2 ^ (m.log2 - 52)) := if_neg (by omega)

theorem le_significand (hm : m ≠ 0) : 2 ^ 52 ≤ significand m := by
  unfold significand
  split
  · rename_i hlog
    calc 2 ^ 52 = 2 ^ m.log2 * 2 ^ (52 - m.log2) := by rw [← Nat.pow_add, Nat.add_sub_cancel' hlog]
      _ ≤ m * 2 ^ (52 - m.log2) := Nat.mul_le_mul_right _ (Nat.log2_self_le hm)
  · exact (roundHalfEven_bounds ((Nat.le_log2 hm).mp (by omega))).1

theorem significand_lt (hlog : m.log2 ≤ 52) : significand m < 2 ^ 53 := by
  rw [significand_of_le hlog]
  calc m * 2 ^ (52 - m.log2) < 2 ^ (m.log2 + 1) * 2 ^ (52 - m.log2) :=
        Nat.mul_lt_mul_of_pos_right Nat.lt_log2_self (Nat.two_pow_pos _)
    _ = 2 ^ 53 := by rw [← Nat.pow_add, show m.log2 + 1 + (52 - m.log2) = 53 by omega]

theorem significand_le (hm : m ≠ 0) : significand m ≤ 2 ^ 53 := by
  by_cases hlog : m.log2 ≤ 52
  · exact Nat.le_of_lt (significand_lt hlog)
  · rw [significand_of_lt (by omega)]
    exact (roundHalfEven_bounds ((Nat.le_log2 hm).mp (by omega))).2

/-- A number of 53 bits at most is moved up to 53 bits. -/
theorem ofUInt64_eq (hm : m ≠ 0) (hlog : m.log2 ≤ 52) :
    Float.Model.ofUInt64 m.toUInt64 =
      Float.Model.pack (carried .positive (significand m) (m.log2 - 52)) := by
  have hlt : m < 2 ^ 53 := (Nat.log2_lt hm).mp (by omega)
  have hnat : m.toUInt64.toNat = m := by
    simp
    omega
  have htarget : Format.targetExponent .binary64 (totalExponent m 0) = m.log2 - 52 := by
    rw [targetExponent_eq]
    omega
  have hmoved : (m * 2 ^ (52 - m.log2)).log2 = 52 := by
    rw [log2_mul_two_pow hm]
    omega
  have hlow : 2 ^ 52 ≤ m * 2 ^ (52 - m.log2) := significand_of_le hlog ▸ le_significand hm
  show Float.Model.pack (normalize .binary64 (m.toUInt64.toNat : Int) 0 .positive) = _
  rw [hnat, UnpackedFloat.normalize, Int.compare_eq_gt.mpr (by omega)]
  show Float.Model.pack (UnpackedFloat.round .binary64 .positive m 0) = _
  rw [UnpackedFloat.round, htarget, decreaseExponent,
    show (0 - ((m.log2 : Int) - 52)).toNat = 52 - m.log2 by omega]
  simp only [Nat.shiftLeft_eq]
  rw [roundWithAccuracy_eq _ hlow (by omega), hmoved, significand_of_le hlog]
  have hround := roundHalfEven_mul (m * 2 ^ (52 - m.log2)) (show 0 < 1 by decide)
  rw [Nat.mul_one] at hround
  rw [show 2 ^ (52 - 52) = 1 from rfl, hround]
  congr 2
  omega

/-- The float one is neutral. -/
theorem mul_one_carried {q : Nat} {e : Int} (hlow : 2 ^ 52 ≤ q) (hhigh : q < 2 ^ 53)
    (he : -1022 ≤ e) (he' : e ≤ 969) :
    Float.Model.pack (carried .positive q e) * (Float.ofBits 0x3FF0000000000000).toModel =
      Float.Model.pack (carried .positive q e) := by
  have hone : (Float.ofBits 0x3FF0000000000000).toModel.unpack =
      .finite .positive (2 ^ 52) (-52) (by decide) := rfl
  have hlog : (q * 2 ^ 52).log2 = 104 := by
    rw [log2_mul_two_pow (by omega), (Nat.log2_eq_iff (by omega)).mpr ⟨hlow, hhigh⟩]
  show Float.Model.pack (UnpackedFloat.mul .binary64 (Float.Model.pack _).unpack _) = _
  rw [unpack_pack_carried hlow (by omega) (by omega) he', hone, carried_of_lt hhigh (by omega)]
  show Float.Model.pack (roundWithAccuracy .binary64 .positive (q * 2 ^ 52) (e + -52) .exact) = _
  rw [roundWithAccuracy_eq _ (by omega) (by omega), hlog, roundHalfEven_mul q (by decide),
    carried_of_lt hhigh (by omega)]
  congr 2
  omega

/-- The library's conversion of a natural number, through the float one for small
numbers and through a multiplication by `2 ^ 53` for large ones. -/
theorem ofNat_eq (hm : m ≠ 0) (hlt : m < 2 ^ 64) :
    Float.ofNat m =
      .ofModel (Float.Model.pack (carried .positive (significand m) (m.log2 - 52))) := by
  by_cases hsmall : m < 2 ^ 53
  -- such a number has a float of its own, and nothing is rounded
  · have hlog : m.log2 ≤ 52 := Nat.le_of_lt_succ ((Nat.log2_lt hm).mpr hsmall)
    show Float.ofScientific m false 0 = _
    rw [Float.ofScientific, dif_pos ⟨hsmall, by decide⟩]
    show Float.ofModel (Float.Model.ofUInt64 m.toUInt64 *
      (Float.ofBits 0x3FF0000000000000).toModel) = _
    rw [ofUInt64_eq hm hlog,
      mul_one_carried (le_significand hm) (significand_lt hlog) (by omega) (by omega)]
  -- the library moves the number up by 53 bits before it rounds, which changes nothing
  · have hlog : 52 < m.log2 := (Nat.le_log2 hm).mpr (by omega)
    have hlog' : m.log2 < 64 := (Nat.log2_lt hm).mpr hlt
    show Float.ofScientific m false 0 = _
    rw [Float.ofScientific, dif_neg fun h => hsmall h.1]
    show Float.ofModel (Float.Model.pack (UnpackedFloat.ofScientific .binary64 m 0)) = _
    have hnotTiny : ¬ (0 : Int) < -((2 ^ 11 : Int) + m.log2) := by omega
    rw [UnpackedFloat.ofScientific, dif_neg hm, if_neg (by decide), if_neg hnotTiny,
      if_pos (by decide)]
    show Float.ofModel (Float.Model.pack
      (roundWithAccuracy .binary64 .positive (m <<< 53 * 1) (-53 + 0) .exact)) = _
    have hmoved : (m * 2 ^ 53).log2 - 52 = m.log2 - 52 + 53 := by
      rw [log2_mul_two_pow hm]
      omega
    have hexponent : (-53 + 0 + (m.log2 - 52 + 53 : Nat) : Int) = m.log2 - 52 := by omega
    rw [Nat.mul_one, Nat.shiftLeft_eq, roundWithAccuracy_eq _ (by omega) (by omega), hmoved,
      hexponent, Nat.pow_add, roundHalfEven_scale m _ (by decide), significand_of_lt hlog]

/-- The bits of a rounded magnitude with a sign. -/
theorem ofBits_eq (s : Sign) (hm : m ≠ 0) (hlt : m < 2 ^ 64) :
    Float.ofBits (UInt64.ofNat (s.toBitVec.toNat * 2 ^ 63 + nearestBits m)) =
      .ofModel (Float.Model.pack (carried s (significand m) (m.log2 - 52))) := by
  have hlog : m.log2 < 64 := (Nat.log2_lt hm).mpr hlt
  have hlow := le_significand hm
  have hhigh := significand_le hm
  have hbits : UInt64.ofNat (s.toBitVec.toNat * 2 ^ 63 + nearestBits m) =
      (Float.Model.pack (carried s (significand m) (m.log2 - 52))).toBits := by
    have hsign := s.toBitVec.isLt
    have hpacked := toNat_pack_carried (s := s) (e := m.log2 - 52) hlow hhigh (by omega) (by omega)
    apply UInt64.toNat_inj.mp
    rw [UInt64.toNat_ofNat', nearestBits, if_neg hm]
    omega
  rw [hbits]
  exact Float.ofBits_toBits (.ofModel (Float.Model.pack _))

end Widening

/-! ### Widening -/

open Float.Model Widening

/-- `widen` gives the nearest float. -/
theorem widen_eq_nearestFloat (n : Int64) : widen n = nearestFloat n := by
  have hlow := n.le_toInt
  have hhigh := n.toInt_lt
  unfold widen nearestFloat
  generalize n.toInt = i at hlow hhigh
  cases i with
  | ofNat m =>
    cases m with
    | zero => decide +kernel
    | succ m =>
      have hbits := ofBits_eq .positive (m := m + 1) (by omega) (by simp at hhigh; omega)
      have hpositive : ¬ Int.ofNat (m + 1) < 0 := Int.not_lt.mpr (Int.natCast_nonneg _)
      rw [if_neg hpositive]
      exact (ofNat_eq (by omega) (by simp at hhigh; omega)).trans hbits.symm
  | negSucc m =>
    -- the library converts the magnitude and then sets the sign
    have hbits := ofBits_eq .negative (m := m + 1) (by omega) (by omega)
    have hlog : (m + 1).log2 < 64 := (Nat.log2_lt (by omega)).mpr (by omega)
    rw [if_pos (by omega)]
    show Float.neg (Float.ofNat (m + 1)) = _
    rw [ofNat_eq (by omega) (by omega)]
    show Float.ofModel (Float.Model.pack (Float.Model.pack _).unpack.neg) = _
    rw [unpack_pack_carried (le_significand (by omega)) (significand_le (by omega)) (by omega)
      (by omega), neg_carried]
    exact hbits.symm

end AdaptiveScript
