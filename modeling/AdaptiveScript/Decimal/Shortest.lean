/-! # Shortest Decimals

  The shortest decimal that reads back as a given binary floating-point
  number. A positive finite double is `m * 2 ^ q`; the reals that round to
  it form an interval whose ends belong to it iff `m` is even. On the grid
  of decimals with `n` significant digits only the two neighbours of the
  number can be the nearest grid point of the interval, so it is enough to
  test those two, for `n = 1, 2, …, 17`, in exact natural arithmetic.
-/

namespace AdaptiveScript.Decimal

/-! ### Scaled decimals -/

/-- The decimal `coefficient * 10 ^ exponent`. -/
structure Scaled where
  coefficient : Nat
  exponent : Int
  deriving DecidableEq, Repr, Inhabited

/-- Number of decimal digits; `0` has one. -/
def digitCount (n : Nat) : Nat := (Nat.toDigits 10 n).length

/-! ### Rounding intervals -/

/-- A positive rational `value / den` with the interval of reals that round
to it, all three over one denominator. -/
structure Interval where
  lower : Nat
  value : Nat
  upper : Nat
  den : Nat
  /-- Whether the two ends belong to the interval. -/
  closed : Bool
  deriving Repr

namespace Interval

/-- The interval of a positive finite double, from its 64 bits without the
sign. The gap below is half as wide at the bottom of a binade. -/
def ofBits (bits : Nat) : Interval :=
  let leadingBit := 0x10000000000000
  let biased := bits / leadingBit
  let fraction := bits % leadingBit
  let m := if biased = 0 then fraction else leadingBit + fraction
  let below := if fraction = 0 ∧ 1 < biased then 1 else 2
  -- The number is `4 * m * 2 ^ (max biased 1 - 1077)`.
  let e := max biased 1
  let up := Nat.pow 2 (e - 1077)
  { lower := (4 * m - below) * up
    value := 4 * m * up
    upper := (4 * m + 2) * up
    den := Nat.pow 2 (1077 - e)
    closed := m % 2 = 0 }

/-- Whether a decimal lies in the interval. -/
def contains (i : Interval) (d : Scaled) : Bool :=
  let x := d.coefficient * Nat.pow 10 d.exponent.toNat * i.den
  let scale := Nat.pow 10 (-d.exponent).toNat
  if i.closed then
    i.lower * scale ≤ x && x ≤ i.upper * scale
  else
    i.lower * scale < x && x < i.upper * scale

/-- The exponent of the leading decimal digit of the value. -/
def magnitude (i : Interval) : Int :=
  if i.den ≤ i.value then
    (digitCount (i.value / i.den) : Int) - 1
  else
    -(digitCount ((i.den + i.value - 1) / i.value - 1) : Int)

/-- The neighbour of the value among the multiples of `10 ^ p` that lies in
the interval, if one does, and the nearer of the two if both do. A tie goes
to the larger. -/
def nearest? (i : Interval) (p : Int) : Option Scaled :=
  let unit := i.den * Nat.pow 10 p.toNat
  let x := i.value * Nat.pow 10 (-p).toNat
  let below : Scaled := ⟨x / unit, p⟩
  let above : Scaled := ⟨x / unit + 1, p⟩
  match i.contains below, i.contains above with
  | true, true => some (if 2 * (x % unit) < unit then below else above)
  | true, false => some below
  | false, true => some above
  | false, false => none

/-- The shortest decimal of the interval, nearest to the value among those
of its length. Seventeen digits always suffice for a double. -/
def shortest (i : Interval) : Scaled :=
  let leading := i.magnitude
  ((List.range 17).findSome? fun (n : Nat) => i.nearest? (leading - n)).getD ⟨0, 0⟩

end Interval

/-! ### Significant digits -/

/-- A decimal as its significant digits, without zeros at the end, and the
exponent of the first of them. -/
structure Digits where
  digits : List Char
  leading : Int
  deriving DecidableEq, Repr

/-- The digits of a decimal. -/
def Scaled.digits (d : Scaled) : Digits :=
  let ds := Nat.toDigits 10 d.coefficient
  { digits := (ds.reverse.dropWhile (· = '0')).reverse
    leading := d.exponent + ds.length - 1 }

/-- The shortest digits of a positive finite double, given by its bits. -/
def shortestDigits (bits : Nat) : Digits := (Interval.ofBits bits).shortest.digits

end AdaptiveScript.Decimal
