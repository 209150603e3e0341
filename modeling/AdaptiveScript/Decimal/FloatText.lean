import AdaptiveScript.Decimal.Shortest

/-! # The Text of a Float

  Floats are written with the fewest digits that read back, always with a
  fractional part or an exponent, so that a float never looks like an
  integer.
-/

namespace AdaptiveScript.Decimal

/-- Decisions of a float format that the digits do not fix. -/
structure Format where
  /-- Least leading exponent that is written positionally. -/
  least : Int
  /-- Greatest leading exponent that is written positionally. -/
  greatest : Int
  notANumber : String
  infinity : String

/-- The language's float format: positional from `0.0001` up to, and not
including, `10 ^ 16`. -/
def Format.float : Format :=
  { least := -4, greatest := 15, notANumber := "NaN", infinity := "inf" }

namespace Digits

/-- Positional notation with at least one digit on each side of the point. -/
def positional (d : Digits) : List Char :=
  if d.leading < 0 then
    '0' :: '.' :: List.replicate (-d.leading - 1).toNat '0' ++ d.digits
  else
    let whole := d.leading.toNat + 1
    let padded := d.digits ++ List.replicate (whole - d.digits.length) '0'
    let fraction := padded.drop whole
    padded.take whole ++ '.' :: (if fraction.isEmpty then ['0'] else fraction)

/-- Scientific notation: one digit, the others behind a point, the exponent. -/
def scientific (d : Digits) : List Char :=
  let fraction := d.digits.drop 1
  d.digits.take 1 ++ (if fraction.isEmpty then [] else '.' :: fraction)
    ++ 'e' :: (toString d.leading).toList

/-- The text of the digits in a format. -/
def render (f : Format) (d : Digits) : String :=
  String.ofList (if f.least ≤ d.leading ∧ d.leading ≤ f.greatest then d.positional
    else d.scientific)

end Digits

/-- The text of a float. Both zeros keep their sign. -/
def floatText (x : Float) : String :=
  let bits := x.toBits.toNat
  let signBit := 0x8000000000000000
  let magnitude := bits % signBit
  let sign := if bits < signBit then "" else "-"
  if 0x7ff0000000000000 < magnitude then Format.float.notANumber
  else if magnitude = 0x7ff0000000000000 then sign ++ Format.float.infinity
  else if magnitude = 0 then sign ++ "0.0"
  else sign ++ (shortestDigits magnitude).render .float

end AdaptiveScript.Decimal
