import AdaptiveScript.Error
import AdaptiveScript.Operator.Basic
import AdaptiveScript.Specialization

/-! # Operator Strategies

  The strategy table of each operator. Addition and multiplication try
  integers first; an overflow excludes that strategy at the site, so a site
  that once overflowed computes in floating point from then on. So does one
  that once met two floats, because `number+number` and `number*number`
  replace the integer strategy. Division has an exact integer quotient or
  falls back to floats call by call, and never excludes anything.
-/

namespace AdaptiveScript

/-! ### Operands -/

/-- The operands of an operation, with the class names that their text
needs. -/
structure Operands where
  values : List Value
  names : ClassNames

/-- What an operation yields. -/
abbrev EvalResult := Except EvalError Value

namespace Operands

/-- Two integers. -/
def ints? (o : Operands) : Option (Int64 × Int64) :=
  match o.values with
  | [.int a, .int b] => some (a, b)
  | _ => none

/-- Two numbers, as floats. -/
def numbers? (o : Operands) : Option (Float × Float) :=
  match o.values with
  | [a, b] => do return (← a.number?, ← b.number?)
  | _ => none

/-- Exactly two integers. -/
def isInts (o : Operands) : Bool := o.ints?.isSome

/-- Exactly two numbers. -/
def isNumbers (o : Operands) : Bool := o.numbers?.isSome

/-- A float before an integer. -/
def isFloatInt (o : Operands) : Bool :=
  match o.values with
  | [.float _, .int _] => true
  | _ => false

/-- An integer before a float. -/
def isIntFloat (o : Operands) : Bool :=
  match o.values with
  | [.int _, .float _] => true
  | _ => false

/-- Exactly two floats. -/
def isFloats (o : Operands) : Bool :=
  match o.values with
  | [.float _, .float _] => true
  | _ => false

/-- Exactly two texts. -/
def isStrs (o : Operands) : Bool :=
  match o.values with
  | [.str _, .str _] => true
  | _ => false

/-- Text before an integer. -/
def isStrInt (o : Operands) : Bool :=
  match o.values with
  | [.str _, .int _] => true
  | _ => false

/-- An integer before text. -/
def isIntStr (o : Operands) : Bool :=
  match o.values with
  | [.int _, .str _] => true
  | _ => false

/-- A list before an integer. -/
def isListInt (o : Operands) : Bool :=
  match o.values with
  | [.list _, .int _] => true
  | _ => false

/-- Any operand is text, whatever their number. -/
def hasStr (o : Operands) : Bool := o.values.any (·.isStr)

end Operands

/-- A strategy on operands. -/
abbrev OperandStrategy := Strategy Operands EvalResult

/-! ### Arithmetic -/

/-- The integer with a given value, if it fits in 64 bits. -/
def int64? (n : Int) : Option Int64 :=
  if Int64.minValue.toInt ≤ n ∧ n ≤ Int64.maxValue.toInt then some (Int64.ofInt n) else none

/-- The exact quotient of two integers, if there is one. -/
def quotient? (a b : Int64) : Option Int64 :=
  if b.toInt ≠ 0 ∧ a.toInt.tmod b.toInt = 0 then int64? (a.toInt.tdiv b.toInt) else none

/-- An integer operation on two integers; a result that does not fit retires
the strategy. -/
def checkedInts (op : Int → Int → Int) (o : Operands) : Attempt EvalResult :=
  match o.ints? with
  | none => .decline
  | some (a, b) =>
    match int64? (op a.toInt b.toInt) with
    | some n => .done (.ok (.int n))
    | none => .retire

/-- A float operation on any two numbers. -/
def onNumbers (op : Float → Float → Float) (o : Operands) : Attempt EvalResult :=
  match o.numbers? with
  | none => .decline
  | some (a, b) => .done (.ok (.float (op a b)))

/-- Division of two integers: exact, or else in floating point. -/
def divideInts (o : Operands) : Attempt EvalResult :=
  match o.ints? with
  | none => .decline
  | some (a, b) =>
    match quotient? a b with
    | some q => .done (.ok (.int q))
    | none => .done (.ok (.float (widen a / widen b)))

/-! ### Text -/

/-- Joins two texts. -/
def concatStrs (o : Operands) : Attempt EvalResult :=
  match o.values with
  | [.str a, .str b] => .done (.ok (.str (a ++ b)))
  | _ => .decline

/-- Appends the decimal text of an integer. -/
def concatStrInt (o : Operands) : Attempt EvalResult :=
  match o.values with
  | [.str a, .int b] => .done (.ok (.str (a ++ Value.intText b)))
  | _ => .decline

/-- Prepends the decimal text of an integer. -/
def concatIntStr (o : Operands) : Attempt EvalResult :=
  match o.values with
  | [.int a, .str b] => .done (.ok (.str (Value.intText a ++ b)))
  | _ => .decline

/-- Joins the textual forms of any two values. -/
def concatDisplayed (o : Operands) : Attempt EvalResult :=
  match o.values with
  | [a, b] => .done (.ok (.str (a.display o.names ++ b.display o.names)))
  | _ => .decline

/-! ### Repetition -/

/-- The greatest number of bytes or elements that a repetition may have. -/
def maxRepeated : Nat := 0x7fffffff

/-- How often `unit` bytes or elements are to be repeated for a count of
`count`: not for a negative count, nor beyond the limit. An empty unit needs
no copy. -/
def repeatCount (unit : Nat) (count : Int64) (measure : String) : Except EvalError Nat :=
  if count.toInt < 0 then .error { kind := .negativeCount Operator.mul.symbol count }
  else if unit = 0 then .ok 0
  else
    let size := count.toInt.toNat * unit
    if maxRepeated < size then
      .error { kind := .sizeOutOfBounds Operator.mul.symbol size maxRepeated measure }
    else .ok count.toInt.toNat

/-- `n` copies of a text, one after the other. -/
def repeatText (text : String) (n : Nat) : String := String.join (List.replicate n text)

/-- `n` copies of a list, one after the other. -/
def repeatItems (items : List Value) (n : Nat) : List Value := (List.replicate n items).flatten

/-- Repeats a text, whose size is counted in bytes. -/
def repeatStr (o : Operands) : Attempt EvalResult :=
  match o.values with
  | [.str text, .int count] =>
    .done ((repeatCount text.utf8ByteSize count "bytes").map fun n => .str (repeatText text n))
  | _ => .decline

/-- Repeats a list, whose size is counted in elements. -/
def repeatList (o : Operands) : Attempt EvalResult :=
  match o.values with
  | [.list items, .int count] =>
    .done ((repeatCount items.length count "elements").map fun n => .list (repeatItems items n))
  | _ => .decline

/-! ### The tables -/

namespace Operator

open Operands

/-- The strategies of an operator, in order of preference. -/
def strategies : Operator → List OperandStrategy
  | .add =>
    [ { name := "int+int", guard := isInts, body := checkedInts (· + ·) },
      { name := "float+int", guard := isFloatInt, body := onNumbers (· + ·) },
      { name := "int+float", guard := isIntFloat, body := onNumbers (· + ·) },
      { name := "number+number", guard := isNumbers, body := onNumbers (· + ·),
        replaces := Mask.bit 0 },
      { name := "str+str", guard := isStrs, body := concatStrs },
      { name := "str+int", guard := isStrInt, body := concatStrInt },
      { name := "int+str", guard := isIntStr, body := concatIntStr },
      { name := "any+str", guard := hasStr, body := concatDisplayed } ]
  | .mul =>
    [ { name := "int*int", guard := isInts, body := checkedInts (· * ·) },
      { name := "float*int", guard := isFloatInt, body := onNumbers (· * ·) },
      { name := "int*float", guard := isIntFloat, body := onNumbers (· * ·) },
      { name := "number*number", guard := isNumbers, body := onNumbers (· * ·),
        replaces := Mask.bit 0 },
      { name := "str*int", guard := isStrInt, body := repeatStr },
      { name := "list*int", guard := isListInt, body := repeatList } ]
  | .div =>
    [ { name := "int/int", guard := isInts, body := divideInts },
      { name := "float/int", guard := isFloatInt, body := onNumbers (· / ·) },
      { name := "int/float", guard := isIntFloat, body := onNumbers (· / ·) },
      { name := "float/float", guard := isFloats, body := onNumbers (· / ·) } ]

/-- Applies an operator at a site, which adapts to the operands. -/
def evaluate (op : Operator) (names : ClassNames) (left right : Value) (site : Site) :
    EvalResult × Site :=
  match site.dispatch op.strategies { values := [left, right], names } with
  | (some result, site) => (result, site)
  | (none, site) => (.error (.unsupportedOperands names op.symbol [left, right]), site)

end Operator

end AdaptiveScript
