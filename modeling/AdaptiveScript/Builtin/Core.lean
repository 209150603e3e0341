import AdaptiveScript.Builtin.Basic

/-! # The Core Builtins

  `time`, `print`, `microtime`, `abs`, `bin`, `chr`, `hex` and `id`.
-/

namespace AdaptiveScript.Builtin

/-! ### Clock -/

/-- A natural number as an integer; too large a number becomes the largest. -/
def clampInt (n : Nat) : Value := .int (Int64.ofInt (min n Int64.maxValue.toInt))

/-- Whole seconds since the epoch, from a clock of milliseconds. -/
def time : Implementation := fun i => { result := .ok (clampInt (i.now / 1000 / 1000)) }

/-- Microseconds since the epoch. -/
def microtime : Implementation := fun i => { result := .ok (clampInt i.now) }

/-! ### Printing -/

/-- The textual forms of the arguments that are not nil, with single spaces
between them. -/
def printText (names : ClassNames) (args : List Value) : String :=
  String.intercalate " " ((args.filter (!·.isNil)).map (·.display names))

/-- Prints its arguments, without a line end. -/
def print : Implementation := fun i =>
  { result := .ok .nil, printed := [printText i.names i.args] }

/-! ### Absolute value -/

/-- The float that is no number. -/
def notANumber : Float := Float.ofBits 0x7ff8000000000000

/-- The absolute value of an integer; the least one has none in 64 bits and
yields a float. -/
def absInt (o : Operands) : Attempt EvalResult :=
  match o.values with
  | [.int n] =>
    match int64? n.toInt.natAbs with
    | some m => .done (.ok (.int m))
    | none => .done (.ok (.float (-(widen n))))
  | _ => .decline

/-- The absolute value of a float. -/
def absFloat (o : Operands) : Attempt EvalResult :=
  match o.values with
  | [.float x] => .done (.ok (.float x.abs))
  | _ => .decline

/-- Exactly one integer. -/
def isInt (o : Operands) : Bool :=
  match o.values with
  | [.int _] => true
  | _ => false

/-- Exactly one float. -/
def isFloat (o : Operands) : Bool :=
  match o.values with
  | [.float _] => true
  | _ => false

/-- The strategies of `abs`. -/
def absStrategies : List OperandStrategy :=
  [ { name := "abs(int)", guard := isInt, body := absInt },
    { name := "abs(float)", guard := isFloat, body := absFloat } ]

/-- The absolute value of a number; anything else has none. -/
def abs : Implementation := fun i =>
  match i.memory.site.dispatch absStrategies i.operands with
  | (some result, site) => { result, site }
  | (none, site) => { result := .ok (.float notANumber), site }

/-! ### Numerals and characters -/

/-- The single integer argument of a builtin, or an argument error. -/
def intArgument (name : String) (i : Invocation) : Except EvalError Int64 :=
  match i.args with
  | [.int n] => .ok n
  | args => .error (.unsupportedOperands i.names name args)

/-- The digits of an integer's bit pattern in a base, without leading zeros. -/
def numeral (base : Nat) (n : Int64) : String :=
  String.ofList (Nat.toDigits base n.toUInt64.toNat)

/-- The base-2 digits of the two's-complement bit pattern. -/
def bin : Implementation := fun i =>
  { result := (intArgument "bin" i).map fun n => .str (numeral 2 n) }

/-- The base-16 digits of the two's-complement bit pattern. -/
def hex : Implementation := fun i =>
  { result := (intArgument "hex" i).map fun n => .str (numeral 16 n) }

/-- The character with a code, if the code is a Unicode scalar value. -/
def character? (code : Int64) : Option Char :=
  if 0 ≤ code.toInt ∧ code.toInt.toNat.isValidChar then some (Char.ofNat code.toInt.toNat)
  else none

/-- The text of the one character with the given code. -/
def chr : Implementation := fun i =>
  { result := do
      let code ← intArgument "chr" i
      match character? code with
      | some c => .ok (.str (String.singleton c))
      | none => .error { kind := .invalidCodePoint code } }

/-! ### Identity -/

/-- The address of an object, and a hash of any other value. -/
def identity (hasher : Hasher) (address : Addresses) : Value → UInt64
  | .object id => address id
  | v => v.hash hasher address

/-- The identity of the argument as an integer. -/
def id : Implementation := fun i =>
  match i.args with
  | [v] => { result := .ok (.int (identity i.hasher i.address v).toInt64) }
  | _ => { result := .ok (.int 0) }

/-! ### Declarations -/

/-- The declarations of the core builtins. -/
def core : List Entry :=
  [ { name := "time", variadic := false, arity := 0, run := time },
    { name := "print", variadic := true, arity := 0, run := print },
    { name := "microtime", variadic := false, arity := 0, run := microtime },
    { name := "abs", variadic := false, arity := 1, run := abs },
    { name := "bin", variadic := false, arity := 1, run := bin },
    { name := "chr", variadic := false, arity := 1, run := chr },
    { name := "hex", variadic := false, arity := 1, run := hex },
    { name := "id", variadic := false, arity := 1, run := id } ]

end AdaptiveScript.Builtin
