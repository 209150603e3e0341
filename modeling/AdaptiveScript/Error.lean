import AdaptiveScript.Location
import AdaptiveScript.Value.Render

/-! # Evaluation Errors

  An error is a cause, `ErrorKind`, with what was known where it arose: the
  raised value, the call path and the rendered traceback. The message is a
  function of the cause. Overflow is no error: an operator node that
  overflows generalises instead.
-/

namespace AdaptiveScript

/-! ### Causes -/

/-- Coarse class of an error. -/
inductive Category where
  /-- Operands or arguments of the wrong type, number or range. -/
  | argument
  /-- A repetition whose result would be too large. -/
  | bounds
  /-- Raised by the program itself. -/
  | raised
  /-- Evaluation ran out of call depth. -/
  | resource
  deriving DecidableEq, Repr

/-- Why an evaluation failed. -/
inductive ErrorKind where
  /-- No strategy for these operands, given by their descriptions. -/
  | unsupportedOperands (operation : String) (operands : List String)
  | arityMismatch (name : String) (expected got : Nat)
  | negativeCount (operation : String) (count : Int64)
  | invalidCodePoint (code : Int64)
  /-- `size` counts `unit`s and exceeds `limit`. -/
  | sizeOutOfBounds (operation : String) (size limit : Nat) (unit : String)
  /-- Raised by the program: the class of a raised object, if it is one. -/
  | raised (typeName : Option String) (message : String)
  | stackOverflow (depth : Nat)
  deriving DecidableEq, Repr, Inhabited

/-- `type: message`, or the type alone when the message is empty. -/
def raiseHeader (typeName message : String) : String :=
  if message.isEmpty then typeName else typeName ++ ": " ++ message

namespace ErrorKind

/-- The text of a cause. -/
def message : ErrorKind → String
  | .unsupportedOperands operation operands =>
    "unsupported operand types for `" ++ operation ++ "`: " ++ String.intercalate " and " operands
  | .arityMismatch name expected got =>
    name ++ "() expects " ++ toString expected ++
      (if expected = 1 then " argument" else " arguments") ++ ", got " ++ toString got
  | .negativeCount operation count =>
    "`" ++ operation ++ "` cannot repeat a negative number of times (" ++ Value.intText count ++ ")"
  | .invalidCodePoint code => Value.intText code ++ " is not a valid code point"
  | .sizeOutOfBounds operation size limit unit =>
    "result of `" ++ operation ++ "` would have " ++ toString size ++ " " ++ unit ++
      ", exceeding the limit of " ++ toString limit
  | .raised none message => message
  | .raised (some typeName) message => raiseHeader typeName message
  | .stackOverflow depth => "maximum recursion depth exceeded (limit: " ++ toString depth ++ ")"

/-- The class of a cause. -/
def category : ErrorKind → Category
  | .unsupportedOperands .. | .arityMismatch .. | .negativeCount .. | .invalidCodePoint .. =>
    .argument
  | .sizeOutOfBounds .. => .bounds
  | .raised .. => .raised
  | .stackOverflow .. => .resource

/-- Whether the program itself raised. -/
def isRaised : ErrorKind → Bool
  | .raised .. => true
  | _ => false

end ErrorKind

/-! ### Backtraces -/

/-- One step of a call path: a function and where it was executing. -/
structure BacktraceFrame where
  function : String
  /-- Name of the source the function stands in. -/
  source : String
  location : Option Location
  deriving DecidableEq, Repr, Inhabited

/-- The call path at an error, innermost first. -/
abbrev Backtrace := List BacktraceFrame

namespace Backtrace

/-- One line of a backtrace. -/
def frameText (index : Nat) (f : BacktraceFrame) : String :=
  "  " ++ toString index ++ ": " ++ f.function ++ " (" ++ f.source ++
    Location.suffix f.location ++ ")\n"

/-- The lines of a backtrace, counted from `index` on. -/
def linesFrom (index : Nat) : Backtrace → String
  | [] => ""
  | f :: fs => frameText index f ++ linesFrom (index + 1) fs

/-- A backtrace as text; an empty one has none. -/
def render (b : Backtrace) : String :=
  if b.isEmpty then "" else "stack backtrace:\n" ++ linesFrom 0 b

end Backtrace

/-! ### Errors -/

/-- A failed evaluation. -/
structure EvalError where
  kind : ErrorKind
  /-- The text of the error: what its cause says, wherever an error is made. -/
  message : String := kind.message
  /-- The raised value. -/
  value : Option Value := none
  /-- The call path where the error arose. -/
  backtrace : Option Backtrace := none
  /-- The traceback of a raised object. -/
  traceback : Option String := none
  deriving Inhabited

namespace EvalError

/-- The error for operands that no strategy takes. -/
def unsupportedOperands (names : ClassNames) (operation : String) (operands : List Value) :
    EvalError :=
  { kind := .unsupportedOperands operation (operands.map (·.describe names)) }

/-- The error for a wrong number of arguments. -/
def arityMismatch (name : String) (expected got : Nat) : EvalError :=
  { kind := .arityMismatch name expected got }

/-- The error for a raised value. -/
def raised (typeName : Option String) (message : String) (value : Value) : EvalError :=
  { kind := .raised typeName message, value := some value }

/-- The error for a call beyond the depth limit. -/
def stackOverflow (limit : Nat) : EvalError := { kind := .stackOverflow limit }

end EvalError

end AdaptiveScript
