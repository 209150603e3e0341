import AdaptiveScript.Value.Basic
import AdaptiveScript.Decimal.FloatText
import AdaptiveScript.Text.Quoted

/-! # Rendering Values

  Three text forms. `display` is what `print` and text concatenation use;
  `source` quotes text and is used in diagnostics; `inspect` also names the
  type. The first two need only the class name of an object, never its
  fields, so they are the same before and after any change to an object.
-/

namespace AdaptiveScript

/-- The class name of every object. -/
abbrev ClassNames := ObjectId → String

namespace Value

/-- An object as text. -/
def objectText (className : String) : String := "<" ++ className ++ " object>"

/-- A callable as text. -/
def callableText (name : String) (builtin : Bool) : String :=
  (if builtin then "<builtin " else "<function ") ++ name ++ ">"

/-- Items between brackets. -/
def bracketed (items : List String) : String := "[" ++ String.intercalate ", " items ++ "]"

/-- The decimal text of an integer. -/
def intText (n : Int64) : String := toString n.toInt

/-- `true` or `false`. -/
def boolText (b : Bool) : String := if b then "true" else "false"

mutual

/-- The textual form of a value; text stands as it is. -/
def display (names : ClassNames) : Value → String
  | .nil => "nil"
  | .bool b => boolText b
  | .int n => intText n
  | .float x => Decimal.floatText x
  | .str s => s
  | .list items => bracketed (displayAll names items)
  | .object id => objectText (names id)
  | .callable name builtin => callableText name builtin

/-- The textual forms of the items of a list. -/
def displayAll (names : ClassNames) : List Value → List String
  | [] => []
  | v :: vs => v.display names :: displayAll names vs

end

mutual

/-- The source-like form of a value: as `display`, with text in quotes. -/
def source (names : ClassNames) : Value → String
  | .str s => "\"" ++ s ++ "\""
  | .list items => bracketed (sourceAll names items)
  | v => v.display names

/-- The source-like forms of the items of a list. -/
def sourceAll (names : ClassNames) : List Value → List String
  | [] => []
  | v :: vs => v.source names :: sourceAll names vs

end

mutual

/-- The form for inspection: the type around the content. The text of an
object is given by its identity. -/
def inspect (objects : ObjectId → String) : Value → String
  | .nil => "Nil"
  | .bool b => "Bool(" ++ boolText b ++ ")"
  | .int n => "Int(" ++ intText n ++ ")"
  | .float x => "Float(" ++ Decimal.floatText x ++ ")"
  | .str s => "Str(" ++ Text.quoted s ++ ")"
  | .list items => "List(" ++ bracketed (inspectAll objects items) ++ ")"
  | .object id => objects id
  | .callable name _ => "Callable(" ++ name ++ ")"

/-- The inspection forms of the items of a list. -/
def inspectAll (objects : ObjectId → String) : List Value → List String
  | [] => []
  | v :: vs => v.inspect objects :: inspectAll objects vs

end

/-- A value with its type, as operands are described in error messages. -/
def describe (names : ClassNames) (v : Value) : String :=
  v.source names ++ " (" ++ v.typeName ++ ")"

end Value

end AdaptiveScript
