/-! # Values

  What a program computes with. Scalars, text and lists are immutable and
  compare by their structure; an object is a reference into a heap
  (`AdaptiveScript.Heap`) and compares by identity. A callable is a function
  or a builtin named by a program.
-/

namespace AdaptiveScript

/-- The identity of an object: its index in the heap. -/
abbrev ObjectId := Nat

/-- A value of the language. -/
inductive Value where
  | nil
  | bool (b : Bool)
  | int (n : Int64)
  | float (x : Float)
  /-- Immutable text. -/
  | str (text : String)
  /-- Immutable list. -/
  | list (items : List Value)
  /-- Reference to an object of the heap. -/
  | object (id : ObjectId)
  /-- Reference to a function, or to a builtin if `builtin` holds. -/
  | callable (name : String) (builtin : Bool)
  deriving Inhabited

/-- An integer as the nearest float. -/
def widen (n : Int64) : Float := Float.ofInt n.toInt

namespace Value

/-! ### Views -/

/-- The name of a value's type, as used in diagnostics. -/
def typeName : Value → String
  | .nil => "nil"
  | .bool _ => "bool"
  | .int _ => "int"
  | .float _ => "float"
  | .str _ => "str"
  | .list _ => "list"
  | .object _ => "object"
  | .callable _ _ => "function"

/-- Only `nil` is nil. -/
def isNil : Value → Bool
  | .nil => true
  | _ => false

/-- Everything but `nil` and `false` is truthy. -/
def isTruthy : Value → Bool
  | .nil => false
  | .bool b => b
  | _ => true

/-- Whether the value is text. -/
def isStr : Value → Bool
  | .str _ => true
  | _ => false

/-- The boolean, if the value is one. -/
def bool? : Value → Option Bool
  | .bool b => some b
  | _ => none

/-- The integer, if the value is one. -/
def int? : Value → Option Int64
  | .int n => some n
  | _ => none

/-- The float, if the value is one. -/
def float? : Value → Option Float
  | .float x => some x
  | _ => none

/-- The number as a float, if the value is one: integers are widened. -/
def number? : Value → Option Float
  | .int n => some (widen n)
  | .float x => some x
  | _ => none

/-- The text, if the value is text. -/
def str? : Value → Option String
  | .str s => some s
  | _ => none

/-- The items, if the value is a list. -/
def list? : Value → Option (List Value)
  | .list items => some items
  | _ => none

/-- The identity, if the value is an object. -/
def object? : Value → Option ObjectId
  | .object id => some id
  | _ => none

/-! ### Equality -/

mutual

/-- Equality of the language: floats by their own comparison (a NaN differs
from itself, the two zeros are equal), objects by identity. -/
def equals : Value → Value → Bool
  | .nil, .nil => true
  | .bool a, .bool b => a == b
  | .int a, .int b => a == b
  | .float a, .float b => a == b
  | .str a, .str b => a == b
  | .list a, .list b => equalsAll a b
  | .object a, .object b => a == b
  | .callable n b, .callable n' b' => n == n' && b == b'
  | _, _ => false

/-- Equality of lists, item by item. -/
def equalsAll : List Value → List Value → Bool
  | [], [] => true
  | a :: as, b :: bs => a.equals b && equalsAll as bs
  | _, _ => false

end

instance : BEq Value := ⟨equals⟩

end Value

end AdaptiveScript
