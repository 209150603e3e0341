import AdaptiveScript.Location
import AdaptiveScript.Operator.Basic
import AdaptiveScript.Value.Basic

/-! # Programs

  The tree that a program is made of. Operator and call nodes carry a
  number of their own, of a type that is a parameter of the tree: plain
  numbers in a finished program, optional ones in a draft
  (`AdaptiveScript.Program.Builder`), and none at all when only the shape of
  a tree matters.
-/

namespace AdaptiveScript

/-! ### Expressions -/

/-- A constant of a program. -/
inductive Literal where
  | nil
  | bool (b : Bool)
  | int (n : Int64)
  | float (x : Float)
  | str (text : String)
  deriving Inhabited

/-- The value of a constant. -/
def Literal.toValue : Literal → Value
  | .nil => .nil
  | .bool b => .bool b
  | .int n => .int n
  | .float x => .float x
  | .str s => .str s

/-- An expression whose operator and call nodes are numbered in `ι`. -/
inductive Expr (ι : Type) where
  | lit (value : Literal)
  | list (items : List (Expr ι))
  /-- The value of a local. -/
  | var (slot : Nat)
  | binary (op : Operator) (left right : Expr ι) (id : ι)
  /-- A call of a function or a builtin by name. -/
  | call (callee : String) (args : List (Expr ι)) (id : ι) (location : Location)
  /-- A function or a builtin as a value. -/
  | functionRef (name : String)
  /-- A new object; a field named twice has its last value. -/
  | new (cls : String) (fields : List (String × Expr ι))
  /-- A field of an object, nil if it is absent. -/
  | field (object : Expr ι) (name : String)
  deriving Inhabited

/-! ### Statements -/

/-- A statement. -/
inductive Stmt (ι : Type) where
  | expr (e : Expr ι)
  | assign (slot : Nat) (value : Expr ι)
  | setField (object : Expr ι) (name : String) (value : Expr ι)
  /-- Leaves the function; without an expression the result is nil. -/
  | ret (value : Option (Expr ι))
  | raise (value : Expr ι) (location : Location)
  deriving Inhabited

/-! ### Functions and programs -/

/-- The name of the top-level body, as a function. -/
def programName : String := ":program"

/-- A function of a program. -/
structure FunctionDef where
  name : String
  /-- Name of the source the function stands in. -/
  source : String
  /-- The slots of the parameters, in call order. -/
  params : List Nat
  /-- The names of all locals, parameters included, by slot. -/
  locals : List String
  body : List (Stmt Nat)
  /-- The numbers of operator nodes lie below this bound. -/
  siteCount : Nat
  /-- The numbers of call nodes lie below this bound. -/
  callCount : Nat
  deriving Inhabited

namespace FunctionDef

/-- The name of a local. -/
def localName? (f : FunctionDef) (slot : Nat) : Option String := f.locals[slot]?

/-- Whether the function is the top-level body. -/
def isProgram (f : FunctionDef) : Bool := f.name == programName

end FunctionDef

/-- Named functions and a top-level body. -/
structure Program where
  source : String
  functions : List FunctionDef
  main : FunctionDef
  deriving Inhabited

end AdaptiveScript
