import AdaptiveScript.Builtin.Registry
import AdaptiveScript.Heap
import AdaptiveScript.Program.Basic

/-! # Linked Programs

  A program whose names are resolved. Operator nodes and calls of builtins
  have state while the program runs; the state is kept apart from the tree
  (`AdaptiveScript.Machine.State`), and such a node holds its place in it:
  operator nodes are counted per function in the order in which they are
  finished, and calls of builtins likewise.
-/

namespace AdaptiveScript

/-! ### Nodes -/

/-- What a call invokes. -/
inductive CallTarget where
  /-- A function of the program, by its position. -/
  | user (index : Nat)
  /-- A builtin, and the place of this call among those of builtins. -/
  | builtin (entry : Builtin.Entry) (inst : Nat)

/-- A linked expression. -/
inductive Node where
  | const (value : Value)
  | list (items : List Node)
  | var (slot : Nat)
  /-- `site` is the place of this node among the operator nodes. -/
  | binary (op : Operator) (left right : Node) (site : Nat)
  | call (target : CallTarget) (args : List Node) (location : Location)
  | new (cls : ClassRef) (fields : List (String × Node))
  | field (object : Node) (name : String)

/-- A linked statement. -/
inductive StmtNode where
  | expr (node : Node)
  | assign (slot : Nat) (value : Node)
  | setField (object : Node) (name : String) (value : Node)
  | ret (value : Option Node)
  | raise (value : Node) (location : Location)

/-! ### What a node contains

    Nodes that have state, in the order in which they are finished. -/

namespace Node

mutual

/-- The operators of an expression, operands first and left before right. -/
def operators : Node → List Operator
  | .const _ => []
  | .list items => operatorsAll items
  | .var _ => []
  | .binary op left right _ => left.operators ++ right.operators ++ [op]
  | .call _ args _ => operatorsAll args
  | .new _ fields => operatorsFields fields
  | .field object _ => object.operators

/-- The operators of expressions, from left to right. -/
def operatorsAll : List Node → List Operator
  | [] => []
  | n :: ns => n.operators ++ operatorsAll ns

/-- The operators of field values, from left to right. -/
def operatorsFields : List (String × Node) → List Operator
  | [] => []
  | (_, n) :: ns => n.operators ++ operatorsFields ns

end

/-- The builtin that a target invokes. -/
def builtinOf : CallTarget → List Builtin.Entry
  | .user _ => []
  | .builtin entry _ => [entry]

mutual

/-- The builtins that an expression calls, arguments first. -/
def builtins : Node → List Builtin.Entry
  | .const _ => []
  | .list items => builtinsAll items
  | .var _ => []
  | .binary _ left right _ => left.builtins ++ right.builtins
  | .call target args _ => builtinsAll args ++ builtinOf target
  | .new _ fields => builtinsFields fields
  | .field object _ => object.builtins

/-- The builtins that expressions call, from left to right. -/
def builtinsAll : List Node → List Builtin.Entry
  | [] => []
  | n :: ns => n.builtins ++ builtinsAll ns

/-- The builtins that field values call, from left to right. -/
def builtinsFields : List (String × Node) → List Builtin.Entry
  | [] => []
  | (_, n) :: ns => n.builtins ++ builtinsFields ns

end

end Node

namespace StmtNode

/-- The expressions of a statement, in the order of evaluation. -/
def nodes : StmtNode → List Node
  | .expr node => [node]
  | .assign _ value => [value]
  | .setField object _ value => [object, value]
  | .ret none => []
  | .ret (some value) => [value]
  | .raise value _ => [value]

end StmtNode

/-! ### Functions and programs -/

/-- A linked function. -/
structure LinkedFunction where
  name : String
  source : String
  params : List Nat
  locals : List String
  body : List StmtNode
  deriving Inhabited

namespace LinkedFunction

/-- Number of arguments. -/
def arity (f : LinkedFunction) : Nat := f.params.length

/-- All expressions of the body, in order. -/
def nodes (f : LinkedFunction) : List Node := f.body.flatMap (·.nodes)

/-- The operators of the body, one for every operator node. -/
def operators (f : LinkedFunction) : List Operator := Node.operatorsAll f.nodes

/-- The builtins of the body, one for every call of a builtin. -/
def builtins (f : LinkedFunction) : List Builtin.Entry := Node.builtinsAll f.nodes

end LinkedFunction

/-- One of the functions of a program. -/
inductive FunctionKey where
  | user (index : Nat)
  | main
  deriving DecidableEq, Repr, Inhabited

/-- A program that is ready to run. -/
structure LinkedProgram where
  source : String
  functions : Array LinkedFunction
  main : LinkedFunction
  /-- One class for every class name, in the order of first use. -/
  classes : List ClassRef

namespace LinkedProgram

/-- The position of a named function. -/
def index? (p : LinkedProgram) (name : String) : Option Nat :=
  p.functions.findIdx? (·.name == name)

/-- A named function; the top-level body is not one. -/
def function? (p : LinkedProgram) (name : String) : Option LinkedFunction :=
  p.functions.find? (·.name == name)

/-- The class of a name. -/
def class? (p : LinkedProgram) (name : String) : Option ClassRef :=
  p.classes.find? (·.name == name)

end LinkedProgram

end AdaptiveScript
