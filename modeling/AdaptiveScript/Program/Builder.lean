import AdaptiveScript.Program.Basic

/-! # Building Programs

  A builder hands out the numbers of a function: slots in the order of
  declaration, and the numbers of operator and call nodes in the order in
  which the nodes are finished, operands before the node that joins them
  and left before right. Numbers have 32 bits; a counter that has reached
  the largest one stays there.

  A draft is a tree whose nodes need not have a number yet. Building it
  numbers the nodes without one.
-/

namespace AdaptiveScript

/-- The largest number that a builder hands out. -/
def maxId : Nat := 0xffffffff

/-! ### Counters -/

/-- The next numbers of operator and call nodes. -/
structure Counters where
  site : Nat := 0
  call : Nat := 0
  deriving DecidableEq, Repr, Inhabited

/-- The counter after a number was handed out. -/
def nextId (n : Nat) : Nat := min (n + 1) maxId

namespace Counters

/-- The number of an operator node: the given one, or else the next. -/
def takeSite (c : Counters) : Option Nat → Nat × Counters
  | some id => (id, c)
  | none => (c.site, { c with site := nextId c.site })

/-- The number of a call node: the given one, or else the next. -/
def takeCall (c : Counters) : Option Nat → Nat × Counters
  | some id => (id, c)
  | none => (c.call, { c with call := nextId c.call })

end Counters

/-! ### Numbering -/

/-- An expression in which nodes may lack a number. -/
abbrev DraftExpr := Expr (Option Nat)

/-- A statement in which nodes may lack a number. -/
abbrev DraftStmt := Stmt (Option Nat)

namespace Expr

mutual

/-- Numbers the nodes of an expression, each after its operands. -/
def number : DraftExpr → Counters → Expr Nat × Counters
  | .lit v, c => (.lit v, c)
  | .list items, c =>
    let (items, c) := numberAll items c
    (.list items, c)
  | .var slot, c => (.var slot, c)
  | .binary op left right id, c =>
    let (left, c) := left.number c
    let (right, c) := right.number c
    let (id, c) := c.takeSite id
    (.binary op left right id, c)
  | .call callee args id location, c =>
    let (args, c) := numberAll args c
    let (id, c) := c.takeCall id
    (.call callee args id location, c)
  | .functionRef name, c => (.functionRef name, c)
  | .new cls fields, c =>
    let (fields, c) := numberFields fields c
    (.new cls fields, c)
  | .field object name, c =>
    let (object, c) := object.number c
    (.field object name, c)

/-- Numbers expressions from left to right. -/
def numberAll : List DraftExpr → Counters → List (Expr Nat) × Counters
  | [], c => ([], c)
  | e :: es, c =>
    let (e, c) := e.number c
    let (es, c) := numberAll es c
    (e :: es, c)

/-- Numbers the values of fields from left to right. -/
def numberFields : List (String × DraftExpr) → Counters → List (String × Expr Nat) × Counters
  | [], c => ([], c)
  | (name, e) :: es, c =>
    let (e, c) := e.number c
    let (es, c) := numberFields es c
    ((name, e) :: es, c)

end

end Expr

/-- Numbers the nodes of a statement; an object before the value that is
stored in it. -/
def Stmt.number : DraftStmt → Counters → Stmt Nat × Counters
  | .expr e, c =>
    let (e, c) := e.number c
    (.expr e, c)
  | .assign slot value, c =>
    let (value, c) := value.number c
    (.assign slot value, c)
  | .setField object name value, c =>
    let (object, c) := object.number c
    let (value, c) := value.number c
    (.setField object name value, c)
  | .ret none, c => (.ret none, c)
  | .ret (some e), c =>
    let (e, c) := e.number c
    (.ret (some e), c)
  | .raise value location, c =>
    let (value, c) := value.number c
    (.raise value location, c)

/-! ### Function builders -/

/-- A function that is being built. -/
structure FunctionBuilder where
  name : String
  source : String
  params : List Nat := []
  locals : List String := []
  body : List (Stmt Nat) := []
  counters : Counters := {}
  deriving Inhabited

/-- A declaration of a local. -/
inductive Declaration where
  | param (name : String)
  | plain (name : String)
  deriving DecidableEq, Repr

namespace FunctionBuilder

/-- The slot of the next local. -/
def nextSlot (b : FunctionBuilder) : Nat := min b.locals.length maxId

/-- Declares a local. Parameters are bound in the order of declaration. -/
def declare (b : FunctionBuilder) : Declaration → FunctionBuilder
  | .param name =>
    { b with params := b.params ++ [b.nextSlot], locals := b.locals ++ [name] }
  | .plain name => { b with locals := b.locals ++ [name] }

/-- Numbers a statement and appends it to the body. -/
def append (b : FunctionBuilder) (s : DraftStmt) : FunctionBuilder :=
  let (s, counters) := s.number b.counters
  { b with body := b.body ++ [s], counters }

/-- The finished function. -/
def finish (b : FunctionBuilder) : FunctionDef :=
  { name := b.name
    source := b.source
    params := b.params
    locals := b.locals
    body := b.body
    siteCount := b.counters.site
    callCount := b.counters.call }

end FunctionBuilder

/-- A function as it is written down: declarations, then statements. -/
structure FunctionDraft where
  name : String
  declarations : List Declaration
  body : List DraftStmt
  deriving Inhabited

/-- Builds a function that stands in the given source. -/
def FunctionDraft.build (d : FunctionDraft) (source : String) : FunctionDef :=
  let b : FunctionBuilder := { name := d.name, source }
  let b := d.declarations.foldl FunctionBuilder.declare b
  (d.body.foldl FunctionBuilder.append b).finish

end AdaptiveScript
