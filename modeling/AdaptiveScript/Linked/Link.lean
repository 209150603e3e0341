import AdaptiveScript.Linked.Basic

/-! # Linking

  Linking checks a program and resolves its names, in one pass over each
  function. Function names come first: they are all known before the first
  body is looked at, so functions may call each other in any order. Calls
  resolve to functions of the program before builtins. Within a function
  every slot must be declared, and the numbers of operator nodes and of call
  nodes must lie below the function's bounds and be used once.

  A node is checked before its operands, and takes its place among the
  nodes with state after them.
-/

namespace AdaptiveScript

namespace Link

/-! ### Linker state -/

/-- What the names of a program can stand for. -/
structure Scope where
  /-- The names of the program's functions, in order. -/
  functions : List String
  registry : Registry
  /-- The identity of the first class that the program makes. -/
  firstClass : Nat

/-- What a name stands for. -/
inductive Callee where
  | user (index : Nat)
  | builtin (entry : Builtin.Entry)

/-- Resolves a name: functions of the program come before builtins. -/
def Scope.resolve (scope : Scope) (name : String) : Except LinkError Callee :=
  match scope.functions.idxOf? name with
  | some index => .ok (.user index)
  | none => (scope.registry.resolve name).map .builtin

/-- What has been met so far. -/
structure State where
  /-- The classes of the program. -/
  classes : List ClassRef
  /-- The numbers of the function's operator nodes. -/
  sites : List Nat := []
  /-- The numbers of the function's call nodes. -/
  calls : List Nat := []
  /-- How many operator nodes of the function are finished. -/
  siteCount : Nat := 0
  /-- How many calls of builtins of the function are finished. -/
  builtinCount : Nat := 0

/-- A linking step. -/
abbrev Linker := StateT State (Except LinkError)

/-! ### Checks -/

/-- Refuses a number of the function. -/
def invalid {α : Type} (f : FunctionDef) (kind : IdKind) (id : Nat) : Linker α :=
  throw (.invalidId f.name kind id)

/-- Checks that a slot is declared. -/
def checkSlot (f : FunctionDef) (slot : Nat) : Linker Unit :=
  if slot < f.locals.length then pure () else invalid f .slot slot

/-- Checks the number of an operator node. -/
def claimSite (f : FunctionDef) (id : Nat) : Linker Unit := do
  let s ← get
  if id < f.siteCount ∧ id ∉ s.sites then set { s with sites := id :: s.sites }
  else invalid f .site id

/-- Checks the number of a call node. -/
def claimCall (f : FunctionDef) (id : Nat) : Linker Unit := do
  let s ← get
  if id < f.callCount ∧ id ∉ s.calls then set { s with calls := id :: s.calls }
  else invalid f .call id

/-! ### Places and classes -/

/-- The place of an operator node that is finished. -/
def nextSite : Linker Nat := do
  let s ← get
  set { s with siteCount := s.siteCount + 1 }
  return s.siteCount

/-- The target of a call whose arguments are finished. -/
def target : Callee → Linker CallTarget
  | .user index => return .user index
  | .builtin entry => do
    let s ← get
    set { s with builtinCount := s.builtinCount + 1 }
    return .builtin entry s.builtinCount

/-- The class of a name, made at its first use. -/
def internClass (scope : Scope) (name : String) : Linker ClassRef := do
  let s ← get
  match s.classes.find? (·.name == name) with
  | some c => return c
  | none =>
    let c : ClassRef := { id := scope.firstClass + s.classes.length, name }
    set { s with classes := s.classes ++ [c] }
    return c

/-! ### Expressions and statements -/

mutual

/-- Links an expression of a function. -/
def expr (scope : Scope) (f : FunctionDef) : Expr Nat → Linker Node
  | .lit value => return .const value.toValue
  | .list items => return .list (← exprs scope f items)
  | .var slot => do
    checkSlot f slot
    return .var slot
  | .binary op left right id => do
    claimSite f id
    let left ← expr scope f left
    let right ← expr scope f right
    return .binary op left right (← nextSite)
  | .call callee args id location => do
    claimCall f id
    let callee ← scope.resolve callee
    let args ← exprs scope f args
    return .call (← target callee) args location
  | .functionRef name => do
    match ← scope.resolve name with
    | .user _ => return .const (.callable name false)
    | .builtin _ => return .const (.callable name true)
  | .new cls values => do
    let cls ← internClass scope cls
    return .new cls (← fields scope f values)
  | .field object name => return .field (← expr scope f object) name

/-- Links expressions from left to right. -/
def exprs (scope : Scope) (f : FunctionDef) : List (Expr Nat) → Linker (List Node)
  | [] => return []
  | e :: es => do
    let node ← expr scope f e
    return node :: (← exprs scope f es)

/-- Links field values from left to right. -/
def fields (scope : Scope) (f : FunctionDef) :
    List (String × Expr Nat) → Linker (List (String × Node))
  | [] => return []
  | (name, e) :: es => do
    let node ← expr scope f e
    return (name, node) :: (← fields scope f es)

end

/-- Links a statement of a function. -/
def stmt (scope : Scope) (f : FunctionDef) : Stmt Nat → Linker StmtNode
  | .expr e => return .expr (← expr scope f e)
  | .assign slot value => do
    checkSlot f slot
    return .assign slot (← expr scope f value)
  | .setField object name value => do
    let object ← expr scope f object
    return .setField object name (← expr scope f value)
  | .ret none => return .ret none
  | .ret (some value) => return .ret (some (← expr scope f value))
  | .raise value location => return .raise (← expr scope f value) location

/-- Links statements in order. -/
def stmts (scope : Scope) (f : FunctionDef) : List (Stmt Nat) → Linker (List StmtNode)
  | [] => return []
  | s :: ss => do
    let node ← stmt scope f s
    return node :: (← stmts scope f ss)

/-- Checks slots in order. -/
def checkSlots (f : FunctionDef) : List Nat → Linker Unit
  | [] => return ()
  | slot :: slots => do
    checkSlot f slot
    checkSlots f slots

/-! ### Functions and programs -/

/-- Links a function, given the classes of the program so far. -/
def function (scope : Scope) (f : FunctionDef) (classes : List ClassRef) :
    Except LinkError (LinkedFunction × List ClassRef) := do
  let (body, s) ← (do checkSlots f f.params; stmts scope f f.body : Linker _).run { classes }
  return ({ name := f.name, source := f.source, params := f.params, locals := f.locals, body },
    s.classes)

/-- Links functions in order. -/
def functions (scope : Scope) :
    List FunctionDef → List ClassRef → Except LinkError (List LinkedFunction × List ClassRef)
  | [], classes => return ([], classes)
  | f :: fs, classes => do
    let (f, classes) ← function scope f classes
    let (fs, classes) ← functions scope fs classes
    return (f :: fs, classes)

/-- Checks that no function has the name of the top-level body or of one
before it. -/
def checkNames (seen : List String) : List String → Except LinkError Unit
  | [] => return ()
  | name :: names =>
    if name = programName ∨ name ∈ seen then throw (.duplicateFunction name)
    else checkNames (name :: seen) names

end Link

/-- Links a program against a registry. The classes that it makes are
numbered from `firstClass` on. -/
def Program.linkFrom (firstClass : Nat) (p : Program) (registry : Registry) :
    Except LinkError LinkedProgram := do
  let names := p.functions.map (·.name)
  Link.checkNames [] names
  let scope : Link.Scope := { functions := names, registry, firstClass }
  let (functions, classes) ← Link.functions scope p.functions []
  let (main, classes) ← Link.function scope p.main classes
  return { source := p.source, functions := functions.toArray, main, classes }

/-- Links a program against a registry. -/
def Program.link (p : Program) (registry : Registry) : Except LinkError LinkedProgram :=
  p.linkFrom 0 registry

end AdaptiveScript
