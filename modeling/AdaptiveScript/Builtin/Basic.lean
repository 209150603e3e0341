import AdaptiveScript.Operator.Strategies
import AdaptiveScript.Value.Hash

/-! # Builtins

  A builtin is declared by its name, its arity and its implementation. Every
  call node of a program has its own instance of the builtin that it calls,
  and with it a memory of its own. An implementation is a pure function: it
  receives its arguments and everything else that it may depend on, and
  answers with a result, the texts that it prints and its new memory.

  That is an assumption about the builtins of a registry, which the type of
  implementations makes and no law repeats: a builtin sets no field of an
  object, and keeps nothing from one call to the next but its memory. Those of
  the core registry are of this form. A builtin that is not has no counterpart
  here.
-/

namespace AdaptiveScript

namespace Builtin

/-- What an instance remembers between its calls. -/
structure Memory where
  /-- Number of calls with an acceptable number of arguments so far. -/
  calls : Nat := 0
  /-- Specialization state on the arguments. -/
  site : Site := .fresh
  deriving DecidableEq, Repr, Inhabited

/-- Everything that an implementation may depend on. -/
structure Invocation where
  args : List Value
  /-- Class names of the objects among the arguments. -/
  names : ClassNames
  /-- The clock, in microseconds since the epoch. -/
  now : Nat
  /-- Where the objects lie. -/
  address : Addresses
  /-- What hashes values. -/
  hasher : Hasher := Hash.multiplicative
  memory : Memory := {}

/-- The arguments as the operands of a strategy table. -/
def Invocation.operands (i : Invocation) : Operands := { values := i.args, names := i.names }

/-- What an implementation answers. -/
structure Answer where
  result : EvalResult
  /-- The texts to print, in order. -/
  printed : List String := []
  /-- The specialization state afterwards. -/
  site : Site := .fresh

/-- The behaviour of a builtin. -/
abbrev Implementation := Invocation → Answer

/-- The declaration of a builtin. -/
structure Entry where
  name : String
  /-- Variadic builtins take any number of arguments. -/
  variadic : Bool
  /-- Number of arguments of a builtin that is not variadic. -/
  arity : Nat
  run : Implementation

/-- What a call of an instance yields. -/
structure Reply where
  result : EvalResult
  printed : List String
  memory : Memory

namespace Entry

/-- Whether the builtin takes `n` arguments. -/
def accepts (e : Entry) (n : Nat) : Bool := e.variadic || n == e.arity

/-- Calls an instance: the number of arguments is checked before the
implementation runs. -/
def invoke (e : Entry) (i : Invocation) : Reply :=
  if e.accepts i.args.length then
    let a := e.run i
    { result := a.result
      printed := a.printed
      memory := { calls := i.memory.calls + 1, site := a.site } }
  else
    { result := .error (.arityMismatch e.name e.arity i.args.length)
      printed := []
      memory := i.memory }

/-- A declaration shown for inspection. -/
def inspect (e : Entry) : String :=
  "BuiltinEntry \x7b name: " ++ Text.quoted e.name ++ ", variadic: " ++ Value.boolText e.variadic ++
    ", arity: " ++ toString e.arity ++ ", .. \x7d"

/-- An instance shown for inspection. -/
def inspectInstance (e : Entry) : String := "BuiltinInstance(" ++ e.name ++ ")"

end Entry

end Builtin

end AdaptiveScript
