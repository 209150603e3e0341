import AdaptiveScript.CallStack
import AdaptiveScript.Heap
import AdaptiveScript.Program.Basic

/-! # Raising Values

  Any value can be raised. A raised object is taken apart into a type, its
  class name, and a message, its `message` field; the traceback rendered
  from the call stack is stored in its `stacktrace` field. That field is
  only ever defined once, so an object raised again keeps the traceback of
  its first raise:

      ValueError: bad input
          at main:4:5 -> check()
          at main:9:1 -> @.script()
-/

namespace AdaptiveScript

namespace Raise

/-- The field that a raised object's traceback is stored in. -/
def stacktraceField : String := "stacktrace"

/-- The field that holds a raised object's message. -/
def messageField : String := "message"

/-- The name of the top-level body in tracebacks. -/
def scriptName : String := "@.script"

/-- One line of a traceback. -/
def line (f : BacktraceFrame) : String :=
  "\tat " ++ f.source ++ Location.suffix f.location ++ " -> " ++
    (if f.function = programName then scriptName else f.function) ++ "()"

/-- A text with the line of one more frame, below what there is already. -/
def addLine (text : String) (f : BacktraceFrame) : String :=
  (if text.isEmpty then text else text ++ "\n") ++ line f

/-- The lines of a backtrace below a header, which is left out when it is
empty. -/
def traceback (header : String) (b : Backtrace) : String := b.foldl addLine header

/-- The message of a raised object. -/
def objectMessage (h : Heap) (id : ObjectId) : String :=
  match h.field? id messageField with
  | none | some .nil => ""
  | some v => v.display h.className

/-- The error of raising a value at a location, and the heap in which a
raised object holds its traceback. -/
def raise (value : Value) (location : Location) (stack : CallStack) (h : Heap) :
    EvalError × Heap :=
  let backtrace := stack.capture (some location)
  match value with
  | .object id =>
    let typeName := h.className id
    let message := objectMessage h id
    let rendered := traceback (raiseHeader typeName message) backtrace
    let (fresh, h) := h.defineOnce id stacktraceField (.str rendered)
    let text :=
      if fresh then rendered
      else match h.field? id stacktraceField with
        | some v => v.display h.className
        | none => rendered
    ({ EvalError.raised (some typeName) message value with
        backtrace := some backtrace, traceback := some text }, h)
  | value =>
    ({ EvalError.raised none (value.display h.className) value with
        backtrace := some backtrace }, h)

end Raise

end AdaptiveScript
