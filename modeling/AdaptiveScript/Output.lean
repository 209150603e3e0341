/-! # Output

  Where printed text goes: to standard output, into a buffer, or nowhere.
-/

namespace AdaptiveScript

/-- A destination of printed text. -/
inductive Sink where
  | stdout
  /-- Keeps everything that was printed. -/
  | buffer (text : String)
  | silent
  deriving DecidableEq, Repr, Inhabited

namespace Sink

/-- Prints a text: the sink afterwards, and what reaches standard output. -/
def print (text : String) : Sink → Sink × String
  | .stdout => (.stdout, text)
  | .buffer kept => (.buffer (kept ++ text), "")
  | .silent => (.silent, "")

/-- Prints a line. -/
def printLine (text : String) (s : Sink) : Sink × String := s.print (text ++ "\n")

/-- What the sink has kept. -/
def output : Sink → String
  | .buffer kept => kept
  | _ => ""

/-- Forgets what the sink has kept. -/
def clear : Sink → Sink
  | .buffer _ => .buffer ""
  | s => s

end Sink

end AdaptiveScript
