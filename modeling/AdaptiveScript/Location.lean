/-! # Source Locations

  A position in a source text: where a call or a raise stands. Only its
  text form matters to the rest of the library.
-/

namespace AdaptiveScript

/-- A line and a column, both counted by whoever wrote the program. -/
structure Location where
  line : Nat
  column : Nat
  deriving DecidableEq, Repr, Inhabited

namespace Location

/-- The text form `line:column`. -/
def render (l : Location) : String := s!"{l.line}:{l.column}"

/-- How a location is appended to a source name: `:line:column`, or
nothing when there is no location. -/
def suffix : Option Location → String
  | none => ""
  | some l => ":" ++ l.render

end Location

end AdaptiveScript
