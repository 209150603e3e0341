import AdaptiveScript.Text.Blank
import AdaptiveScript.Text.Extender

/-! # Quoted Text

  Text between double quotes with the characters escaped that would not
  show: the form in which values are shown for inspection.
-/

namespace AdaptiveScript.Text

/-- The lowercase hexadecimal digits of a number. -/
def hexDigits (n : Nat) : List Char := Nat.toDigits 16 n

/-- Whether a character shows as a mark of its own. -/
def isShown (c : Char) : Bool := !isExtender c && !isBlank c

/-- A character given by its code. -/
def escapeCode (c : Char) : List Char := ['\\', 'u', '{'] ++ hexDigits c.toNat ++ ['}']

/-- One character inside quotes. -/
def escape (c : Char) : List Char :=
  if c = '"' then ['\\', '"']
  else if c = '\\' then ['\\', '\\']
  else if c = '\n' then ['\\', 'n']
  else if c = '\r' then ['\\', 'r']
  else if c = '\t' then ['\\', 't']
  else if c.toNat = 0 then ['\\', '0']
  else if isShown c then [c]
  else escapeCode c

/-- Text in quotes, each character escaped where it needs it. -/
def quoted (s : String) : String :=
  String.ofList ('"' :: s.toList.flatMap escape ++ ['"'])

end AdaptiveScript.Text
