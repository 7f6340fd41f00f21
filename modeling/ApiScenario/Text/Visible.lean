import ApiScenario.Text.Combining
import ApiScenario.Text.Printable

/-!
# Visible text

Messages show characters and texts of the source between quotes in such a way that each of them
can be told from all others on paper. The usual letters after a backslash stand for NUL, tab,
line breaks and the backslash. The quote in use is escaped. What is not printable, or would be
drawn onto its neighbour, is written by its code point in hexadecimal.
-/

namespace ApiScenario.Visible

/-- One character inside the given quotes. -/
def escapeChar (quote c : Char) : List Char :=
  if c = '\x00' then ['\\', '0']
  else if c = '\t' then ['\\', 't']
  else if c = '\r' then ['\\', 'r']
  else if c = '\n' then ['\\', 'n']
  else if c = '\\' ∨ c = quote then ['\\', c]
  else if Printable.isPrintable c && !Combining.isCombining c then [c]
  else '\\' :: 'u' :: '\x7b' :: (Nat.toDigits 16 c.toNat ++ ['\x7d'])

/-- A character between single quotes. -/
def char (c : Char) : String := String.ofList ('\x27' :: (escapeChar '\x27' c ++ ['\x27']))

/-- A text between double quotes. -/
def string (s : String) : String :=
  String.ofList ('"' :: (s.toList.flatMap (escapeChar '"') ++ ['"']))

end ApiScenario.Visible
