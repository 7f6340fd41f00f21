/-!
# JSON

JSON values and their compact form on one line. A text is written raw apart from the quote, the
backslash and the control characters below the space, which have short escapes or are written by
their code point.
-/

namespace ApiScenario

/-- A JSON value with natural numbers. The fields of an object are in the order of writing. -/
inductive Json where
  | null
  | number (n : Nat)
  | string (s : String)
  | array (items : List Json)
  | object (fields : List (String × Json))

namespace Json

/-- One character inside a JSON string. -/
def escapeChar (c : Char) : List Char :=
  if c = '"' then ['\\', '"']
  else if c = '\\' then ['\\', '\\']
  else if c = '\n' then ['\\', 'n']
  else if c = '\r' then ['\\', 'r']
  else if c = '\t' then ['\\', 't']
  else if c = '\x08' then ['\\', 'b']
  else if c = '\x0c' then ['\\', 'f']
  else if c.toNat < 0x10 then "\\u000".toList ++ Nat.toDigits 16 c.toNat
  else if c.toNat < 0x20 then "\\u00".toList ++ Nat.toDigits 16 c.toNat
  else [c]

/-- A JSON string. -/
def stringChars (s : String) : List Char := '"' :: (s.toList.flatMap escapeChar ++ ['"'])

mutual

/-- The compact form of a value. -/
def chars : Json → List Char
  | null => "null".toList
  | number n => Nat.toDigits 10 n
  | string s => stringChars s
  | array items => '[' :: (itemChars items ++ [']'])
  | object fields => '\x7b' :: (fieldChars fields ++ ['\x7d'])

/-- The compact forms of values, separated by commas. -/
def itemChars : List Json → List Char
  | [] => []
  | [x] => x.chars
  | x :: rest => x.chars ++ ',' :: itemChars rest

/-- The compact forms of fields, separated by commas. -/
def fieldChars : List (String × Json) → List Char
  | [] => []
  | [(name, x)] => stringChars name ++ ':' :: x.chars
  | (name, x) :: rest => stringChars name ++ ':' :: (x.chars ++ ',' :: fieldChars rest)

end

/-- The compact form of a value, as text. -/
def text (j : Json) : String := String.ofList j.chars

/-- The value of something that can be missing. -/
def ofOption {α : Type} (f : α → Json) : Option α → Json
  | some a => f a
  | none => null

end Json

end ApiScenario
