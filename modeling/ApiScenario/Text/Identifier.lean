/-!
# Identifiers

An identifier is a letter or underscore followed by letters, digits and underscores. Letters and
digits are those of ASCII. `split` cuts the longest identifier off the front of a text; with
`split_append` nothing is lost, and `split_length` gives readers that loop over a text their
measure.
-/

namespace ApiScenario.Identifier

/-- What an identifier can begin with. -/
def isFirst (c : Char) : Bool := c.isAlpha || c == '_'

/-- What can follow inside an identifier. -/
def isNext (c : Char) : Bool := c.isAlphanum || c == '_'

/-- Whether a whole text is one identifier. -/
def isIdentifier : List Char → Bool
  | [] => false
  | c :: cs => isFirst c && cs.all isNext

/-- The longest identifier at the front of a text, empty if there is none, and what follows it. -/
def split : List Char → List Char × List Char
  | [] => ([], [])
  | c :: cs => if isFirst c then (c :: cs.takeWhile isNext, cs.dropWhile isNext) else ([], c :: cs)

theorem split_append (cs : List Char) : (split cs).1 ++ (split cs).2 = cs := by
  cases cs with
  | nil => rfl
  | cons c cs => by_cases h : isFirst c <;> simp [split, h]

theorem split_length (cs : List Char) : (split cs).2.length ≤ cs.length := by
  have h := congrArg List.length (split_append cs)
  simp only [List.length_append] at h
  omega

end ApiScenario.Identifier
