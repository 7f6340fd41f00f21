import ApiScenario.Text.Identifier

/-!
# Names of Java classes

A class name begins with a letter, an underscore or a dollar sign, goes on with these and digits,
and is no word that the Java language keeps for itself.
-/

namespace ApiScenario.ClassName

/-- The name of a generated class when no usable one is given. -/
def fallback : String := "GeneratedTests"

/-- The words that Java keeps for itself. -/
def reserved : List String := [
  "abstract", "assert", "boolean", "break", "byte", "case", "catch", "char", "class", "const",
  "continue", "default", "do", "double", "else", "enum", "extends", "false", "final", "finally",
  "float", "for", "goto", "if", "implements", "import", "instanceof", "int", "interface", "long",
  "native", "new", "null", "package", "private", "protected", "public", "return", "short",
  "static", "strictfp", "super", "switch", "synchronized", "this", "throw", "throws",
  "transient", "true", "try", "var", "void", "volatile", "while", "_"
]

/-- What a class name can begin with. -/
def isFirst (c : Char) : Bool := Identifier.isFirst c || c == '$'

/-- What can follow inside a class name. -/
def isNext (c : Char) : Bool := Identifier.isNext c || c == '$'

/-- Whether a text has the shape of a class name. -/
def hasShape : List Char → Bool
  | [] => false
  | c :: cs => isFirst c && cs.all isNext

/-- Whether a text can name a class. -/
def isValid (name : String) : Bool := hasShape name.toList && !reserved.contains name

/-- The name given, if it can name a class. -/
def choose (name : String) : String := if isValid name then name else fallback

end ApiScenario.ClassName
