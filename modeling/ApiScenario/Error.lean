import ApiScenario.Diagnostic
import ApiScenario.Text.Visible

/-!
# Errors

A text fails to be a program in one of three ways: a piece of it is no token, a token stands where
it cannot, or the program breaks rules. The first two stop at one place; the third lists all that
is wrong. Beyond these the compiler itself can be at fault, which no checked program brings about.
-/

namespace ApiScenario

/-- A piece of text that is no token. -/
structure LexicalError where
  position : Position
  /-- The character at fault. -/
  found : Char
  reason : String
deriving DecidableEq, Repr, Inhabited

/-- A token that cannot stand where it does. -/
structure UnexpectedToken where
  position : Position
  /-- What could stand there. -/
  expected : List String
  found : String
deriving DecidableEq, Repr, Inhabited

/-- Why a text is not a valid program. -/
inductive SourceError where
  | lexical (e : LexicalError)
  | unexpected (e : UnexpectedToken)
  | invalid (diagnostics : List Diagnostic)
deriving DecidableEq, Repr, Inhabited

/-- Why nothing was compiled. -/
inductive CompileError where
  | source (e : SourceError)
  | internal (detail : String)
deriving DecidableEq, Repr, Inhabited

/-- A piece of text that is no token, in words. -/
def LexicalError.message (e : LexicalError) : String :=
  "lexical error at " ++ e.position.text ++ ": " ++ e.reason ++ " " ++ Visible.char e.found

/-- What could stand in a place: the only choice, or all of them in braces. -/
def UnexpectedToken.choices : List String → String
  | [only] => only
  | several => "one of \x7b" ++ ", ".intercalate several ++ "\x7d"

/-- A token out of place, in words. -/
def UnexpectedToken.message (e : UnexpectedToken) : String :=
  "syntax error at " ++ e.position.text ++ ": expected " ++ choices e.expected ++
    ", found " ++ e.found

/-- What is wrong with a text, in words. -/
def SourceError.message : SourceError → String
  | lexical e => e.message
  | unexpected e => e.message
  | invalid ds => Diagnostic.listing ds

namespace CompileError

/-- What went wrong, in words. -/
def message : CompileError → String
  | source e => e.message
  | internal detail => "internal error: " ++ detail

/-- The name of the kind of error in reports. -/
def kind : CompileError → String
  | source (.lexical _) => "lexical"
  | source (.unexpected _) => "syntax"
  | source (.invalid _) => "semantic"
  | internal _ => "internal"

/-- The exit code with which a command ends on an error. -/
def exitCode : CompileError → Nat
  | source (.lexical _) => 3
  | source (.unexpected _) => 4
  | source (.invalid _) => 5
  | internal _ => 70

/-- The one place of the text that an error is about. -/
def position? : CompileError → Option Position
  | source (.lexical e) => some e.position
  | source (.unexpected e) => some e.position
  | source (.invalid _) => none
  | internal _ => none

/-- The members of a list at their first places. -/
def firsts (names : List String) : List String :=
  names.foldl (fun seen name => if name ∈ seen then seen else seen ++ [name]) []

/-- The tests that an error names, each once, in order. -/
def testNames : CompileError → List String
  | source (.invalid ds) => firsts (ds.filterMap (·.test))
  | _ => []

end CompileError

end ApiScenario
