import ApiScenario.Position

/-!
# Diagnostics

What is wrong with a program that can be read. A diagnostic is about one test or, with no test,
about the program as a whole.
-/

namespace ApiScenario

/-- One rule that a program breaks. -/
structure Diagnostic where
  message : String
  /-- The test that breaks the rule; none for the program as a whole. -/
  test : Option String
  position : Option Position
deriving DecidableEq, Repr, Inhabited

namespace Diagnostic

/-- What a diagnostic is about, in brackets. -/
def subject (d : Diagnostic) : String :=
  match d.test with
  | none => "[program]"
  | some name => "[test '" ++ name ++ "']"

/-- A diagnostic on one line: its subject, its message and, if it has one, its place. -/
def text (d : Diagnostic) : String :=
  let place := match d.position with
    | none => ""
    | some p => " (at " ++ p.text ++ ")"
  d.subject ++ " " ++ d.message ++ place

/-- The listing of several diagnostics, one a line. -/
def listing (ds : List Diagnostic) : String :=
  "\n".intercalate (ds.map fun d => "validation error " ++ d.text)

end Diagnostic

end ApiScenario
