import ApiScenario.Error
import ApiScenario.Program

/-!
# Rules of programs

What the grammar cannot say. A program has a test; tests have different names, since each becomes
a procedure of that name; a test sends a request, makes two assertions or more, and does not begin
with an assertion, since there would be no answer to make it about. All rules are checked on their
own and every violation is listed, tests in order and rules in this order.
-/

namespace ApiScenario

/-- The fewest assertions a test can have. -/
def minAssertions : Nat := 2

/-- A rule that a test breaks. -/
inductive Violation where
  | duplicateName
  | noRequest
  | tooFewAssertions (found : Nat)
  | assertionFirst (keyword : Keyword)
deriving DecidableEq, Repr

namespace Violation

/-- A broken rule in words. -/
def message (test : String) : Violation → String
  | duplicateName => "duplicate test block name '" ++ test ++ "'"
  | noRequest => "must contain at least one request"
  | tooFewAssertions found =>
    "must contain at least " ++ toString minAssertions ++ " assertions (found " ++
      toString found ++ ")"
  | assertionFirst keyword => "assertion " ++ keyword.text ++ " appears before any request"

/-- The diagnostic of a rule that a test breaks. -/
def diagnostic (t : TestBlock) (v : Violation) : Diagnostic where
  message := v.message t.name
  test := some t.name
  position := some t.position

end Violation

namespace TestBlock

/-- The first of the assertions that a test makes before any request. -/
def leadingAssertion? (t : TestBlock) : Option Assertion :=
  (t.statements.takeWhile (·.assertion?.isSome)).findSome? Statement.assertion?

/-- If a test makes an assertion before any request, then it begins with one. -/
theorem leadingAssertion?_eq (t : TestBlock) :
    t.leadingAssertion? = t.statements.head?.bind Statement.assertion? := by
  unfold leadingAssertion?
  cases t.statements with
  | nil => rfl
  | cons s rest => cases s <;> rfl

/-- The rules that a test breaks, when the tests before it have the names `earlier`. -/
def violations (earlier : List String) (t : TestBlock) : List Violation :=
  (if t.name ∈ earlier then [.duplicateName] else []) ++
    (if t.requests.isEmpty then [.noRequest] else []) ++
    (if t.assertions.length < minAssertions then [.tooFewAssertions t.assertions.length] else []) ++
    (match t.leadingAssertion? with
      | some a => [.assertionFirst a.keyword]
      | none => [])

end TestBlock

namespace Program

/-- The diagnostic of a program without tests. -/
def noTests : Diagnostic where
  message := "program must contain at least one test block"
  test := none
  position := none

/-- The diagnostics of tests, when the tests before them have the names `earlier`. -/
def testDiagnostics (earlier : List String) : List TestBlock → List Diagnostic
  | [] => []
  | t :: rest =>
    (t.violations earlier).map (Violation.diagnostic t) ++ testDiagnostics (t.name :: earlier) rest

/-- All that is wrong with a program. -/
def diagnostics (p : Program) : List Diagnostic :=
  if p.tests.isEmpty then [noTests] else testDiagnostics [] p.tests

/-- A program is valid if nothing is wrong with it. -/
def validate (p : Program) : Except SourceError Unit :=
  match p.diagnostics with
  | [] => .ok ()
  | ds => .error (.invalid ds)

end Program

end ApiScenario
