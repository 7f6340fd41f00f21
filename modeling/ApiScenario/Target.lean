import ApiScenario.Target.ClassName
import ApiScenario.Target.JUnitTests
import ApiScenario.Target.RustTests

/-!
# Targets

The kinds of test files that can be written, how they are named, and what is written for a plan.
-/

namespace ApiScenario

/-- What tests are written for. -/
inductive Target where
  | rust
  | junit
deriving DecidableEq, Repr, Inhabited

/-- A name that is not that of a target, in lower case. -/
structure UnknownTarget where
  name : String
deriving DecidableEq, Repr

/-- An unknown target in words. -/
def UnknownTarget.message (e : UnknownTarget) : String :=
  "unknown target '" ++ e.name ++ "' (expected rust or junit)"

namespace Target

/-- The name of a target. -/
def name : Target → String
  | rust => "rust"
  | junit => "junit"

/-- The file that is written when no other is named. -/
def outputFile : Target → String
  | rust => "generated_tests.rs"
  | junit => "GeneratedTests.java"

/-- The name of what writes the tests of a target. -/
def backend : Target → String
  | rust => "rust-reqwest"
  | junit => "junit5"

/-- The target with a given name. Capital letters of ASCII make no difference. -/
def ofName (name : String) : Except UnknownTarget Target :=
  match name.map Char.toLower with
  | "rust" => .ok rust
  | "junit" => .ok junit
  | "java" => .ok junit
  | other => .error ⟨other⟩

end Target

/-- How tests are written. -/
structure Options where
  target : Target := .rust
  /-- The name of the class, for a target that has one. -/
  className : String := ClassName.fallback
deriving DecidableEq, Repr, Inhabited

/-- What is written for a plan. -/
def Options.file (o : Options) (p : Plan) : List Directive :=
  match o.target with
  | .rust => RustTests.file p
  | .junit => JUnitTests.file (ClassName.choose o.className) p

end ApiScenario
