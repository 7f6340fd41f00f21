import ApiScenario.Error
import ApiScenario.Json

/-!
# Reports of errors

An error is reported for people, as text, or for programs, as one line of JSON. The fields of the
JSON objects are in the order of their names.
-/

namespace ApiScenario.Report

/-- The report of an error in a file for people. -/
def human (file : String) (e : CompileError) : String :=
  let tests := match e.testNames with
    | [] => ""
    | names => "  in test block(s): " ++ ", ".intercalate names ++ "\n"
  file ++ ": " ++ e.message ++ "\n" ++ tests

/-- A diagnostic for programs. -/
def diagnostic (d : Diagnostic) : Json :=
  .object [
    ("column", .ofOption (.number ·.column.toNat) d.position),
    ("line", .ofOption (.number ·.line.toNat) d.position),
    ("message", .string d.message),
    ("test", .ofOption .string d.test)]

/-- The value of an error in a file for programs. -/
def value (file : String) (e : CompileError) : Json :=
  match e with
  | .source (.lexical l) =>
    .object [
      ("column", .number l.position.column.toNat),
      ("exit_code", .number e.exitCode),
      ("file", .string file),
      ("found", .string (String.singleton l.found)),
      ("kind", .string e.kind),
      ("line", .number l.position.line.toNat),
      ("message", .string e.message)]
  | .source (.unexpected u) =>
    .object [
      ("column", .number u.position.column.toNat),
      ("exit_code", .number e.exitCode),
      ("expected", .array (u.expected.map .string)),
      ("file", .string file),
      ("found", .string u.found),
      ("kind", .string e.kind),
      ("line", .number u.position.line.toNat),
      ("message", .string e.message)]
  | .source (.invalid ds) =>
    .object [
      ("diagnostics", .array (ds.map diagnostic)),
      ("exit_code", .number e.exitCode),
      ("file", .string file),
      ("kind", .string e.kind),
      ("message", .string e.message),
      ("test_blocks", .array (e.testNames.map .string))]
  | .internal _ =>
    .object [
      ("exit_code", .number e.exitCode),
      ("file", .string file),
      ("kind", .string e.kind),
      ("message", .string e.message)]

/-- The report of an error in a file for programs. -/
def json (file : String) (e : CompileError) : String := (value file e).text ++ "\n"

end ApiScenario.Report
