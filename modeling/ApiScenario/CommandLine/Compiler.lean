import ApiScenario.CommandLine.Arguments
import ApiScenario.CommandLine.FileTree
import ApiScenario.Compile
import ApiScenario.Report

/-!
# The compiler as a command

A run reads one file, compiles it and writes one file. What it does is a function of what the file
system answers: `Invocation.next` when the input has been read, `Invocation.written` and
`Invocation.unwritten` when the output is to be written. `Command.run` carries a command out on a
file tree.

A run can also log what it does, for example that a class name had to be replaced. Log lines go to
the error channel, too; they carry the time, and all of them can be turned off. They are left out
here: an outcome is that of a run with logging off.
-/

namespace ApiScenario

/-- What a command leaves on its channels, log lines apart. -/
structure Outcome where
  exitCode : Nat
  stdout : String
  stderr : String
deriving DecidableEq, Repr, Inhabited

/-- The report of an error in the chosen format. -/
def ReportFormat.report (f : ReportFormat) (file : String) (e : CompileError) : String :=
  match f with
  | .human => Report.human file e
  | .json => Report.json file e

/-- What is to be done when the input has been read. -/
inductive NextStep where
  | stop (o : Outcome)
  /-- The output is to be written. -/
  | write (path text : String)

namespace Invocation

/-- The file to write. -/
def output (i : Invocation) : String := i.output?.getD i.target.outputFile

/-- The class of a generated Java file is named after the file. -/
def className (i : Invocation) : String :=
  match Path.stem? i.output with
  | some stem => ClassName.choose stem
  | none => ClassName.fallback

/-- How tests are written. -/
def options (i : Invocation) : Options :=
  match i.target with
  | .rust => { target := .rust }
  | .junit => { target := .junit, className := i.className }

/-- What is to be done when the input has been read. -/
def next (i : Invocation) : Except FileError String → NextStep
  | .error e => .stop ⟨1, "", "Error reading file '" ++ i.input ++ "': " ++ e.message ++ "\n"⟩
  | .ok source =>
    match compile i.options source with
    | .error e => .stop ⟨e.exitCode, "", i.format.report i.input e⟩
    | .ok text =>
      if i.check then .stop ⟨0, "✓ '" ++ i.input ++ "' compiled successfully\n", ""⟩
      else .write i.output text

/-- The end of a run whose output could not be written. -/
def unwritten (i : Invocation) (e : FileError) : Outcome :=
  ⟨1, "", "Error writing file '" ++ i.output ++ "': " ++ e.message ++ "\n"⟩

/-- The end of a run whose output has been written. -/
def written (i : Invocation) : Outcome := ⟨0, "✓ Generated " ++ i.output ++ "\n", ""⟩

/-- A run on a file tree, and the tree after it. -/
def run (i : Invocation) (t : FileTree) : Outcome × FileTree :=
  match i.next (t.read i.input) with
  | .stop o => (o, t)
  | .write path text =>
    match t.write path text with
    | .error e => (i.unwritten e, t)
    | .ok t' => (i.written, t')

end Invocation

namespace Command

/-- How the compiler is called. -/
def usage : String :=
  "usage: testlang [-t rust|junit] [--check] [--error-format human|json] [-v] INPUT [OUTPUT]\n"

/-- The answer to a question for the version. -/
def versionOutcome : Outcome := ⟨0, "testlang 0.1.0\n", ""⟩

/-- The answer to a question for help. -/
def helpOutcome : Outcome := ⟨0, usage, ""⟩

/-- The answer to arguments that make no sense. -/
def misuseOutcome : Outcome := ⟨2, "", usage⟩

/-- A command on a file tree, and the tree after it. -/
def run (t : FileTree) : Command → Outcome × FileTree
  | compile i => i.run t
  | version => (versionOutcome, t)
  | help => (helpOutcome, t)
  | misuse => (misuseOutcome, t)

end Command

/-- The compiler with its arguments on a file tree, and the tree after it. -/
def runCompiler (args : List String) (t : FileTree) : Outcome × FileTree :=
  (Arguments.read args).run t

end ApiScenario
