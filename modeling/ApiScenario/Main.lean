import ApiScenario.CommandLine.Inspector

/-!
# The commands on a real file system

The compiler, or the inspector if the program is called by that name.
-/

namespace ApiScenario

/-- A file error of the operating system. -/
def FileError.ofSystem : IO.Error → FileError
  | .noFileOrDirectory .. => noEntry
  | .inappropriateType _ 21 _ => isDirectory
  | .inappropriateType .. => notDirectory
  | e => other (toString e)

/-- The text of a file. -/
def readText (path : String) : IO (Except FileError String) := do
  match ← (IO.FS.readBinFile path).toBaseIO with
  | .ok content => return FileTree.decode content
  | .error e => return .error (.ofSystem e)

/-- Says what a command has to say. -/
def Outcome.tell (o : Outcome) : IO UInt32 := do
  IO.print o.stdout
  IO.eprint o.stderr
  return o.exitCode.toUInt32

/-- Carries out a run of the compiler. -/
def Invocation.perform (i : Invocation) : IO UInt32 := do
  match i.next (← readText i.input) with
  | .stop o => o.tell
  | .write path text =>
    match ← (IO.FS.writeFile path text).toBaseIO with
    | .ok _ => i.written.tell
    | .error e => (i.unwritten (.ofSystem e)).tell

/-- Carries out a command. -/
def Command.perform : Command → IO UInt32
  | compile i => i.perform
  | version => versionOutcome.tell
  | help => helpOutcome.tell
  | misuse => misuseOutcome.tell

/-- Carries out a run of the inspector. -/
def Inspection.perform (i : Inspection) : IO UInt32 := do
  match i.path? with
  | none => noPath.tell
  | some path => (i.finish path (← readText path)).tell

end ApiScenario

open ApiScenario in
/-- The compiler, or the inspector under its own name. -/
def main (args : List String) : IO UInt32 := do
  if (← IO.appPath).fileName == some "testlang-print-ast" then
    (Inspection.ofArguments args).perform
  else
    (Arguments.read args).perform
