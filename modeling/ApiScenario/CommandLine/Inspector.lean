import ApiScenario.CommandLine.Compiler
import ApiScenario.Program.Outline

/-!
# The inspector

A command that shows how a file is read: its tokens, one a line, or the outline of its program. It
takes one option; of the other arguments the last one is the file.
-/

namespace ApiScenario

/-- What the inspector is asked for. -/
structure Inspection where
  tokens : Bool
  path? : Option String
deriving DecidableEq, Repr, Inhabited

namespace Inspection

/-- The option that asks for tokens. -/
def tokensOption : String := "--tokens"

/-- What arguments ask for. -/
def ofArguments (args : List String) : Inspection where
  tokens := args.contains tokensOption
  path? := (args.filter (· != tokensOption)).getLast?

/-- The end of a run that was given no file. -/
def noPath : Outcome := ⟨2, "", "usage: testlang-print-ast <path.test> [--tokens]\n"⟩

/-- The tokens of a text, one a line. -/
def showTokens (source : String) : Outcome :=
  match tokenize source with
  | .ok ts => ⟨0, String.join (ts.map fun t => t.listing ++ "\n"), ""⟩
  | .error e => ⟨1, "", "lex error: " ++ e.message ++ "\n"⟩

/-- The outline of the program that a text spells. -/
def showProgram (source : String) : Outcome :=
  match Program.parse source with
  | .ok p => ⟨0, p.outline ++ "\n", ""⟩
  | .error e => ⟨1, "", "parse error: " ++ e.message ++ "\n"⟩

/-- The end of a run that was given a file, when the file has been read. -/
def finish (i : Inspection) (path : String) : Except FileError String → Outcome
  | .error e => ⟨1, "", "failed to read " ++ path ++ ": " ++ e.message ++ "\n"⟩
  | .ok source => if i.tokens then showTokens source else showProgram source

/-- A run on a file tree, which it leaves as it is. -/
def run (i : Inspection) (t : FileTree) : Outcome :=
  match i.path? with
  | none => noPath
  | some path => i.finish path (t.read path)

end Inspection

/-- The inspector with its arguments on a file tree. -/
def runInspector (args : List String) (t : FileTree) : Outcome :=
  (Inspection.ofArguments args).run t

end ApiScenario
