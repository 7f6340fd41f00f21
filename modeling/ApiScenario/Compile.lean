import ApiScenario.Program.Parser
import ApiScenario.Program.Validation
import ApiScenario.Target

/-!
# Compilation

A text is read and checked, the program is lowered to a plan, and the plan is written for a
target. The first stage that fails ends it, and nothing is written then.
-/

namespace ApiScenario

/-- The test file of a program that has been checked. -/
def Program.generate (o : Options) (p : Program) : Except CompileError String :=
  match p.lower with
  | .ok plan => .ok (codeText (o.file plan))
  | .error e => .error (.internal e.message)

/-- The valid program that a text spells. -/
def Program.check (source : String) : Except SourceError Program :=
  match Program.parse source with
  | .error e => .error e
  | .ok p =>
    match p.validate with
    | .error e => .error e
    | .ok () => .ok p

/-- The test file of the program that a text spells. -/
def compile (o : Options) (source : String) : Except CompileError String :=
  match Program.check source with
  | .error e => .error (.source e)
  | .ok p => p.generate o

end ApiScenario
