import ApiScenario.Target

/-!
# Arguments of the compiler

Options can stand anywhere among the arguments, each at most once; two dashes end them. Arguments
are read from left to right, and the first that is wrong, or that asks for something else than
compilation, decides. What is missing is seen only at the end.
-/

namespace ApiScenario

/-- How errors are reported. -/
inductive ReportFormat where
  | human
  | json
deriving DecidableEq, Repr, Inhabited

/-- One run of the compiler. -/
structure Invocation where
  input : String
  /-- The file to write, if one is named. -/
  output? : Option String
  target : Target
  /-- Whether to write nothing. -/
  check : Bool
  format : ReportFormat
  /-- Whether to tell about progress. -/
  verbose : Bool
deriving DecidableEq, Repr, Inhabited

/-- What the arguments ask for. -/
inductive Command where
  | compile (i : Invocation)
  | version
  | help
  /-- They make no sense. -/
  | misuse
deriving DecidableEq, Repr

namespace Arguments

/-- The arguments read so far. -/
structure Draft where
  positionals : List String := []
  target? : Option Target := none
  check : Bool := false
  format? : Option ReportFormat := none
  verbose : Bool := false

/-- The options that take a value. -/
inductive ValueOption where
  | target
  | format
deriving DecidableEq, Repr

namespace Draft

/-- A file named by an argument: first the input, then the output. -/
def addPositional (d : Draft) (text : String) : Option Draft :=
  if text.isEmpty || 2 ≤ d.positionals.length then none
  else some { d with positionals := d.positionals ++ [text] }

/-- Several files named by arguments. -/
def addPositionals (d : Draft) : List String → Option Draft
  | [] => some d
  | text :: rest => (d.addPositional text).bind (·.addPositionals rest)

/-- The target, once and by its exact name. -/
def setTarget (d : Draft) (value : String) : Option Draft :=
  match d.target?, value with
  | none, "rust" => some { d with target? := some .rust }
  | none, "junit" => some { d with target? := some .junit }
  | _, _ => none

/-- The format of reports, once and by its exact name. -/
def setFormat (d : Draft) (value : String) : Option Draft :=
  match d.format?, value with
  | none, "human" => some { d with format? := some .human }
  | none, "json" => some { d with format? := some .json }
  | _, _ => none

/-- The value of an option. -/
def set (d : Draft) : ValueOption → String → Option Draft
  | .target, value => d.setTarget value
  | .format, value => d.setFormat value

/-- The wish to write nothing, once. -/
def setCheck (d : Draft) : Option Draft :=
  if d.check then none else some { d with check := true }

/-- The wish to be told about progress, once. -/
def setVerbose (d : Draft) : Option Draft :=
  if d.verbose then none else some { d with verbose := true }

/-- The command, when all arguments have been read. -/
def finish (d : Draft) : Command :=
  match d.positionals with
  | [] => .misuse
  | input :: rest =>
    .compile {
      input := input
      output? := rest.head?
      target := d.target?.getD .rust
      check := d.check
      format := d.format?.getD .human
      verbose := d.verbose }

end Draft

/-- What one argument does. -/
inductive Effect where
  | more (d : Draft)
  /-- The next argument is the value of an option. -/
  | wait (option : ValueOption) (d : Draft)
  | stop (c : Command)

/-- Goes on with a draft, if there is one. -/
def Effect.ofOption : Option Draft → Effect
  | some d => more d
  | none => stop .misuse

/-- An option by its long name, with the value that stands behind an equals sign. -/
def long (d : Draft) (name : String) (value? : Option String) : Effect :=
  match name, value? with
  | "target", none => .wait .target d
  | "target", some value => .ofOption (d.setTarget value)
  | "error-format", none => .wait .format d
  | "error-format", some value => .ofOption (d.setFormat value)
  | "check", none => .ofOption d.setCheck
  | "verbose", none => .ofOption d.setVerbose
  | "version", none => .stop .version
  | "help", none => .stop .help
  | _, _ => .stop .misuse

/-- Options by their letters. The letter of an option with a value takes all that follows it. -/
def short (d : Draft) : List Char → Effect
  | [] => .more d
  | ['t'] => .wait .target d
  | 't' :: '=' :: value => .ofOption (d.setTarget (String.ofList value))
  | 't' :: value => .ofOption (d.setTarget (String.ofList value))
  | 'v' :: rest =>
    match d.setVerbose with
    | some d => short d rest
    | none => .stop .misuse
  | 'V' :: _ => .stop .version
  | 'h' :: _ => .stop .help
  | _ => .stop .misuse

/-- The name of a long option and what stands behind its first equals sign. -/
def splitValue (cs : List Char) : String × Option String :=
  let name := String.ofList (cs.takeWhile (· != '='))
  match cs.dropWhile (· != '=') with
  | [] => (name, none)
  | _ :: value => (name, some (String.ofList value))

/-- An argument where an option can stand. A single dash is no option. -/
def argument (d : Draft) (arg : String) : Effect :=
  match arg.toList with
  | '-' :: '-' :: cs => long d (splitValue cs).1 (splitValue cs).2
  | '-' :: c :: cs => short d (c :: cs)
  | _ => .ofOption (d.addPositional arg)

/-- The command of arguments, when `waiting` is the option whose value comes next. -/
def readFrom (d : Draft) (waiting : Option ValueOption) : List String → Command
  | [] => if waiting.isSome then .misuse else d.finish
  | arg :: rest =>
    match waiting with
    | some option =>
      match d.set option arg with
      | some d => readFrom d none rest
      | none => .misuse
    | none =>
      if arg = "--" then
        match d.addPositionals rest with
        | some d => d.finish
        | none => .misuse
      else
        match argument d arg with
        | .more d => readFrom d none rest
        | .wait option d => readFrom d (some option) rest
        | .stop c => c

/-- The command that arguments ask for. -/
def read (args : List String) : Command := readFrom {} none args

end Arguments

end ApiScenario
