import ApiScenario.Program

/-!
# Outlines

A program is shown as an indented outline: a name for each part, one entry a line, a comma after
each entry. Texts are shown as visible text, so that no entry breaks a line.
-/

namespace ApiScenario

namespace Outline

/-- Puts a mark before the first of some lines. -/
def beginFirst (mark : String) : List String → List String
  | [] => []
  | first :: rest => (mark ++ first) :: rest

/-- Puts a mark behind the last of some lines. -/
def endLast (mark : String) : List String → List String
  | [] => []
  | [last] => [last ++ mark]
  | first :: rest => first :: endLast mark rest

/-- Parts between an opening and a closing line, indented, a comma behind each. -/
def group (opening closing : String) (parts : List (List String)) : List String :=
  opening :: parts.flatMap (fun part => (endLast "," part).map ("    " ++ ·)) ++ [closing]

/-- A name and the fields under it. -/
def record (name : String) (fields : List (String × List String)) : List String :=
  group (name ++ " \x7b") "\x7d" (fields.map fun (field, part) => beginFirst (field ++ ": ") part)

/-- A name and the one thing it is put around. -/
def wrap (name : String) (part : List String) : List String := group (name ++ "(") ")" [part]

/-- Things in a row. -/
def list (parts : List (List String)) : List String :=
  if parts.isEmpty then ["[]"] else group "[" "]" parts

/-- A text. -/
def string (s : String) : List String := [Visible.string s]

/-- A language integer. -/
def integer (n : Int64) : List String := [Decimal.text n]

/-- A count. -/
def count (n : Nat) : List String := [toString n]

/-- A header, wherever it stands. -/
def header (h : Header) : List String :=
  record "Header" [("key", string h.key), ("value", string h.value)]

/-- An item of the configuration. -/
def configItem : ConfigItem → List String
  | .baseUrl url => wrap "BaseUrl" (string url)
  | .header h => header h

/-- The configuration. -/
def config : Option (List ConfigItem) → List String
  | none => ["None"]
  | some items => wrap "Some" (record "ConfigBlock" [("items", list (items.map configItem))])

/-- The value of a variable. -/
def value : Value → List String
  | .str s => wrap "Str" (string s)
  | .int n => wrap "Int" (integer n)

/-- A variable. -/
def variableDecl (v : Variable) : List String :=
  record "VariableDecl" [("name", string v.name), ("value", value v.value)]

/-- A method. -/
def method : Method → String
  | .get => "Get"
  | .post => "Post"
  | .put => "Put"
  | .delete => "Delete"

/-- An item of a request. -/
def requestItem : RequestItem → List String
  | .header h => header h
  | .body text => wrap "Body" (string text)

/-- A request. -/
def request (r : Request) : List String :=
  record "Request"
    [("method", [method r.method]), ("path", string r.path),
      ("items", list (r.items.map requestItem))]

/-- An assertion. -/
def assertion : Assertion → List String
  | .statusEquals code => record "StatusEquals" [("code", integer code)]
  | .statusRange start stop =>
    record "StatusRange" [("start", integer start), ("end", integer stop)]
  | .headerEquals key value =>
    record "HeaderEquals" [("key", string key), ("value", string value)]
  | .headerContains key substring =>
    record "HeaderContains" [("key", string key), ("substring", string substring)]
  | .bodyContains substring => record "BodyContains" [("substring", string substring)]

/-- A statement. -/
def statement : Statement → List String
  | .request r => wrap "Request" (request r)
  | .assertion a => wrap "Assertion" (assertion a)

/-- A place. -/
def position (p : Position) : List String :=
  record "SourcePosition" [("line", count p.line.toNat), ("column", count p.column.toNat)]

/-- A test. -/
def test (t : TestBlock) : List String :=
  record "TestBlock"
    [("name", string t.name), ("statements", list (t.statements.map statement)),
      ("position", position t.position)]

/-- A program. -/
def program (p : Program) : List String :=
  record "Program"
    [("config", config p.config), ("variables", list (p.declarations.map variableDecl)),
      ("tests", list (p.tests.map test))]

end Outline

/-- The outline of a program, its lines separated by line feeds. -/
def Program.outline (p : Program) : String := "\n".intercalate (Outline.program p)

end ApiScenario
