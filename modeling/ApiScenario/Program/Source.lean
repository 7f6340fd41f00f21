import ApiScenario.Program
import ApiScenario.Token.Spelling

/-!
# Canonical source of programs

A program is written back as the tokens of its parts in the order of the grammar, one space between
two tokens.
-/

namespace ApiScenario

/-- The tokens of a header. -/
def Header.kinds (h : Header) : List TokenKind :=
  [.keyword .header, .str h.key, .str h.value, .punct .semicolon]

/-- The tokens of an item of the configuration. -/
def ConfigItem.kinds : ConfigItem → List TokenKind
  | baseUrl url => [.keyword .baseUrl, .str url, .punct .semicolon]
  | header h => h.kinds

/-- Tokens between braces. -/
def TokenKind.braced (ks : List TokenKind) : List TokenKind :=
  .punct .openBrace :: (ks ++ [.punct .closeBrace])

/-- The token of a value. -/
def Value.kind : Value → TokenKind
  | str text => .str text
  | int n => .int n

/-- The tokens of a variable. -/
def Variable.kinds (v : Variable) : List TokenKind :=
  [.keyword .var, .ident v.name, .punct .equals, v.value.kind, .punct .semicolon]

/-- The tokens of an item of a request. -/
def RequestItem.kinds : RequestItem → List TokenKind
  | header h => h.kinds
  | body text => [.keyword .body, .str text, .punct .semicolon]

/-- The tokens of a request. -/
def Request.kinds (r : Request) : List TokenKind :=
  .keyword r.method.keyword :: .str r.path :: TokenKind.braced (r.items.flatMap RequestItem.kinds)

/-- The tokens of what an assertion is about, commas between them. -/
def Assertion.arguments : Assertion → List TokenKind
  | statusEquals code => [.int code]
  | statusRange start stop => [.int start, .punct .comma, .int stop]
  | headerEquals key value => [.str key, .punct .comma, .str value]
  | headerContains key substring => [.str key, .punct .comma, .str substring]
  | bodyContains substring => [.str substring]

/-- The tokens of an assertion. -/
def Assertion.kinds (a : Assertion) : List TokenKind :=
  .keyword a.keyword :: .punct .openParen ::
    (a.arguments ++ [.punct .closeParen, .punct .semicolon])

/-- The tokens of a statement. -/
def Statement.kinds : Statement → List TokenKind
  | request r => r.kinds
  | assertion a => a.kinds

/-- The tokens of a test. -/
def TestBlock.kinds (t : TestBlock) : List TokenKind :=
  .keyword .test :: .ident t.name :: TokenKind.braced (t.statements.flatMap Statement.kinds)

namespace Program

/-- The tokens of the configuration, none if there is none. -/
def configKinds : Option (List ConfigItem) → List TokenKind
  | none => []
  | some items => .keyword .config :: TokenKind.braced (items.flatMap ConfigItem.kinds)

/-- The tokens of a program, without the end of the text. -/
def kinds (p : Program) : List TokenKind :=
  configKinds p.config ++ p.declarations.flatMap Variable.kinds ++ p.tests.flatMap TestBlock.kinds

/-- The canonical source of a program. -/
def source (p : Program) : String :=
  String.ofList ([' '].intercalate (p.kinds.map TokenKind.spelling))

end Program

end ApiScenario
