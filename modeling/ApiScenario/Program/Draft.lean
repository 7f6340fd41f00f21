import ApiScenario.Program

/-!
# Partly read programs

The grammar is read one token at a time. Between two tokens stands a draft: what has been read so
far and the place in the grammar that has been reached. A draft takes a token and becomes a longer
draft or the finished thing (`step`), or refuses it; `expected` lists what it takes.

```text
Program   := Config? Variable* Test*
Config    := "config" "{" (BaseUrl | Header)* "}"
BaseUrl   := "base_url" STRING ";"
Header    := "header" STRING STRING ";"
Variable  := "var" IDENTIFIER "=" (STRING | INTEGER) ";"
Test      := "test" IDENTIFIER "{" (Request | Assertion)* "}"
Request   := ("GET" | "POST" | "PUT" | "DELETE") STRING "{" (Header | Body)* "}"
Body      := "body" STRING ";"
Assertion := "assert_status" "(" INTEGER ")" ";"
           | "assert_status_range" "(" INTEGER "," INTEGER ")" ";"
           | ("assert_header" | "assert_header_contains") "(" STRING "," STRING ")" ";"
           | "assert_body_contains" "(" STRING ")" ";"
```

Each of these begins with its own keyword, so the next token alone decides which one is read. A
draft for one of them is made when its keyword has been taken.
-/

namespace ApiScenario

/-- A kind of token that a place in the grammar can take. -/
inductive Expectation where
  | keyword (k : Keyword)
  | punct (p : Punct)
  | string
  | integer
  | identifier
  | endOfInput
deriving DecidableEq, Repr

namespace Expectation

/-- A kind of token as messages name it. -/
def text : Expectation → String
  | keyword k => k.text
  | punct p => p.text
  | string => "string"
  | integer => "integer"
  | identifier => "identifier"
  | endOfInput => "end of input"

/-- The kind of a token. -/
def ofKind : TokenKind → Expectation
  | .keyword k => keyword k
  | .punct p => punct p
  | .str _ => string
  | .int _ => integer
  | .ident _ => identifier
  | .eof => endOfInput

end Expectation

/-- What a draft becomes by taking a token. -/
inductive Step (δ α : Type) where
  /-- A longer draft. -/
  | more (draft : δ)
  /-- The finished thing. -/
  | done (value : α)

/-- The step of an outer draft when the part it waits for takes a token. -/
def Step.within {δ α ε β : Type} (more : δ → ε) (done : α → ε) : Step δ α → Step ε β
  | .more draft => .more (more draft)
  | .done value => .more (done value)

/-! ## Headers -/

/-- A header after its keyword. -/
inductive HeaderDraft where
  | key
  | value (key : String)
  | ending (h : Header)

namespace HeaderDraft

/-- What can come next. -/
def expected : HeaderDraft → List Expectation
  | key => [.string]
  | value _ => [.string]
  | ending _ => [.punct .semicolon]

/-- A header with one more token. -/
def step : HeaderDraft → TokenKind → Option (Step HeaderDraft Header)
  | key, .str k => some (.more (value k))
  | value k, .str v => some (.more (ending ⟨k, v⟩))
  | ending h, .punct .semicolon => some (.done h)
  | _, _ => none

end HeaderDraft

/-! ## Configuration -/

/-- A configuration block after its keyword, with the items read so far. -/
inductive ConfigDraft where
  | opening
  | items (items : List ConfigItem)
  | baseUrl (items : List ConfigItem)
  | baseUrlEnding (items : List ConfigItem) (url : String)
  | header (items : List ConfigItem) (h : HeaderDraft)

namespace ConfigDraft

/-- What can come next. -/
def expected : ConfigDraft → List Expectation
  | opening => [.punct .openBrace]
  | items _ => [.keyword .baseUrl, .keyword .header, .punct .closeBrace]
  | baseUrl _ => [.string]
  | baseUrlEnding _ _ => [.punct .semicolon]
  | header _ h => h.expected

/-- A configuration block with one more token. -/
def step : ConfigDraft → TokenKind → Option (Step ConfigDraft (List ConfigItem))
  | opening, .punct .openBrace => some (.more (items []))
  | items is, .keyword .baseUrl => some (.more (baseUrl is))
  | items is, .keyword .header => some (.more (header is .key))
  | items is, .punct .closeBrace => some (.done is)
  | baseUrl is, .str url => some (.more (baseUrlEnding is url))
  | baseUrlEnding is url, .punct .semicolon => some (.more (items (is ++ [.baseUrl url])))
  | header is h, k => (h.step k).map (.within (header is) fun h => items (is ++ [.header h]))
  | _, _ => none

end ConfigDraft

/-! ## Variables -/

/-- A variable after its keyword. -/
inductive VariableDraft where
  | name
  | equals (name : String)
  | value (name : String)
  | ending (v : Variable)

namespace VariableDraft

/-- What can come next. -/
def expected : VariableDraft → List Expectation
  | name => [.identifier]
  | equals _ => [.punct .equals]
  | value _ => [.string, .integer]
  | ending _ => [.punct .semicolon]

/-- A variable with one more token. -/
def step : VariableDraft → TokenKind → Option (Step VariableDraft Variable)
  | name, .ident n => some (.more (equals n))
  | equals n, .punct .equals => some (.more (value n))
  | value n, .str s => some (.more (ending ⟨n, .str s⟩))
  | value n, .int i => some (.more (ending ⟨n, .int i⟩))
  | ending v, .punct .semicolon => some (.done v)
  | _, _ => none

end VariableDraft

/-! ## Requests -/

/-- A request after its method. From the opening brace on, the items read so far are in it. -/
inductive RequestDraft where
  | path (method : Method)
  | opening (method : Method) (path : String)
  | items (r : Request)
  | header (r : Request) (h : HeaderDraft)
  | body (r : Request)
  | bodyEnding (r : Request) (text : String)

namespace RequestDraft

/-- What can come next. -/
def expected : RequestDraft → List Expectation
  | path _ => [.string]
  | opening _ _ => [.punct .openBrace]
  | items _ => [.keyword .header, .keyword .body, .punct .closeBrace]
  | header _ h => h.expected
  | body _ => [.string]
  | bodyEnding _ _ => [.punct .semicolon]

/-- A request with one more item. -/
def add (r : Request) (item : RequestItem) : Request := { r with items := r.items ++ [item] }

/-- A request with one more token. -/
def step : RequestDraft → TokenKind → Option (Step RequestDraft Request)
  | path m, .str p => some (.more (opening m p))
  | opening m p, .punct .openBrace => some (.more (items ⟨m, p, []⟩))
  | items r, .keyword .header => some (.more (header r .key))
  | items r, .keyword .body => some (.more (body r))
  | items r, .punct .closeBrace => some (.done r)
  | header r h, k => (h.step k).map (.within (header r) fun h => items (add r (.header h)))
  | body r, .str text => some (.more (bodyEnding r text))
  | bodyEnding r text, .punct .semicolon => some (.more (items (add r (.body text))))
  | _, _ => none

end RequestDraft

/-! ## Assertions -/

/-- The five shapes of assertions. -/
inductive AssertionForm where
  | status
  | statusRange
  | header
  | headerContains
  | bodyContains
deriving DecidableEq, Repr

namespace AssertionForm

/-- The keyword that begins an assertion of a form. -/
def keyword : AssertionForm → Keyword
  | status => .assertStatus
  | statusRange => .assertStatusRange
  | header => .assertHeader
  | headerContains => .assertHeaderContains
  | bodyContains => .assertBodyContains

/-- The form of an assertion that begins with a keyword. -/
def ofKeyword? : Keyword → Option AssertionForm
  | .assertStatus => some status
  | .assertStatusRange => some statusRange
  | .assertHeader => some header
  | .assertHeaderContains => some headerContains
  | .assertBodyContains => some bodyContains
  | _ => none

/-- What the first argument of an assertion is. -/
def argument : AssertionForm → Expectation
  | status => .integer
  | statusRange => .integer
  | header => .string
  | headerContains => .string
  | bodyContains => .string

end AssertionForm

/-- How a header is compared with a text. -/
inductive HeaderTest where
  | equals
  | contains
deriving DecidableEq, Repr

/-- The assertion that compares a header with a text. -/
def HeaderTest.assertion : HeaderTest → String → String → Assertion
  | equals, key, text => .headerEquals key text
  | contains, key, text => .headerContains key text

/-- An assertion after its keyword. -/
inductive AssertionDraft where
  | opening (form : AssertionForm)
  | argument (form : AssertionForm)
  | rangeComma (start : Int64)
  | rangeStop (start : Int64)
  | headerComma (test : HeaderTest) (key : String)
  | headerText (test : HeaderTest) (key : String)
  | closing (a : Assertion)
  | ending (a : Assertion)

namespace AssertionDraft

/-- What can come next. -/
def expected : AssertionDraft → List Expectation
  | opening _ => [.punct .openParen]
  | argument form => [form.argument]
  | rangeComma _ => [.punct .comma]
  | rangeStop _ => [.integer]
  | headerComma _ _ => [.punct .comma]
  | headerText _ _ => [.string]
  | closing _ => [.punct .closeParen]
  | ending _ => [.punct .semicolon]

/-- An assertion with one more token. -/
def step : AssertionDraft → TokenKind → Option (Step AssertionDraft Assertion)
  | opening form, .punct .openParen => some (.more (argument form))
  | argument .status, .int n => some (.more (closing (.statusEquals n)))
  | argument .statusRange, .int n => some (.more (rangeComma n))
  | argument .header, .str key => some (.more (headerComma .equals key))
  | argument .headerContains, .str key => some (.more (headerComma .contains key))
  | argument .bodyContains, .str text => some (.more (closing (.bodyContains text)))
  | rangeComma start, .punct .comma => some (.more (rangeStop start))
  | rangeStop start, .int stop => some (.more (closing (.statusRange start stop)))
  | headerComma test key, .punct .comma => some (.more (headerText test key))
  | headerText test key, .str text => some (.more (closing (test.assertion key text)))
  | closing a, .punct .closeParen => some (.more (ending a))
  | ending a, .punct .semicolon => some (.done a)
  | _, _ => none

end AssertionDraft

/-! ## Tests -/

/-- A test after its keyword. From the opening brace on, the statements read so far are in it. -/
inductive TestDraft where
  | name (position : Position)
  | opening (position : Position) (name : String)
  | statements (t : TestBlock)
  | request (t : TestBlock) (r : RequestDraft)
  | assertion (t : TestBlock) (a : AssertionDraft)

namespace TestDraft

/-- The keywords that begin a statement. -/
def statementKeywords : List Keyword :=
  [.get, .post, .put, .delete, .assertStatus, .assertStatusRange, .assertHeader,
    .assertHeaderContains, .assertBodyContains]

/-- What can come next. -/
def expected : TestDraft → List Expectation
  | name _ => [.identifier]
  | opening _ _ => [.punct .openBrace]
  | statements _ => statementKeywords.map .keyword ++ [.punct .closeBrace]
  | request _ r => r.expected
  | assertion _ a => a.expected

/-- A test with one more statement. -/
def add (t : TestBlock) (s : Statement) : TestBlock := { t with statements := t.statements ++ [s] }

/-- The draft after the keyword of a statement. -/
def beginStatement (t : TestBlock) (k : Keyword) : Option TestDraft :=
  match Method.ofKeyword? k with
  | some m => some (request t (.path m))
  | none => (AssertionForm.ofKeyword? k).map fun form => assertion t (.opening form)

/-- A test with one more token. -/
def step : TestDraft → TokenKind → Option (Step TestDraft TestBlock)
  | name position, .ident n => some (.more (opening position n))
  | opening position n, .punct .openBrace => some (.more (statements ⟨n, [], position⟩))
  | statements t, .keyword k => (beginStatement t k).map .more
  | statements t, .punct .closeBrace => some (.done t)
  | request t r, k => (r.step k).map (.within (request t) fun r => statements (add t (.request r)))
  | assertion t a, k =>
    (a.step k).map (.within (assertion t) fun a => statements (add t (.assertion a)))
  | _, _ => none

end TestDraft

/-! ## Programs -/

/-- A program of which the parts before the current one are complete. -/
inductive ProgramDraft where
  | between (p : Program)
  | config (c : ConfigDraft)
  | declaration (p : Program) (v : VariableDraft)
  | test (p : Program) (t : TestDraft)

namespace ProgramDraft

/-- Nothing has been read yet. -/
def start : ProgramDraft := between .empty

/-- Configuration comes first of all. -/
def takesConfig (p : Program) : Bool := p.config.isNone && p.declarations.isEmpty && p.tests.isEmpty

/-- Variables come before tests. -/
def takesVariable (p : Program) : Bool := p.tests.isEmpty

/-- What can come next. -/
def expected : ProgramDraft → List Expectation
  | between p =>
    (if takesConfig p then [.keyword .config] else []) ++
      (if takesVariable p then [.keyword .var] else []) ++ [.keyword .test, .endOfInput]
  | config c => c.expected
  | declaration _ v => v.expected
  | test _ t => t.expected

/-- A program with one more token. A test remembers the place of its keyword. -/
def step : ProgramDraft → Token → Option (Step ProgramDraft Program)
  | between p, t =>
    match t.kind with
    | .keyword .config => if takesConfig p then some (.more (config .opening)) else none
    | .keyword .var => if takesVariable p then some (.more (declaration p .name)) else none
    | .keyword .test => some (.more (test p (.name t.position)))
    | .eof => some (.done p)
    | _ => none
  | config c, t =>
    (c.step t.kind).map (.within config fun is => between { Program.empty with config := some is })
  | declaration p v, t =>
    (v.step t.kind).map
      (.within (declaration p) fun v => between { p with declarations := p.declarations ++ [v] })
  | test p b, t =>
    (b.step t.kind).map (.within (test p) fun b => between { p with tests := p.tests ++ [b] })

end ProgramDraft

end ApiScenario
