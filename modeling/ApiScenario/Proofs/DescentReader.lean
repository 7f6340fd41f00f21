import ApiScenario.Program.Parser

/-!
# Reading by descent

A second way to read programs: one procedure for each construct of the grammar, which looks at one
token ahead and calls the procedures of its parts. Lists are read by loops. The token ahead is
pulled from the stream of items when the one before it is passed, so a reader is always one item
ahead of what it has taken.

Nothing here is ruled out by the types. A reader can ask an exhausted stream for more, it can try to
pass the end of the text, where it stays, it can be handed a keyword that begins no assertion, and a
turn of a loop can leave the tokens as they are, so that the loop goes on forever. What happens is
written down: the first three are events, the last one is a reply of its own.
-/

namespace ApiScenario.Descent

/-- What happens to a reader. -/
inductive Event where
  /-- The stream was asked for its next item. An exhausted stream has none. -/
  | pulled (item : Option Lexed)
  /-- The end of the text was to be passed. -/
  | heldAtEnd
  /-- An assertion was begun with a keyword that begins none. -/
  | strayKeyword (k : Keyword)

/-- A reader of tokens. -/
structure Reader where
  /-- The token ahead. -/
  current : Token
  /-- The items that have not been pulled. -/
  rest : List Lexed
  /-- What has happened so far. -/
  events : List Event

/-- How a procedure ends. -/
inductive Reply (α : Type) where
  | done (x : α) (r : Reader)
  | failed (e : SourceError) (events : List Event)
  /-- A turn of a loop has taken no token, and the loop would go on. -/
  | stalled (events : List Event)

/-- All that has happened up to the end of a procedure. -/
def Reply.events {α : Type} : Reply α → List Event
  | done _ r => r.events
  | failed _ events => events
  | stalled events => events

/-- What a procedure comes to, if it comes to an end. -/
def Reply.result? {α : Type} : Reply α → Option (Except SourceError α)
  | done x _ => some (.ok x)
  | failed e _ => some (.error e)
  | stalled _ => none

/-- A procedure that reads something. -/
def Procedure (α : Type) : Type := Reader → Reply α

instance : Monad Procedure where
  pure x r := .done x r
  bind p f r :=
    match p r with
    | .done x r => f x r
    | .failed e events => .failed e events
    | .stalled events => .stalled events

/-! ## Tokens -/

/-- A reader with the next item of a stream ahead, behind the place `last`. -/
def pull (last : Position) (items : List Lexed) (events : List Event) : Reply Unit :=
  match items with
  | [] => .failed (.unexpected (Program.exhausted last)) (events ++ [.pulled none])
  | .error e :: _ => .failed (.lexical e) (events ++ [.pulled (some (.error e))])
  | .ok t :: rest => .done () ⟨t, rest, events ++ [.pulled (some (.ok t))]⟩

/-- The kind of the token ahead. -/
def peek : Procedure TokenKind := fun r => .done r.current.kind r

/-- Passes the token ahead. The end of the text stays ahead. -/
def bump : Procedure Token := fun r =>
  if r.current.kind = .eof then
    .done r.current { r with events := r.events ++ [.heldAtEnd] }
  else
    match pull r.current.position r.rest r.events with
    | .done () next => .done r.current next
    | .failed e events => .failed e events
    | .stalled events => .stalled events

/-- Fails at the token ahead, where something else could stand. -/
def refuse {α : Type} (expected : List Expectation) : Procedure α := fun r =>
  .failed (.unexpected ⟨r.current.position, expected.map Expectation.text, r.current.kind.text⟩)
    r.events

/-- Fails at a keyword that begins no assertion. -/
def stray {α : Type} (k : Keyword) : Procedure α := fun r =>
  refuse [.keyword k] { r with events := r.events ++ [.strayKeyword k] }

/-- Passes a keyword and tells its place. -/
def expectKeyword (k : Keyword) : Procedure Position := do
  if (← peek) = .keyword k then
    let t ← bump
    return t.position
  else refuse [.keyword k]

/-- Passes a punctuation mark. -/
def expectPunct (p : Punct) : Procedure Unit := do
  if (← peek) = .punct p then
    let _ ← bump
    return ()
  else refuse [.punct p]

/-- Passes a text. -/
def expectString : Procedure String := do
  match ← peek with
  | .str s =>
    let _ ← bump
    return s
  | _ => refuse [.string]

/-- Passes an integer. -/
def expectInteger : Procedure Int64 := do
  match ← peek with
  | .int n =>
    let _ ← bump
    return n
  | _ => refuse [.integer]

/-- Passes an identifier. -/
def expectIdentifier : Procedure String := do
  match ← peek with
  | .ident name =>
    let _ ← bump
    return name
  | _ => refuse [.identifier]

/-! ## Loops -/

/-- How a turn of a loop ends. -/
inductive Turn (σ α : Type) where
  | again (state : σ)
  | leave (x : α)

/-- Takes turns until one leaves. -/
def loop {σ α : Type} (turn : σ → Procedure (Turn σ α)) (s : σ) (r : Reader) : Reply α :=
  match turn s r with
  | .done (.leave x) next => .done x next
  | .done (.again s) next =>
    if next.rest.length < r.rest.length then loop turn s next else .stalled next.events
  | .failed e events => .failed e events
  | .stalled events => .stalled events
termination_by r.rest.length

/-- Things that all begin with the same keyword. -/
def whileAt {α : Type} (k : Keyword) (item : Procedure α) : Procedure (List α) :=
  loop (fun xs => do
    if (← peek) = .keyword k then
      let x ← item
      return .again (xs ++ [x])
    else return .leave xs) []

/-! ## Constructs -/

/-- A header. -/
def header : Procedure Header := do
  let _ ← expectKeyword .header
  let key ← expectString
  let value ← expectString
  expectPunct .semicolon
  return ⟨key, value⟩

/-- One more item of a configuration block, or its end. -/
def configTurn (items : List ConfigItem) :
    Procedure (Turn (List ConfigItem) (List ConfigItem)) := do
  match ← peek with
  | .keyword .baseUrl =>
    let _ ← bump
    let url ← expectString
    expectPunct .semicolon
    return .again (items ++ [.baseUrl url])
  | .keyword .header =>
    let h ← header
    return .again (items ++ [.header h])
  | .punct .closeBrace =>
    let _ ← bump
    return .leave items
  | _ => refuse [.keyword .baseUrl, .keyword .header, .punct .closeBrace]

/-- A configuration block. -/
def configBlock : Procedure (List ConfigItem) := do
  let _ ← expectKeyword .config
  expectPunct .openBrace
  loop configTurn []

/-- The value of a variable. -/
def variableValue : Procedure Value := do
  match ← peek with
  | .str _ =>
    let s ← expectString
    return .str s
  | .int _ =>
    let n ← expectInteger
    return .int n
  | _ => refuse [.string, .integer]

/-- A variable. -/
def variableDeclaration : Procedure Variable := do
  let _ ← expectKeyword .var
  let name ← expectIdentifier
  expectPunct .equals
  let value ← variableValue
  expectPunct .semicolon
  return ⟨name, value⟩

/-- One more item of a request, or its end. -/
def requestTurn (method : Method) (path : String) (items : List RequestItem) :
    Procedure (Turn (List RequestItem) Request) := do
  match ← peek with
  | .keyword .header =>
    let h ← header
    return .again (items ++ [.header h])
  | .keyword .body =>
    let _ ← bump
    let text ← expectString
    expectPunct .semicolon
    return .again (items ++ [.body text])
  | .punct .closeBrace =>
    let _ ← bump
    return .leave ⟨method, path, items⟩
  | _ => refuse [.keyword .header, .keyword .body, .punct .closeBrace]

/-- A request. -/
def request (method : Method) : Procedure Request := do
  let _ ← bump
  let path ← expectString
  expectPunct .openBrace
  loop (requestTurn method path) []

/-- What stands between the parentheses of an assertion. -/
def assertionArguments (k : Keyword) : Procedure Assertion := do
  match k with
  | .assertStatus =>
    let code ← expectInteger
    return .statusEquals code
  | .assertStatusRange =>
    let start ← expectInteger
    expectPunct .comma
    let stop ← expectInteger
    return .statusRange start stop
  | .assertHeader =>
    let key ← expectString
    expectPunct .comma
    let value ← expectString
    return .headerEquals key value
  | .assertHeaderContains =>
    let key ← expectString
    expectPunct .comma
    let substring ← expectString
    return .headerContains key substring
  | .assertBodyContains =>
    let substring ← expectString
    return .bodyContains substring
  | other => stray other

/-- An assertion. -/
def assertion (k : Keyword) : Procedure Assertion := do
  let _ ← expectKeyword k
  expectPunct .openParen
  let a ← assertionArguments k
  expectPunct .closeParen
  expectPunct .semicolon
  return a

/-- One more statement of a test, or its end. -/
def testTurn (position : Position) (name : String) (statements : List Statement) :
    Procedure (Turn (List Statement) TestBlock) := do
  match ← peek with
  | .punct .closeBrace =>
    let _ ← bump
    return .leave ⟨name, statements, position⟩
  | .keyword .get =>
    let r ← request .get
    return .again (statements ++ [.request r])
  | .keyword .post =>
    let r ← request .post
    return .again (statements ++ [.request r])
  | .keyword .put =>
    let r ← request .put
    return .again (statements ++ [.request r])
  | .keyword .delete =>
    let r ← request .delete
    return .again (statements ++ [.request r])
  | .keyword k =>
    if k ∈ TestDraft.statementKeywords then
      let a ← assertion k
      return .again (statements ++ [.assertion a])
    else refuse (TestDraft.statementKeywords.map .keyword ++ [.punct .closeBrace])
  | _ => refuse (TestDraft.statementKeywords.map .keyword ++ [.punct .closeBrace])

/-- A test. -/
def test : Procedure TestBlock := do
  let position ← expectKeyword .test
  let name ← expectIdentifier
  expectPunct .openBrace
  loop (testTurn position name) []

/-- The configuration block, if there is one. -/
def config? : Procedure (Option (List ConfigItem)) := do
  if (← peek) = .keyword .config then
    let items ← configBlock
    return some items
  else return none

/-- The end of the text, behind a whole program. -/
def ending (p : Program) : Procedure Program := do
  if (← peek) = .eof then return p
  else
    refuse ((if p.tests.isEmpty then
        (if p.config.isNone && p.declarations.isEmpty then [.keyword .config] else []) ++
          [.keyword .var]
      else []) ++ [.keyword .test, .endOfInput])

/-- A program. -/
def program : Procedure Program := do
  let config ← config?
  let declarations ← whileAt .var variableDeclaration
  let tests ← whileAt .test test
  ending ⟨config, declarations, tests⟩

/-- Reads a program from a stream of items. -/
def read (items : List Lexed) : Reply Program :=
  match pull .start items [] with
  | .done () r => program r
  | .failed e events => .failed e events
  | .stalled events => .stalled events

end ApiScenario.Descent
