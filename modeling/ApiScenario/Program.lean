import ApiScenario.Token

/-!
# Programs

A program has at most one configuration block, then variables, then tests. A test is a list of
requests and of assertions on their answers. All lists are in the order of the source.
-/

namespace ApiScenario

/-- A header of a request: its name and what it says. -/
structure Header where
  key : String
  value : String
deriving DecidableEq, Repr, Inhabited

/-- What a configuration block holds. -/
inductive ConfigItem where
  | baseUrl (url : String)
  | header (h : Header)
deriving DecidableEq, Repr, Inhabited

/-- The value of a variable. -/
inductive Value where
  | str (text : String)
  | int (n : Int64)
deriving DecidableEq, Inhabited

/-- A value where it is put into a text. -/
def Value.text : Value → String
  | str text => text
  | int n => Decimal.text n

/-- The declaration of a variable. -/
structure Variable where
  name : String
  value : Value
deriving DecidableEq, Inhabited

/-- The methods of a request. -/
inductive Method where
  | get
  | post
  | put
  | delete
deriving DecidableEq, Repr, Inhabited

namespace Method

/-- The keyword that begins a request with a method. -/
def keyword : Method → Keyword
  | get => .get
  | post => .post
  | put => .put
  | delete => .delete

/-- The method of a request that begins with a keyword. -/
def ofKeyword? : Keyword → Option Method
  | .get => some get
  | .post => some post
  | .put => some put
  | .delete => some delete
  | _ => none

/-- Whether requests with this method carry a body. -/
def sendsBody : Method → Bool
  | post => true
  | put => true
  | get => false
  | delete => false

end Method

/-- What a request holds. -/
inductive RequestItem where
  | header (h : Header)
  | body (text : String)
deriving DecidableEq, Repr, Inhabited

/-- One request of a test. -/
structure Request where
  method : Method
  path : String
  items : List RequestItem
deriving DecidableEq, Repr, Inhabited

namespace Request

/-- The headers of a request. -/
def headers (r : Request) : List Header :=
  r.items.filterMap fun
    | .header h => some h
    | .body _ => none

/-- The bodies given to a request. -/
def bodies (r : Request) : List String :=
  r.items.filterMap fun
    | .header _ => none
    | .body text => some text

/-- The first body given to a request is the one that counts. -/
def body? (r : Request) : Option String := r.bodies.head?

end Request

/-- What is said about the answer to a request. -/
inductive Assertion where
  | statusEquals (code : Int64)
  | statusRange (start stop : Int64)
  | headerEquals (key value : String)
  | headerContains (key substring : String)
  | bodyContains (substring : String)
deriving DecidableEq, Inhabited

/-- The keyword that begins an assertion. -/
def Assertion.keyword : Assertion → Keyword
  | statusEquals _ => .assertStatus
  | statusRange _ _ => .assertStatusRange
  | headerEquals _ _ => .assertHeader
  | headerContains _ _ => .assertHeaderContains
  | bodyContains _ => .assertBodyContains

/-- A statement of a test. -/
inductive Statement where
  | request (r : Request)
  | assertion (a : Assertion)
deriving DecidableEq, Inhabited

/-- The request that a statement is, if it is one. -/
def Statement.request? : Statement → Option Request
  | request r => some r
  | assertion _ => none

/-- The assertion that a statement is, if it is one. -/
def Statement.assertion? : Statement → Option Assertion
  | request _ => none
  | assertion a => some a

/-- A named test. -/
structure TestBlock where
  name : String
  statements : List Statement
  /-- The place of the word that begins the test. -/
  position : Position
deriving DecidableEq, Inhabited

namespace TestBlock

/-- The requests of a test. -/
def requests (t : TestBlock) : List Request := t.statements.filterMap Statement.request?

/-- The assertions of a test. -/
def assertions (t : TestBlock) : List Assertion := t.statements.filterMap Statement.assertion?

end TestBlock

/-- A whole program. -/
structure Program where
  /-- The items of the configuration block, if there is one. -/
  config : Option (List ConfigItem)
  declarations : List Variable
  tests : List TestBlock
deriving DecidableEq, Inhabited

namespace Program

/-- The program of an empty text. -/
def empty : Program := ⟨none, [], []⟩

/-- The items of the configuration. -/
def configItems (p : Program) : List ConfigItem := p.config.getD []

/-- The address that relative paths are put behind when no other is configured. -/
def defaultBaseUrl : String := "http://localhost:8080"

/-- The base addresses that the configuration gives. -/
def baseUrls (p : Program) : List String :=
  p.configItems.filterMap fun
    | .baseUrl url => some url
    | .header _ => none

/-- The address that relative paths are put behind: the first one configured. -/
def baseUrl (p : Program) : String := p.baseUrls.head?.getD defaultBaseUrl

/-- The headers for all requests. -/
def defaultHeaders (p : Program) : List Header :=
  p.configItems.filterMap fun
    | .baseUrl _ => none
    | .header h => some h

end Program

end ApiScenario
