import ApiScenario.Variables

/-!
# Plans

A plan says what the generated tests do, in the same way for every target: where requests go, what
they carry, and which answer each assertion is about. `Program.lower` makes the plan of a program.
It fails only if a test begins with an assertion.
-/

namespace ApiScenario

/-- The address of a request. -/
inductive Url where
  /-- A whole address. -/
  | absolute (address : String)
  /-- A path to put behind the base address. -/
  | relative (path : String)
deriving DecidableEq, Repr, Inhabited

/-- A path is a whole address if it begins with a web scheme. -/
def Url.ofPath (path : String) : Url :=
  if "http://".toList.isPrefixOf path.toList || "https://".toList.isPrefixOf path.toList then
    .absolute path
  else .relative path

/-- What a request carries. -/
inductive Body where
  /-- The method carries no body. -/
  | none
  /-- The method carries a body, and none is given. -/
  | empty
  | text (content : String)
deriving DecidableEq, Repr, Inhabited

/-- A request as it is sent. -/
structure Call where
  method : Method
  url : Url
  /-- The request's own headers. -/
  headers : List Header
  body : Body
deriving DecidableEq, Repr, Inhabited

/-- A request and the assertions about its answer. -/
structure Exchange where
  call : Call
  checks : List Assertion
deriving DecidableEq, Inhabited

/-- A test as it is run. -/
structure PlannedTest where
  name : String
  exchanges : List Exchange
deriving DecidableEq, Inhabited

/-- All that is needed to write tests for some target. -/
structure Plan where
  baseUrl : String
  /-- Headers for the requests that do not set them. -/
  defaultHeaders : List Header
  tests : List PlannedTest
deriving DecidableEq, Inhabited

/-- How many requests a plan sends. -/
def Plan.requestCount (p : Plan) : Nat := (p.tests.flatMap PlannedTest.exchanges).length

/-- An assertion that no request comes before. -/
structure OrphanAssertion where
  test : String
  keyword : Keyword
deriving DecidableEq, Repr, Inhabited

/-- An orphan assertion in words. -/
def OrphanAssertion.message (e : OrphanAssertion) : String :=
  "assertion " ++ e.keyword.text ++ " before any request in test '" ++ e.test ++ "'"

/-- The body that a request carries. -/
def Request.planBody (vs : List Variable) (r : Request) : Body :=
  if r.method.sendsBody then
    match r.body? with
    | some text => .text (Variables.substitute vs text)
    | none => .empty
  else .none

/-- A request with the values of variables in its path and its body. -/
def Request.plan (vs : List Variable) (r : Request) : Call where
  method := r.method
  url := Url.ofPath (Variables.substitute vs r.path)
  headers := r.headers
  body := r.planBody vs

/-- A test as far as it is planned, with one more statement: a request begins an exchange, and an
assertion is about the last one. -/
def PlannedTest.extend (vs : List Variable) (t : PlannedTest) :
    Statement → Except OrphanAssertion PlannedTest
  | .request r => .ok { t with exchanges := t.exchanges ++ [⟨r.plan vs, []⟩] }
  | .assertion a =>
    match t.exchanges.getLast? with
    | some e =>
      .ok { t with exchanges := t.exchanges.dropLast ++ [{ e with checks := e.checks ++ [a] }] }
    | none => .error ⟨t.name, a.keyword⟩

/-- The plan of a test, statement by statement. -/
def TestBlock.plan (vs : List Variable) (t : TestBlock) : Except OrphanAssertion PlannedTest :=
  t.statements.foldlM (PlannedTest.extend vs) ⟨t.name, []⟩

/-- The plans of tests, up to the first that has none. -/
def TestBlock.planAll (vs : List Variable) :
    List TestBlock → Except OrphanAssertion (List PlannedTest)
  | [] => .ok []
  | t :: rest =>
    match t.plan vs with
    | .error e => .error e
    | .ok planned => (planAll vs rest).map (planned :: ·)

/-- The plan of a program. -/
def Program.lower (p : Program) : Except OrphanAssertion Plan :=
  (TestBlock.planAll p.declarations p.tests).map fun tests => ⟨p.baseUrl, p.defaultHeaders, tests⟩

end ApiScenario
