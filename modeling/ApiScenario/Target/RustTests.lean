import ApiScenario.Code
import ApiScenario.Plan

/-!
# Rust tests

A file of Rust test functions, one for each test of the plan, that send their requests with a
shared blocking HTTP client.

The file has a head that depends on the base address and the default headers alone (`head`), and
one function for each test that depends on that test alone (`testFunction`). A request first gets
its own headers, all of them, and then each default header whose name it does not have yet.
-/

namespace ApiScenario.RustTests

open Directive

/-- How long the client waits for a connection, in seconds. -/
def connectTimeout : Int64 := 5

/-- How long a request can take, in seconds. -/
def requestTimeout : Int64 := 10

/-- What the file begins with. -/
def preamble : List Directive :=
  lines ["// @generated by testlang. Do not edit.", "#![allow(dead_code, unused_imports)]"] ++
    [blank] ++
    lines ["use std::sync::OnceLock;", "use std::time::Duration;"] ++
    [blank] ++
    lines ["use reqwest::blocking::\x7bClient, Response\x7d;",
      "use reqwest::header::\x7bHeaderMap, HeaderName, HeaderValue\x7d;"]

/-- The entry of a default header. -/
def defaultHeader (h : Header) : Directive :=
  line ["(", .literal h.key, ", ", .literal h.value, "),"]

/-- The function that makes the client and registers the default headers, once. -/
def setup (defaultHeaders : List Header) : List Directive :=
  line ["/// Builds the shared client and registers default headers once."] ::
    block ["fn setup() -> &'static Client \x7b"] ["\x7d"]
      (block ["DEFAULT_HEADERS.get_or_init(|| \x7b"] ["\x7d);"]
          (block ["vec!["] ["]"] (defaultHeaders.map defaultHeader)) ++
        block ["CLIENT.get_or_init(|| \x7b"] ["\x7d)"]
          (line ["Client::builder()"] ::
            nested [
              line [".connect_timeout(Duration::from_secs(", .number connectTimeout, "))"],
              line [".build()"],
              line [".expect(", .literal "failed to build HTTP client", ")"]]))

/-- The constants of the file. -/
def globals (baseUrl : String) (defaultHeaders : List Header) : List Directive :=
  [line ["const BASE: &str = ", .literal baseUrl, ";"],
    blank,
    line ["static CLIENT: OnceLock<Client> = OnceLock::new();"],
    line ["static DEFAULT_HEADERS: OnceLock<Vec<(&'static str, &'static str)>> = ",
      "OnceLock::new();"],
    blank] ++ setup defaultHeaders

/-- The type of an answer, and how one of its headers is read. -/
def captured : List Directive := [
  line ["struct Captured \x7b"],
  line ["    status: i64,"],
  line ["    headers: HeaderMap,"],
  line ["    body: String,"],
  line ["\x7d"],
  line [],
  line ["impl Captured \x7b"],
  line ["    /// Header value, or ", .literal "", " when absent or not valid text."],
  line ["    fn header(&self, name: &str) -> &str \x7b"],
  line ["        self.headers"],
  line ["            .get(name)"],
  line ["            .and_then(|v| v.to_str().ok())"],
  line ["            .unwrap_or(", .literal "", ")"],
  line ["    \x7d"],
  line ["\x7d"]]

/-- The function that reads an answer. -/
def capture : List Directive := [
  line ["fn capture(response: Response) -> Captured \x7b"],
  line ["    let status = i64::from(response.status().as_u16());"],
  line ["    let headers = response.headers().clone();"],
  line ["    let body = response.text().expect(", .literal "failed to read response body", ");"],
  line ["    Captured \x7b"],
  line ["        status,"],
  line ["        headers,"],
  line ["        body,"],
  line ["    \x7d"],
  line ["\x7d"]]

/-- The functions that set headers. -/
def headerFunctions : List Directive := [
  line ["fn put_header(headers: &mut HeaderMap, name: &str, value: &str) \x7b"],
  line ["    let name = HeaderName::from_bytes(name.as_bytes()).expect(",
    .literal "invalid header name", ");"],
  line ["    let value = HeaderValue::from_str(value).expect(", .literal "invalid header value", ");"],
  line ["    headers.append(name, value);"],
  line ["\x7d"],
  line [],
  line ["/// Adds each default header the request did not set itself."],
  line ["fn apply_default_headers(headers: &mut HeaderMap) \x7b"],
  line ["    for (name, value) in DEFAULT_HEADERS.get().into_iter().flatten() \x7b"],
  line ["        let name = HeaderName::from_bytes(name.as_bytes()).expect(",
    .literal "invalid header name", ");"],
  line ["        if !headers.contains_key(&name) \x7b"],
  line ["            let value = HeaderValue::from_str(value).expect(",
    .literal "invalid header value", ");"],
  line ["            headers.insert(name, value);"],
  line ["        \x7d"],
  line ["    \x7d"],
  line ["\x7d"]]

/-- What all test functions use. It is written from the left margin, each line with its own
indentation. -/
def support : List Directive := captured ++ [line []] ++ capture ++ [line []] ++ headerFunctions

/-- Everything before the first test. -/
def head (baseUrl : String) (defaultHeaders : List Header) : List Directive :=
  preamble ++ [blank] ++ globals baseUrl defaultHeaders ++ [blank] ++ support

/-- The client's method for a request. -/
def verb : Method → String
  | .get => "get"
  | .post => "post"
  | .put => "put"
  | .delete => "delete"

/-- The address of a request. -/
def url : Url → Line
  | .absolute address => [.literal address]
  | .relative path =>
    ["format!(", .literal "\x7b\x7d\x7b\x7d", ", BASE, ", .literal path, ")"]

/-- The line that gives a request its body, if it has one. -/
def body : Body → List Directive
  | .none => []
  | .empty => [line [".body(", .literal "", ")"]]
  | .text content => [line [".body(", .literal content, ")"]]

/-- The line that gives a request one of its own headers. -/
def ownHeader (h : Header) : Directive :=
  line ["put_header(&mut headers, ", .literal h.key, ", ", .literal h.value, ");"]

/-- The lines that send a request. -/
def send (c : Call) : List Directive :=
  line ["client"] ::
    nested
      ([line (Line.ofWords [".", verb c.method, "("] ++ url c.url ++ Line.ofWords [")"]),
          line [".timeout(Duration::from_secs(", .number requestTimeout, "))"],
          line [".headers(headers)"]] ++
        body c.body ++
        [line [".send()"], line [".expect(", .literal "request failed", "),"]])

/-- The line that checks an answer. -/
def check : Assertion → Line
  | .statusEquals code => ["assert_eq!(resp.status, ", .number code, ");"]
  | .statusRange start stop =>
    ["assert!((", .number start, "..=", .number stop, ").contains(&resp.status), ",
      .literal ("Status code should be in range [" ++ Decimal.text start ++ ".." ++
        Decimal.text stop ++ "], got \x7b\x7d"),
      ", resp.status);"]
  | .headerEquals key value =>
    ["assert_eq!(resp.header(", .literal key, "), ", .literal value, ");"]
  | .headerContains key substring =>
    ["assert!(resp.header(", .literal key, ").contains(", .literal substring, "), ",
      .literal "header \x7b\x7d should contain \x7b:?\x7d", ", ", .literal key, ", ",
      .literal substring, ");"]
  | .bodyContains substring =>
    ["assert!(resp.body.contains(", .literal substring, "), ",
      .literal "body should contain \x7b:?\x7d", ", ", .literal substring, ");"]

/-- The lines of one request and the checks of its answer. -/
def exchange (e : Exchange) : List Directive :=
  [line ["let mut headers = HeaderMap::new();"]] ++ e.call.headers.map ownHeader ++
    [line ["apply_default_headers(&mut headers);"]] ++
    block ["let resp = capture("] [");"] (send e.call) ++
    e.checks.map fun a => line (check a)

/-- The function of a test. -/
def testFunction (t : PlannedTest) : List Directive :=
  line ["#[test]"] ::
    block ["fn test_", t.name, "() \x7b"] ["\x7d"]
      (line ["let client = setup();"] :: t.exchanges.flatMap fun e => blank :: exchange e)

/-- The whole file of a plan. -/
def file (p : Plan) : List Directive :=
  head p.baseUrl p.defaultHeaders ++ p.tests.flatMap fun t => blank :: testFunction t

end ApiScenario.RustTests
