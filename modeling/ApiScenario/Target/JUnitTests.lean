import ApiScenario.Code
import ApiScenario.Plan

/-!
# JUnit tests

A Java class with one JUnit test method for each test of the plan, that send their requests with a
shared client of the Java library.

The class has a head that depends on its name, the base address and the default headers alone
(`head` and `fixture`), and one method for each test that depends on that test alone
(`testMethod`). A request first gets its own headers, all of them, and then each default header
whose name is not among them.
-/

namespace ApiScenario.JUnitTests

open Directive

/-- What the file begins with. -/
def preamble : List Directive :=
  lines ["// Generated by testlang. Do not edit.",
      "import org.junit.jupiter.api.*;",
      "import static org.junit.jupiter.api.Assertions.*;",
      "import java.net.http.*;",
      "import java.net.*;",
      "import java.time.Duration;",
      "import java.nio.charset.StandardCharsets;",
      "import java.util.*;"] ++
    [blank]

/-- The line that registers a default header. -/
def defaultHeader (h : Header) : Directive :=
  line ["DEFAULT_HEADERS.put(", .literal h.key, ", ", .literal h.value, ");"]

/-- The method that makes the client and registers the default headers. -/
def setup (defaultHeaders : List Header) : List Directive :=
  line ["@BeforeAll"] ::
    block ["static void setup() \x7b"] ["\x7d"]
      (line ["client = HttpClient.newBuilder()"] ::
        nested (lines [".connectTimeout(Duration.ofSeconds(5))", ".build();"]) ++
        defaultHeaders.map defaultHeader)

/-- The method that adds default headers to a request. -/
def applyDefaultHeaders : List Directive :=
  line ["/** Adds each default header whose name is not in \x7b@code explicit\x7d. */"] ::
    block ["static void applyDefaultHeaders(HttpRequest.Builder b, String... explicit) \x7b"]
      ["\x7d"]
      (lines ["Set<String> taken = new TreeSet<>(String.CASE_INSENSITIVE_ORDER);",
          "taken.addAll(Arrays.asList(explicit));"] ++
        block ["for (Map.Entry<String, String> h : DEFAULT_HEADERS.entrySet()) \x7b"] ["\x7d"]
          (block ["if (!taken.contains(h.getKey())) \x7b"] ["\x7d"]
            (lines ["b.header(h.getKey(), h.getValue());"])))

/-- What all test methods use. -/
def fixture (baseUrl : String) (defaultHeaders : List Header) : List Directive :=
  [line ["static String BASE = ", .literal baseUrl, ";"],
      line ["static Map<String, String> DEFAULT_HEADERS = new LinkedHashMap<>();"],
      line ["static HttpClient client;"],
      blank] ++
    setup defaultHeaders ++ [blank] ++ applyDefaultHeaders

/-- The address of a request. -/
def url : Url → Line
  | .absolute address => [.literal address]
  | .relative path => ["BASE + ", .literal path]

/-- The text that a request carries; a body that is not given is empty. -/
def content : Body → String
  | .none => ""
  | .empty => ""
  | .text content => content

/-- The call of a method with the body of a request. -/
def withBody (method : String) (b : Body) : Line :=
  [".timeout(Duration.ofSeconds(10)).", method, "(HttpRequest.BodyPublishers.ofString(",
    .literal (content b), "));"]

/-- The line that gives a request its method and its body. -/
def method (b : Body) : Method → Line
  | .get => [".timeout(Duration.ofSeconds(10)).GET();"]
  | .delete => [".timeout(Duration.ofSeconds(10)).DELETE();"]
  | .post => withBody "POST" b
  | .put => withBody "PUT" b

/-- The line that gives a request one of its own headers. -/
def ownHeader (h : Header) : Directive :=
  line ["b.header(", .literal h.key, ", ", .literal h.value, ");"]

/-- The name of a header that a request has itself, behind a comma. -/
def ownName (h : Header) : Line := [", ", .literal h.key]

/-- The line that gives a request the default headers other than those it has itself. -/
def otherHeaders (own : List Header) : Line :=
  Line.ofWords ["applyDefaultHeaders(b"] ++ own.flatMap ownName ++ Line.ofWords [");"]

/-- Whether an integer is one of Java's short integers. -/
def fitsInt (n : Int64) : Bool :=
  Int32.minValue.toInt ≤ n.toInt && n.toInt ≤ Int32.maxValue.toInt

/-- An integer of Java; the letter marks one that is not short. -/
def integer (n : Int64) : Line := if fitsInt n then [.number n] else [.number n, "L"]

/-- What is said when a status is out of range. -/
def rangeMessage (start stop : Int64) : Line :=
  [", ",
    .literal ("Status code should be in range [" ++ Decimal.text start ++ ".." ++
      Decimal.text stop ++ "]")]

/-- The line that checks an answer. -/
def check : Assertion → Line
  | .statusEquals code =>
    if fitsInt code then Line.ofWords ["assertEquals("] ++ integer code ++
      Line.ofWords [", resp.statusCode());"]
    else Line.ofWords ["assertEquals("] ++ integer code ++
      Line.ofWords [", (long) resp.statusCode());"]
  | .statusRange start stop =>
    Line.ofWords ["assertTrue(resp.statusCode() >= "] ++ integer start ++
      Line.ofWords [" && resp.statusCode() <= "] ++ integer stop ++
      rangeMessage start stop ++ Line.ofWords [");"]
  | .headerEquals key value =>
    ["assertEquals(", .literal value, ", resp.headers().firstValue(", .literal key, ").orElse(",
      .literal "", "));"]
  | .headerContains key substring =>
    ["assertTrue(resp.headers().firstValue(", .literal key, ").orElse(", .literal "",
      ").contains(", .literal substring, "));"]
  | .bodyContains substring => ["assertTrue(resp.body().contains(", .literal substring, "));"]

/-- The lines of one request and the checks of its answer. -/
def exchange (e : Exchange) : List Directive :=
  line (Line.ofWords ["b = HttpRequest.newBuilder(URI.create("] ++ url e.call.url ++
      Line.ofWords ["))"]) ::
    nested [line (method e.call.body e.call.method)] ++
    e.call.headers.map ownHeader ++
    [line (otherHeaders e.call.headers),
      line ["resp = client.send(b.build(), ",
        "HttpResponse.BodyHandlers.ofString(StandardCharsets.UTF_8));"]] ++
    e.checks.map fun a => line (check a)

/-- The method of a test. -/
def testMethod (t : PlannedTest) : List Directive :=
  line ["@Test"] ::
    block ["void test_", t.name, "() throws Exception \x7b"] ["\x7d"]
      (lines ["HttpRequest.Builder b;", "HttpResponse<String> resp;"] ++
        t.exchanges.flatMap fun e => blank :: exchange e)

/-- The whole file of a plan, with the class called `className`. -/
def file (className : String) (p : Plan) : List Directive :=
  preamble ++
    block ["public class ", className, " \x7b"] ["\x7d"]
      (fixture p.baseUrl p.defaultHeaders ++ p.tests.flatMap fun t => blank :: testMethod t)

end ApiScenario.JUnitTests
