import ApiScenario.Proofs.JUnitLiterals
import ApiScenario.Proofs.Procedures

/-!
# Test methods of a JUnit class

The fixture of a class declares the helpers (`code_fixture`), an exchange sends its request once
(`code_exchange`), and the lines of a file are those before the first test method, those of a
method for each test, and the end of the class (`linesOf_file`). Methods stand one level further in
than the class, so all their lines are indented.
-/

namespace ApiScenario.JUnitTests

open Directive ProcedureStyle

/-- How the test methods of a file are told. -/
def procedureStyle : ProcedureStyle where
  marker := "    @Test"
  opening test := "    void test_" ++ test ++ "() throws Exception \x7b"
  send :=
    "        resp = client.send(b.build(), HttpResponse.BodyHandlers.ofString(StandardCharsets.UTF_8));"
  introducers := ["void ", "static void ", "static String ", "static Map<String, String> ",
    "static HttpClient "]

/-- The names that a file declares before its test methods. -/
def helpers : List String := ["BASE", "DEFAULT_HEADERS", "client", "setup", "applyDefaultHeaders"]

theorem quiet_blank : Quiet procedureStyle.texts [blank] := .spelled (by repeat constructor)

theorem code_blank : procedureStyle.Code 0 0 [] [blank] := .of_quiet quiet_blank

theorem quiet_preamble : Quiet procedureStyle.texts preamble := .spelled (by repeat constructor)

theorem code_setup (hs : List Header) : procedureStyle.Code 1 0 ["setup"] (setup hs) := by
  refine .quiet_cons ?_ (.quiet_block ?_ (.append (.cons ?_ ?_) (.map (fun _ => ?_) hs)) ?_) <;>
    exact .spelled (by repeat constructor)

theorem code_fixture (baseUrl : String) (hs : List Header) :
    procedureStyle.Code 1 0 helpers (fixture baseUrl hs) :=
  .append (.append (.append (.spelled (by repeat constructor) :
      procedureStyle.Code 1 0 ["BASE", "DEFAULT_HEADERS", "client"] _) (code_setup hs))
    (.of_quiet quiet_blank))
    (.spelled (by repeat constructor) : procedureStyle.Code 1 0 ["applyDefaultHeaders"] _)

theorem quiet_url (u : Url) : Quiet procedureStyle.texts
    [line (Line.ofWords ["b = HttpRequest.newBuilder(URI.create("] ++ url u ++
      Line.ofWords ["))"])] := by
  cases u with
  | absolute | relative => exact .spelled (by repeat constructor)

theorem quiet_method (b : Body) (m : Method) : Quiet procedureStyle.texts [line (method b m)] := by
  cases m with
  | get | delete | post | put => exact .spelled (by repeat constructor)

theorem quiet_otherHeaders (hs : List Header) :
    Quiet procedureStyle.texts [line (otherHeaders hs)] :=
  .spelled ⟨.line (.silent_append (isSilent_ownNames hs) (.word .nil)) .nil,
    by repeat constructor⟩

theorem quiet_check (a : Assertion) : Quiet procedureStyle.texts [line (check a)] := by
  cases a with
  | statusEquals code =>
    rw [check, integer]
    cases fitsInt code <;> exact .spelled (by repeat constructor)
  | statusRange start stop =>
    rw [check, integer, integer]
    cases fitsInt start <;> cases fitsInt stop <;> exact .spelled (by repeat constructor)
  | headerEquals | headerContains | bodyContains => exact .spelled (by repeat constructor)

/-- An exchange sends its request once. -/
theorem code_exchange (e : Exchange) : procedureStyle.Code 2 1 [] (blank :: exchange e) := by
  have hsend : procedureStyle.Code 2 1 [] [line ["resp = client.send(b.build(), ",
      "HttpResponse.BodyHandlers.ofString(StandardCharsets.UTF_8));"]] :=
    .send (.spelled (by repeat constructor)) rfl (by decide) (by decide)
  refine .append (.of_quiet quiet_blank) (.append (.append (.of_quiet (.append (.cons (quiet_url _)
    (.nested (quiet_method _ _))) (.map (fun _ => ?_) _)))
    (.append (.of_quiet (quiet_otherHeaders _)) hsend)) (.of_quiet (.map quiet_check _)))
  exact .spelled (by repeat constructor)

/-- What stands between the opening line of a test method and its closing line. -/
theorem code_body (t : PlannedTest) : procedureStyle.Code 2 t.exchanges.length []
    (lines ["HttpRequest.Builder b;", "HttpResponse<String> resp;"] ++
      t.exchanges.flatMap fun e => blank :: exchange e) := by
  have hfirst : procedureStyle.Code 2 0 []
      (lines ["HttpRequest.Builder b;", "HttpResponse<String> resp;"]) :=
    .spelled (by repeat constructor)
  have h := hfirst.append (Code.flatMap fun e (_ : e ∈ t.exchanges) => code_exchange e)
  rwa [Nat.zero_add] at h

theorem quiet_closing : Quiet procedureStyle.texts [line ["\x7d"]] :=
  .spelled (by repeat constructor)

theorem code_opening {test : String} (h : Identifier.isIdentifier test.toList = true) :
    procedureStyle.Code 1 0 [procedureName test]
      [line ["void test_", test, "() throws Exception \x7b"]] :=
  .opening h (by repeat constructor)

theorem indented_opening (test : String) :
    Line.indented 1 ["void test_", test, "() throws Exception \x7b"]
      = procedureStyle.opening test :=
  indented_words (by decide) 1 test "() throws Exception \x7b"

/-- A test method and the blank line before it. -/
theorem quiet_testMethod {t : PlannedTest} (ht : Identifier.isIdentifier t.name.toList = true) :
    Quiet [] (blank :: testMethod t) := by
  refine .cons ?_ (.cons ?_ (.block (code_opening ht).quiet (code_body t).quiet
    (quiet_closing.mono (List.nil_subset _)))) <;>
    exact .spelled (by repeat constructor)

theorem quiet_className (name : String) :
    Quiet procedureStyle.texts [line ["public class ", ClassName.choose name, " \x7b"]] :=
  .spelled ⟨.line (.silent (ClassName.isSilent_choose name) (.word .nil)) .nil,
    by repeat constructor⟩

/-- The lines of a file. -/
def rows (name : String) {p : Plan} (hp : p.HasNames) :
    procedureStyle.Rows helpers p.tests where
  head := layoutLines 0 preamble ++
    layoutLines 0 [line ["public class ", ClassName.choose name, " \x7b"]] ++
    layoutLines 1 (fixture p.baseUrl p.defaultHeaders)
  rest t := layoutLines 2 (lines ["HttpRequest.Builder b;", "HttpResponse<String> resp;"] ++
    t.exchanges.flatMap fun e => blank :: exchange e) ++ layoutLines 1 [line ["\x7d"]]
  tail := layoutLines 0 [line ["\x7d"]] ++ layoutLines 0 [blank]
  unmarked_head := ((Code.of_quiet quiet_preamble).unmarked.append
    (Code.of_quiet (quiet_className name)).unmarked).append (code_fixture _ _).unmarked
  unmarked_blank := code_blank.unmarked
  declared_marker := by decide
  unmarked_opening t ht := by
    rw [← indented_opening t.name]
    exact (code_opening (hp t ht)).unmarked
  unmarked_rest t _ := (code_body t).unmarked.append (Code.of_quiet quiet_closing).unmarked
  unmarked_tail := (Code.of_quiet quiet_closing).unmarked.append code_blank.unmarked

/-- **A file is its head, a test method for each test, and an end.** -/
theorem linesOf_file (name : String) {p : Plan} (hp : p.HasNames) :
    linesOf (codeText (file (ClassName.choose name) p)) = (rows name hp).lines := by
  have hpreamble := quiet_preamble.mono (List.nil_subset _)
  have hclass := (quiet_className name).mono (List.nil_subset _)
  have hfixture := (code_fixture p.baseUrl p.defaultHeaders).quiet
  have htests : ∀ t ∈ p.tests, Quiet [] (blank :: testMethod t) :=
    fun t ht => quiet_testMethod (hp t ht)
  have hprocedures : (p.tests.flatMap fun t => layoutLines 1 (blank :: testMethod t))
      = p.tests.flatMap (rows name hp).procedure :=
    List.flatMap_congr fun t _ => layoutLines_procedure rfl (indented_opening t.name) ["\x7d"]
      (code_body t).quiet.level
  have hbody := hfixture.append (.flatMap htests)
  have hfile : Quiet [] (file (ClassName.choose name) p) :=
    hpreamble.append (.block hclass hbody (quiet_closing.mono (List.nil_subset _)))
  rw [hfile.linesOf_codeText, file, layoutLines_append, hpreamble.level, block_eq,
    layoutLines_append, layoutLines_append, (hclass.append hbody.nested).level, hclass.level,
    layoutLines_nested hbody.level, layoutLines_append, hfixture.level,
    layoutLines_flatMap fun t ht => (htests t ht).level, hprocedures]
  simp only [Rows.lines, rows, List.append_assoc]
  rfl

end ApiScenario.JUnitTests
