import ApiScenario.Proofs.Procedures
import ApiScenario.Target.RustTests

/-!
# Test functions of a Rust file

The head of a file declares the helpers (`code_head`), and nothing else in it looks like a test
function. An exchange sends its request once (`code_exchange`), whatever its texts say, since a
line is told by its first word and no text comes first. So the lines of a file are those of its
head and those of a test function for each test (`linesOf_file`).
-/

namespace ApiScenario.RustTests

open Directive ProcedureStyle

/-- How the test functions of a file are told. -/
def procedureStyle : ProcedureStyle where
  marker := "#[test]"
  opening test := "fn test_" ++ test ++ "() \x7b"
  send := "    let resp = capture("
  introducers := ["fn ", "const ", "static ", "struct "]

/-- The names that a file declares before its test functions. -/
def helpers : List String :=
  ["BASE", "CLIENT", "DEFAULT_HEADERS", "setup", "Captured", "header", "capture", "put_header",
    "apply_default_headers"]

theorem quiet_blank : Quiet procedureStyle.texts [blank] := .spelled (by repeat constructor)

theorem code_blank : procedureStyle.Code 0 0 [] [blank] := .of_quiet quiet_blank

theorem code_setup (hs : List Header) : procedureStyle.Code 0 0 ["setup"] (setup hs) := by
  have hvec : Quiet procedureStyle.texts
      (block ["vec!["] ["]"] (hs.map defaultHeader)) := by
    refine .block ?_ (.map (fun _ => ?_) hs) ?_ <;> exact .spelled (by repeat constructor)
  refine .quiet_cons ?_ (.quiet_block ?_ (.append (.block ?_ hvec ?_) ?_) ?_) <;>
    exact .spelled (by repeat constructor)

theorem code_globals (baseUrl : String) (hs : List Header) :
    procedureStyle.Code 0 0 ["BASE", "CLIENT", "DEFAULT_HEADERS", "setup"]
      (globals baseUrl hs) :=
  .append (.spelled (by repeat constructor) :
    procedureStyle.Code 0 0 ["BASE", "CLIENT", "DEFAULT_HEADERS"] _) (code_setup hs)

theorem code_support : procedureStyle.Code 0 0
    ["Captured", "header", "capture", "put_header", "apply_default_headers"] support :=
  .spelled (by repeat constructor)

theorem code_head (baseUrl : String) (hs : List Header) :
    procedureStyle.Code 0 0 helpers (head baseUrl hs) := by
  have hpreamble : procedureStyle.Code 0 0 [] preamble := .spelled (by repeat constructor)
  exact (((hpreamble.append code_blank).append (code_globals baseUrl hs)).append
    code_blank).append code_support

theorem quiet_url (m : Method) (u : Url) : Quiet procedureStyle.texts
    [line (Line.ofWords [".", verb m, "("] ++ url u ++ Line.ofWords [")"])] := by
  cases m with
  | get | post | put | delete =>
    cases u with
    | absolute | relative => exact .spelled (by repeat constructor)

theorem quiet_body (b : Body) : Quiet procedureStyle.texts (body b) := by
  cases b with
  | none | empty | text => exact .spelled (by repeat constructor)

theorem quiet_send (c : Call) : Quiet procedureStyle.texts (send c) := by
  refine .cons ?_ (.nested (.append (.append (.cons (quiet_url c.method c.url) ?_)
    (quiet_body c.body)) ?_)) <;>
    exact .spelled (by repeat constructor)

theorem quiet_check (a : Assertion) : Quiet procedureStyle.texts [line (check a)] := by
  cases a with
  | statusEquals | statusRange | headerEquals | headerContains | bodyContains =>
    exact .spelled (by repeat constructor)

/-- An exchange sends its request once. -/
theorem code_exchange (e : Exchange) : procedureStyle.Code 1 1 [] (blank :: exchange e) := by
  have hsend : procedureStyle.Code 1 1 [] [line ["let resp = capture("]] :=
    .send (.spelled (by repeat constructor)) rfl (by decide) (by decide)
  refine .append (.of_quiet quiet_blank) (.append (.append (.of_quiet (.append (.append ?_
    (.map (fun _ => ?_) _)) ?_)) (.block hsend (.of_quiet (quiet_send e.call)) (.of_quiet ?_)))
    (.of_quiet (.map quiet_check _))) <;>
    exact .spelled (by repeat constructor)

/-- What stands between the opening line of a test function and its closing line. -/
theorem code_body (t : PlannedTest) : procedureStyle.Code 1 t.exchanges.length []
    (line ["let client = setup();"] :: t.exchanges.flatMap fun e => blank :: exchange e) := by
  have hfirst : procedureStyle.Code 1 0 [] [line ["let client = setup();"]] :=
    .spelled (by repeat constructor)
  have h := hfirst.append (Code.flatMap fun e (_ : e ∈ t.exchanges) => code_exchange e)
  rwa [Nat.zero_add] at h

theorem code_closing : procedureStyle.Code 0 0 [] [line ["\x7d"]] :=
  .spelled (by repeat constructor)

theorem code_opening {test : String} (h : Identifier.isIdentifier test.toList = true) :
    procedureStyle.Code 0 0 [procedureName test] [line ["fn test_", test, "() \x7b"]] :=
  .opening h (by repeat constructor)

theorem indented_opening (test : String) :
    Line.indented 0 ["fn test_", test, "() \x7b"] = procedureStyle.opening test :=
  indented_words (by decide) 0 test "() \x7b"

/-- The lines of a file. -/
def rows {p : Plan} (hp : p.HasNames) : procedureStyle.Rows helpers p.tests where
  head := layoutLines 0 (head p.baseUrl p.defaultHeaders)
  rest t := layoutLines 1 (line ["let client = setup();"] ::
    t.exchanges.flatMap fun e => blank :: exchange e) ++ layoutLines 0 [line ["\x7d"]]
  tail := [""]
  unmarked_head := (code_head p.baseUrl p.defaultHeaders).unmarked
  unmarked_blank := code_blank.unmarked
  declared_marker := by decide
  unmarked_opening t ht := by
    rw [← indented_opening t.name]
    exact (code_opening (hp t ht)).unmarked
  unmarked_rest t _ := (code_body t).unmarked.append code_closing.unmarked
  unmarked_tail := code_blank.unmarked

/-- A test function and the blank line before it. -/
theorem quiet_testFunction {t : PlannedTest} (ht : Identifier.isIdentifier t.name.toList = true) :
    Quiet [] (blank :: testFunction t) := by
  refine .cons ?_ (.cons ?_ (.block (code_opening ht).quiet (code_body t).quiet
    code_closing.quiet)) <;>
    exact .spelled (by repeat constructor)

/-- **A file is its head and a test function for each test.** -/
theorem linesOf_file {p : Plan} (hp : p.HasNames) :
    linesOf (codeText (file p)) = (rows hp).lines := by
  have hhead := (code_head p.baseUrl p.defaultHeaders).quiet
  have htests : ∀ t ∈ p.tests, Quiet [] (blank :: testFunction t) :=
    fun t ht => quiet_testFunction (hp t ht)
  have hprocedures : (p.tests.flatMap fun t => layoutLines 0 (blank :: testFunction t))
      = p.tests.flatMap (rows hp).procedure :=
    List.flatMap_congr fun t _ => layoutLines_procedure rfl (indented_opening t.name) ["\x7d"]
      (code_body t).quiet.level
  have hfile : Quiet [] (file p) := hhead.append (.flatMap htests)
  rw [hfile.linesOf_codeText, file, layoutLines_append, hhead.level,
    layoutLines_flatMap fun t ht => (htests t ht).level, hprocedures]
  rfl

end ApiScenario.RustTests
