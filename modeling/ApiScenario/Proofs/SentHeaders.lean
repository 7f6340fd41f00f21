import ApiScenario.Compile
import ApiScenario.Target.RustTests
import ApiScenario.Proofs.HeaderRules
import ApiScenario.Proofs.JUnitLiterals

/-!
# Headers that generated tests send

Generated code deals with headers in a few kinds of lines (`HeaderAction`): default headers are
registered, then each request takes its own headers, is filled up with default headers and is sent.
What registering and filling up mean is left to the target (`HeaderRule`). The headers that a file
sends follow from its lines one after the other (`HeaderRule.sentHeaders_eq`).

The files of both targets register all default headers and send the requests of the plan in order
(`actions_file`), so the two rules for default headers can be compared request by request. They
agree unless a default header is repeated under another spelling or ends with another value than it
begins with.
-/

namespace ApiScenario

open Directive

/-! ## Lines about headers -/

/-- What a line of generated code does with headers. -/
inductive HeaderAction where
  /-- A default header is registered. -/
  | register (h : Header)
  /-- A request without headers is begun. -/
  | begin
  /-- The request gets one of its own headers. -/
  | add (h : Header)
  /-- The request gets the default headers; some targets say which names it has already. -/
  | fill (named : List String)
  | send
deriving DecidableEq

/-- How a target deals with headers. -/
structure HeaderRule where
  /-- What a line does with headers, if it does anything with them. -/
  read : Line → Option HeaderAction
  /-- The default headers after one more is registered. -/
  register : List Header → Header → List Header
  /-- The headers of a request, given the default headers, the names that it has already and the
  headers that it has already. -/
  fill : List Header → List String → List Header → List Header

/-- What is known while code runs. -/
structure HeaderState where
  defaults : List Header := []
  current : List Header := []
  /-- The headers of the requests sent so far. -/
  sent : List (List Header) := []

/-- What a request with these headers of its own does with headers. -/
def requestActions (named : List String) (own : List Header) : List HeaderAction :=
  .begin :: (own.map .add ++ [.fill named, .send])

namespace HeaderRule

variable (rule : HeaderRule)

/-- What a directive does with headers. -/
def action? : Directive → Option HeaderAction
  | .line l => rule.read l
  | .blank | .indent | .dedent => none

/-- What code does with headers, line by line. -/
def actions (code : List Directive) : List HeaderAction := code.filterMap rule.action?

/-- What one action does. -/
def step (s : HeaderState) : HeaderAction → HeaderState
  | .register h => { s with defaults := rule.register s.defaults h }
  | .begin => { s with current := [] }
  | .add h => { s with current := s.current ++ [h] }
  | .fill named => { s with current := rule.fill s.defaults named s.current }
  | .send => { s with sent := s.sent ++ [s.current] }

/-- The headers of the requests that code sends, one after the other. -/
def sentHeaders (code : List Directive) : List (List Header) :=
  ((rule.actions code).foldl rule.step {}).sent

theorem actions_append (xs ys : List Directive) :
    rule.actions (xs ++ ys) = rule.actions xs ++ rule.actions ys := List.filterMap_append ..

theorem actions_cons_none {x : Directive} (h : rule.action? x = none) (xs : List Directive) :
    rule.actions (x :: xs) = rule.actions xs := List.filterMap_cons_none h

theorem actions_cons_some {x : Directive} {a : HeaderAction} (h : rule.action? x = some a)
    (xs : List Directive) : rule.actions (x :: xs) = a :: rule.actions xs :=
  List.filterMap_cons_some h

theorem actions_nested (body : List Directive) :
    rule.actions (nested body) = rule.actions body := by
  rw [nested, actions_cons_none rule rfl, actions_append]
  exact List.append_nil _

theorem actions_block {opening closing : Line} (ho : rule.action? (line opening) = none)
    (hc : rule.action? (line closing) = none) (body : List Directive) :
    rule.actions (block opening closing body) = rule.actions body := by
  rw [block, actions_cons_none rule ho, actions_cons_none rule rfl, actions_append,
    actions_cons_none rule rfl, actions_cons_none rule hc]
  exact List.append_nil _

theorem actions_map {α : Type} {f : α → Directive} {g : α → HeaderAction}
    (h : ∀ a, rule.action? (f a) = some (g a)) (as : List α) :
    rule.actions (as.map f) = as.map g := by
  induction as with
  | nil => rfl
  | cons a as ih => rw [List.map_cons, actions_cons_some rule (h a), ih, List.map_cons]

theorem actions_map_none {α : Type} {f : α → Directive} (h : ∀ a, rule.action? (f a) = none)
    (as : List α) : rule.actions (as.map f) = [] := by
  induction as with
  | nil => rfl
  | cons a as ih => rw [List.map_cons, actions_cons_none rule (h a), ih]

theorem actions_flatMap {α : Type} (f : α → List Directive) (as : List α) :
    rule.actions (as.flatMap f) = as.flatMap fun a => rule.actions (f a) := by
  induction as with
  | nil => rfl
  | cons a as ih => rw [List.flatMap_cons, List.flatMap_cons, actions_append, ih]

theorem foldl_register (ds : List Header) (s : HeaderState) :
    (ds.map HeaderAction.register).foldl rule.step s =
      { s with defaults := ds.foldl rule.register s.defaults } := by
  induction ds generalizing s with
  | nil => rfl
  | cons d ds ih => exact ih _

theorem foldl_add (hs : List Header) (s : HeaderState) :
    (hs.map HeaderAction.add).foldl rule.step s = { s with current := s.current ++ hs } := by
  induction hs generalizing s with
  | nil => simp
  | cons h hs ih =>
    rw [List.map_cons, List.foldl_cons, ih]
    simp [step]

/-- A request is sent with its own headers, filled up. -/
theorem foldl_request (named : List String) (own : List Header) (s : HeaderState) :
    (requestActions named own).foldl rule.step s =
      { s with
        current := rule.fill s.defaults named own
        sent := s.sent ++ [rule.fill s.defaults named own] } := by
  rw [requestActions, List.foldl_cons, List.foldl_append, foldl_add]
  rfl

/-- Requests do not touch the default headers, so each of them is filled up with the same ones. -/
theorem foldl_requests {α : Type} (named : α → List String) (own : α → List Header) (es : List α)
    (s : HeaderState) :
    ((es.flatMap fun e => requestActions (named e) (own e)).foldl rule.step s).sent =
      s.sent ++ es.map fun e => rule.fill s.defaults (named e) (own e) := by
  induction es generalizing s with
  | nil => simp
  | cons e es ih =>
    rw [List.flatMap_cons, List.foldl_append, foldl_request, ih]
    simp

/-- Code that registers its default headers first sends each request with its own headers, filled
up with the default headers. -/
theorem sentHeaders_eq {α : Type} {code : List Directive} {ds : List Header} {es : List α}
    {named : α → List String} {own : α → List Header}
    (h : rule.actions code = ds.map HeaderAction.register ++
      es.flatMap fun e => requestActions (named e) (own e)) :
    rule.sentHeaders code =
      es.map fun e => rule.fill (ds.foldl rule.register []) (named e) (own e) := by
  rw [sentHeaders, h, List.foldl_append, foldl_register, foldl_requests]
  rfl

end HeaderRule

/-! ## The files of the targets -/

namespace RustTests

/-- What a line of a Rust file does with headers. -/
def headerAction? : Line → Option HeaderAction
  | [.verbatim "(", .literal key, .verbatim ", ", .literal value, .verbatim "),"] =>
    some (.register ⟨key, value⟩)
  | [.verbatim "let mut headers = HeaderMap::new();"] => some .begin
  | [.verbatim "put_header(&mut headers, ", .literal key, .verbatim ", ", .literal value,
      .verbatim ");"] =>
    some (.add ⟨key, value⟩)
  | [.verbatim "apply_default_headers(&mut headers);"] => some (.fill [])
  | [.verbatim ".headers(headers)"] => some .send
  | _ => none

/-- Default headers stand in a list, and a request gets those that it does not have yet. -/
def headerRule : HeaderRule where
  read := headerAction?
  register ds d := ds ++ [d]
  fill ds _ hs := fillAbsent ds hs

theorem foldl_register (ds : List Header) : ds.foldl headerRule.register [] = ds := by
  have happend : ∀ hs : List Header, ds.foldl headerRule.register hs = hs ++ ds := by
    induction ds with
    | nil => simp
    | cons d ds ih =>
      intro hs
      rw [List.foldl_cons, ih]
      simp [headerRule]
  exact happend []

theorem actions_setup (ds : List Header) :
    headerRule.actions (setup ds) = ds.map .register := by
  have hlist : headerRule.actions (ds.map defaultHeader) = ds.map .register :=
    headerRule.actions_map (fun _ => rfl) ds
  rw [setup, headerRule.actions_cons_none rfl, headerRule.actions_block rfl rfl,
    headerRule.actions_append, headerRule.actions_block rfl rfl,
    headerRule.actions_block rfl rfl, headerRule.actions_block rfl rfl, hlist,
    headerRule.actions_cons_none rfl, headerRule.actions_nested]
  exact List.append_nil _

theorem actions_head (baseUrl : String) (ds : List Header) :
    headerRule.actions (head baseUrl ds) = ds.map .register := by
  have hpreamble : headerRule.actions preamble = [] := by decide +kernel
  have hglobals : headerRule.actions (globals baseUrl ds) = ds.map .register := by
    rw [globals, headerRule.actions_append, actions_setup]
    rfl
  have hsupport : headerRule.actions support = [] := by decide +kernel
  have hblank : headerRule.actions [blank] = [] := rfl
  simp only [head, headerRule.actions_append, hpreamble, hglobals, hsupport, hblank,
    List.nil_append, List.append_nil]

theorem actions_send (c : Call) : headerRule.actions (send c) = [.send] := by
  have hbody : headerRule.actions (body c.body) = [] := by cases c.body <;> rfl
  rw [send, headerRule.actions_cons_none rfl, headerRule.actions_nested,
    headerRule.actions_append, headerRule.actions_append, hbody]
  rfl

theorem actions_exchange (e : Exchange) :
    headerRule.actions (exchange e) = requestActions [] e.call.headers := by
  have hown : headerRule.actions (e.call.headers.map ownHeader) = e.call.headers.map .add :=
    headerRule.actions_map (fun _ => rfl) _
  have hchecks : headerRule.actions (e.checks.map fun a => line (check a)) = [] :=
    headerRule.actions_map_none (fun a => by cases a <;> rfl) _
  rw [exchange, headerRule.actions_append, headerRule.actions_append, headerRule.actions_append,
    headerRule.actions_append, hown, hchecks, headerRule.actions_block rfl rfl, actions_send,
    List.append_nil, List.append_assoc, List.append_assoc]
  rfl

theorem actions_file (p : Plan) :
    headerRule.actions (file p) = p.defaultHeaders.map .register ++
      (p.tests.flatMap PlannedTest.exchanges).flatMap fun e =>
        requestActions [] e.call.headers := by
  -- The name of a test stands in the first line of its function, behind words that set no header.
  have htest : ∀ t, headerRule.actions (blank :: testFunction t) =
      t.exchanges.flatMap fun e => requestActions [] e.call.headers := by
    intro t
    rw [headerRule.actions_cons_none rfl, testFunction, headerRule.actions_cons_none rfl,
      headerRule.actions_block rfl rfl, headerRule.actions_cons_none rfl,
      headerRule.actions_flatMap]
    simp only [headerRule.actions_cons_none (x := blank) rfl, actions_exchange]
  rw [file, headerRule.actions_append, actions_head, headerRule.actions_flatMap,
    List.flatMap_assoc]
  simp only [htest]

/-- A Rust file sends each request with its own headers and the defaults that are absent then. -/
theorem sentHeaders_file (p : Plan) :
    headerRule.sentHeaders (file p) =
      (p.tests.flatMap PlannedTest.exchanges).map fun e =>
        fillAbsent p.defaultHeaders e.call.headers := by
  rw [headerRule.sentHeaders_eq (actions_file p), foldl_register]
  rfl

end RustTests

namespace JUnitTests

/-- What a line of a JUnit file does with headers. -/
def headerAction? : Line → Option HeaderAction
  | [.verbatim "DEFAULT_HEADERS.put(", .literal key, .verbatim ", ", .literal value,
      .verbatim ");"] =>
    some (.register ⟨key, value⟩)
  | .verbatim "b = HttpRequest.newBuilder(URI.create(" :: _ => some .begin
  | [.verbatim "b.header(", .literal key, .verbatim ", ", .literal value, .verbatim ");"] =>
    some (.add ⟨key, value⟩)
  | .verbatim "applyDefaultHeaders(b" :: l =>
    some (.fill (l.filterMap Fragment.text?))
  | .verbatim "resp = client.send(b.build(), " :: _ => some .send
  | _ => none

/-- Default headers stand in a map, and a request gets those whose names are not listed. -/
def headerRule : HeaderRule where
  read := headerAction?
  register := setHeader
  fill := fillOthers

theorem action?_otherHeaders (hs : List Header) :
    headerRule.action? (line (otherHeaders hs)) = some (.fill (hs.map Header.key)) := by
  rw [← texts_otherHeaders hs]
  rfl

theorem action?_check (a : Assertion) : headerRule.action? (line (check a)) = none := by
  cases a with
  | statusEquals code => by_cases h : fitsInt code = true <;> simp only [check, h] <;> rfl
  | _ => rfl

theorem actions_fixture (baseUrl : String) (ds : List Header) :
    headerRule.actions (fixture baseUrl ds) = ds.map .register := by
  have hregister : headerRule.actions (ds.map defaultHeader) = ds.map .register :=
    headerRule.actions_map (fun _ => rfl) ds
  have hsetup : headerRule.actions (setup ds) = ds.map .register := by
    rw [setup, headerRule.actions_cons_none rfl, headerRule.actions_block rfl rfl,
      headerRule.actions_append, hregister]
    rfl
  have happly : headerRule.actions applyDefaultHeaders = [] := by decide +kernel
  rw [fixture, headerRule.actions_append, headerRule.actions_append, headerRule.actions_append,
    hsetup, happly, List.append_nil]
  exact List.append_nil _

theorem actions_exchange (e : Exchange) :
    headerRule.actions (exchange e) =
      requestActions (e.call.headers.map Header.key) e.call.headers := by
  have hbegin : headerRule.action? (line (Line.ofWords ["b = HttpRequest.newBuilder(URI.create("] ++
      url e.call.url ++ Line.ofWords ["))"])) = some .begin := rfl
  have hmethod : headerRule.action? (line (method e.call.body e.call.method)) = none := by
    cases e.call.method <;> rfl
  have hown : headerRule.actions (e.call.headers.map ownHeader) = e.call.headers.map .add :=
    headerRule.actions_map (fun _ => rfl) _
  have hchecks : headerRule.actions (e.checks.map fun a => line (check a)) = [] :=
    headerRule.actions_map_none action?_check _
  rw [exchange, headerRule.actions_append, headerRule.actions_append, headerRule.actions_append,
    headerRule.actions_cons_some hbegin, headerRule.actions_nested,
    headerRule.actions_cons_none hmethod, hown, hchecks,
    headerRule.actions_cons_some (action?_otherHeaders _), List.append_nil]
  rfl

theorem actions_file (className : String) (p : Plan) :
    headerRule.actions (file className p) = p.defaultHeaders.map .register ++
      (p.tests.flatMap PlannedTest.exchanges).flatMap fun e =>
        requestActions (e.call.headers.map Header.key) e.call.headers := by
  have htest : ∀ t, headerRule.actions (blank :: testMethod t) =
      t.exchanges.flatMap fun e =>
        requestActions (e.call.headers.map Header.key) e.call.headers := by
    intro t
    rw [headerRule.actions_cons_none rfl, testMethod, headerRule.actions_cons_none rfl,
      headerRule.actions_block rfl rfl, headerRule.actions_append, headerRule.actions_flatMap]
    simp only [headerRule.actions_cons_none (x := blank) rfl, actions_exchange]
    rfl
  have hpreamble : headerRule.actions preamble = [] := by decide +kernel
  rw [file, headerRule.actions_append, hpreamble, headerRule.actions_block rfl rfl,
    headerRule.actions_append, actions_fixture, headerRule.actions_flatMap, List.flatMap_assoc,
    List.nil_append]
  simp only [htest]

/-- A JUnit file sends each request with its own headers and the entries of the map of defaults that
it does not name itself. -/
theorem sentHeaders_file (className : String) (p : Plan) :
    headerRule.sentHeaders (file className p) =
      (p.tests.flatMap PlannedTest.exchanges).map fun e =>
        fillOthers (p.defaultHeaders.foldl setHeader []) (e.call.headers.map Header.key)
          e.call.headers :=
  headerRule.sentHeaders_eq (actions_file className p)

end JUnitTests

/-! ## The targets compared -/

/-- The files of both targets send the requests of the plan in order, and both send a request with
the same headers exactly if the default headers of each name that it does not have itself repeat
alike. -/
theorem sent_headers_agree_iff (className : String) (p : Plan) {i : Nat} {e : Exchange}
    (he : (p.tests.flatMap PlannedTest.exchanges)[i]? = some e) :
    ∃ rust junit : List Header,
      (RustTests.headerRule.sentHeaders (RustTests.file p))[i]? = some rust ∧
      (JUnitTests.headerRule.sentHeaders (JUnitTests.file className p))[i]? = some junit ∧
      (SameHeaders rust junit ↔
        ∀ n, headersNamed n e.call.headers = [] →
          RepeatsAlike (headersNamed n p.defaultHeaders)) := by
  rw [RustTests.sentHeaders_file, JUnitTests.sentHeaders_file, List.getElem?_map,
    List.getElem?_map, he]
  exact ⟨_, _, rfl, rfl, sameHeaders_fill_iff _ _⟩

/-- A request that has the repeated header itself: both targets leave the default headers away. -/
theorem sent_headers_agree_iff_own_header :
    let e : Exchange := ⟨⟨.get, .relative "/", [⟨"x-id", "0"⟩], .none⟩, [.statusEquals 200]⟩
    let p : Plan := ⟨"http://x", [⟨"X-Id", "1"⟩, ⟨"X-Id", "2"⟩], [⟨"t", [e]⟩]⟩
    (p.tests.flatMap PlannedTest.exchanges)[0]? = some e ∧
      RustTests.headerRule.sentHeaders (RustTests.file p) = [[⟨"x-id", "0"⟩]] ∧
      JUnitTests.headerRule.sentHeaders (JUnitTests.file "T" p) = [[⟨"x-id", "0"⟩]] ∧
      ∀ n, headersNamed n e.call.headers = [] →
        RepeatsAlike (headersNamed n p.defaultHeaders) := by
  intro e p
  have he : (p.tests.flatMap PlannedTest.exchanges)[0]? = some e := rfl
  have hrust : RustTests.headerRule.sentHeaders (RustTests.file p) = [[⟨"x-id", "0"⟩]] := by
    rw [RustTests.sentHeaders_file]
    decide +kernel
  have hjunit : JUnitTests.headerRule.sentHeaders (JUnitTests.file "T" p) =
      [[⟨"x-id", "0"⟩]] := by
    rw [JUnitTests.sentHeaders_file]
    decide +kernel
  obtain ⟨rust, junit, hr, hj, hiff⟩ := sent_headers_agree_iff "T" p he
  rw [hrust] at hr
  rw [hjunit] at hj
  cases hr
  cases hj
  exact ⟨he, hrust, hjunit, hiff.mp (List.Perm.refl _)⟩

/-- A default header that is set twice: one target sends its first value, the other its last. -/
theorem repeated_default_sent_differently :
    ∃ (program : Program) (plan : Plan),
      Program.check ("config \x7b header \"X\" \"1\"; header \"X\" \"2\"; \x7d " ++
        "test t \x7b GET \"/\" \x7b \x7d assert_status(200); assert_status(200); \x7d") =
        .ok program ∧
      program.lower = .ok plan ∧
      RustTests.headerRule.sentHeaders (RustTests.file plan) = [[⟨"X", "1"⟩]] ∧
      JUnitTests.headerRule.sentHeaders (JUnitTests.file "T" plan) = [[⟨"X", "2"⟩]] ∧
      ¬SameHeaders [⟨"X", "1"⟩] [⟨"X", "2"⟩] := by
  refine ⟨⟨some [.header ⟨"X", "1"⟩, .header ⟨"X", "2"⟩], [], [⟨"t", [.request ⟨.get, "/", []⟩,
      .assertion (.statusEquals 200), .assertion (.statusEquals 200)], ⟨1, 44⟩⟩]⟩,
    ⟨"http://localhost:8080", [⟨"X", "1"⟩, ⟨"X", "2"⟩], [⟨"t",
      [⟨⟨.get, .relative "/", [], .none⟩, [.statusEquals 200, .statusEquals 200]⟩]⟩]⟩,
    ?_, ?_, ?_, ?_, ?_⟩
  · decide +kernel
  · decide +kernel
  · rw [RustTests.sentHeaders_file]
    decide +kernel
  · rw [JUnitTests.sentHeaders_file]
    decide +kernel
  · decide

end ApiScenario
