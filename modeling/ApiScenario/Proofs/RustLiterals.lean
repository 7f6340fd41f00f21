import ApiScenario.Target.RustTests
import ApiScenario.Proofs.SpelledCode

/-!
# Literals of Rust tests

No word of the file holds a quote, and the brackets in its words are closed (`closes_file`): fixed
lines by computation, blocks since their closing lines match their opening lines, and rows of
headers, checks, exchanges and tests since each of their members does. Emptying the texts of the
plan changes only the literals of the file (`blanked_file`), and the literals are those listed by
`quotes` (`texts_file`).
-/

namespace ApiScenario.RustTests

open Directive

/-- The literals of an address. -/
def urlQuotes : Url → List Quote
  | .absolute address => [.plan address]
  | .relative path => [.own "\x7b\x7d\x7b\x7d", .plan path]

/-- The literals of a body. -/
def bodyQuotes : Body → List Quote
  | .none => []
  | .empty => [.own ""]
  | .text content => [.plan content]

/-- The literals of a check. -/
def checkQuotes : Assertion → List Quote
  | .statusEquals _ => []
  | .statusRange start stop =>
    [.own ("Status code should be in range [" ++ Decimal.text start ++ ".." ++
      Decimal.text stop ++ "], got \x7b\x7d")]
  | .headerEquals key value => [.plan key, .plan value]
  | .headerContains key substring =>
    [.plan key, .plan substring, .own "header \x7b\x7d should contain \x7b:?\x7d", .plan key,
      .plan substring]
  | .bodyContains substring =>
    [.plan substring, .own "body should contain \x7b:?\x7d", .plan substring]

/-- The literals of an exchange. -/
def exchangeQuotes (e : Exchange) : List Quote :=
  e.call.headers.flatMap Header.quotes ++ urlQuotes e.call.url ++ bodyQuotes e.call.body ++
    [.own "request failed"] ++ e.checks.flatMap checkQuotes

/-- The literals of a file. -/
def quotes (p : Plan) : List Quote :=
  .plan p.baseUrl :: p.defaultHeaders.flatMap Header.quotes ++
    [.own "failed to build HTTP client", .own "", .own "", .own "failed to read response body",
      .own "invalid header name", .own "invalid header value", .own "invalid header name",
      .own "invalid header value"] ++
    p.tests.flatMap fun t => t.exchanges.flatMap exchangeQuotes

theorem closes_setup (hs : List Header) : Closes (setup hs) := by
  refine .cons ?_ (.block ?_ (.append (.block ?_ (.block ?_ (.map (fun _ => ?_) hs))) ?_)) <;>
    exact .spelled (by repeat constructor)

theorem closes_head (baseUrl : String) (hs : List Header) : Closes (head baseUrl hs) := by
  refine .append (.append (.append ?_ (.append ?_ (closes_setup hs))) ?_) ?_ <;>
    exact .spelled (by repeat constructor)

theorem closes_url (m : Method) (u : Url) :
    Closes [line (Line.ofWords [".", verb m, "("] ++ url u ++ Line.ofWords [")"])] := by
  cases m with
  | get | post | put | delete =>
    cases u with
    | absolute | relative => exact .spelled (by repeat constructor)

theorem closes_body (b : Body) : Closes (body b) := by
  cases b with
  | none | empty | text => exact .spelled (by repeat constructor)

theorem closes_send (c : Call) : Closes (send c) := by
  refine .cons ?_ (.nested (.append (.append (.cons (closes_url c.method c.url) ?_)
    (closes_body c.body)) ?_)) <;>
    exact .spelled (by repeat constructor)

theorem closes_check (a : Assertion) : Closes [line (check a)] := by
  cases a with
  | statusEquals | statusRange | headerEquals | headerContains | bodyContains =>
    exact .spelled (by repeat constructor)

theorem closes_exchange (e : Exchange) : Closes (exchange e) := by
  refine .append (.append (.append (.append ?_ (.map (fun _ => ?_) _)) ?_)
    (.block ?_ (closes_send e.call))) (.map closes_check _) <;>
    exact .spelled (by repeat constructor)

theorem closes_testFunction {t : PlannedTest} (ht : Identifier.isIdentifier t.name.toList = true) :
    Closes (testFunction t) := by
  have hlines : Closes [line ["fn test_", t.name, "() \x7b"], line ["\x7d"]] :=
    .spelled ⟨.line (.silent (isSilent_name ht) (.word .nil)) (.line .nil .nil), rfl, rfl⟩
  refine .cons ?_ (.block hlines (.cons ?_ (.flatMap fun e _ => .cons ?_ (closes_exchange e)))) <;>
    exact .spelled (by repeat constructor)

/-- A file of Rust tests closes all brackets that it opens. -/
theorem closes_file {p : Plan} (hp : p.HasNames) : Closes (file p) := by
  have hblank : Closes [blank] := .spelled (by repeat constructor)
  exact (closes_head _ _).append
    (.flatMap fun t ht => .cons hblank (closes_testFunction (hp t ht)))

theorem blanked_head (baseUrl : String) (hs : List Header) :
    (head "" (hs.map Header.blank)).map blanked = (head baseUrl hs).map blanked := by
  simp only [head, globals, setup, block, List.map_append, List.map_cons, List.map_map,
    List.append_assoc, List.cons_append]
  rfl

theorem blanked_url (u : Url) :
    (url u.blank).map Fragment.blank = (url u).map Fragment.blank := by
  cases u <;> rfl

theorem blanked_body (b : Body) : (body b.blank).map blanked = (body b).map blanked := by
  cases b <;> rfl

theorem blanked_check (a : Assertion) :
    (line (check a.blank)).blanked = (line (check a)).blanked := by
  cases a <;> rfl

theorem blanked_exchange (e : Exchange) :
    (exchange e.blank).map blanked = (exchange e).map blanked := by
  have hh : blanked ∘ ownHeader ∘ Header.blank = blanked ∘ ownHeader := rfl
  have hc : blanked ∘ (fun a => line (check a)) ∘ Assertion.blank
      = blanked ∘ fun a => line (check a) := funext blanked_check
  simp only [exchange, send, block, nested, Exchange.blank, Call.blank, List.map_append,
    List.map_cons, List.map_map, List.cons_append, blanked, blanked_url, blanked_body, hh, hc]

theorem blanked_testFunction (t : PlannedTest) :
    (testFunction t.blank).map blanked = (testFunction t).map blanked := by
  simp only [testFunction, block, PlannedTest.blank, List.map_append, List.map_cons,
    List.cons_append, List.map_flatMap, List.flatMap_map, blanked_exchange]

/-- Emptying the texts of a plan changes only the literals of its file. -/
theorem blanked_file (p : Plan) : (file p.blank).map blanked = (file p).map blanked := by
  simp only [file, Plan.blank, List.map_append, blanked_head p.baseUrl, List.map_flatMap,
    List.flatMap_map, List.map_cons, blanked_testFunction]

theorem texts_head (baseUrl : String) (hs : List Header) :
    (head baseUrl hs).flatMap texts = baseUrl :: (hs.flatMap Header.quotes).map Quote.text ++
      ["failed to build HTTP client", "", "", "failed to read response body",
        "invalid header name", "invalid header value", "invalid header name",
        "invalid header value"] := by
  simp only [head, globals, setup, block, List.flatMap_append, List.flatMap_cons,
    List.flatMap_map, List.map_flatMap, List.append_assoc, List.cons_append]
  rfl

theorem texts_check (a : Assertion) :
    (line (check a)).texts = (checkQuotes a).map Quote.text := by
  cases a <;> rfl

theorem texts_send (c : Call) : (send c).flatMap texts =
    (urlQuotes c.url).map Quote.text ++ (bodyQuotes c.body).map Quote.text ++
      ["request failed"] := by
  obtain ⟨method, u, hs, b⟩ := c
  cases u <;> cases b <;> rfl

theorem texts_ownHeader (h : Header) : (ownHeader h).texts = h.quotes.map Quote.text := rfl

theorem texts_exchange (e : Exchange) :
    (exchange e).flatMap texts = (exchangeQuotes e).map Quote.text := by
  simp only [exchange, exchangeQuotes, block, List.flatMap_append, List.flatMap_cons,
    List.flatMap_map, List.map_append, List.map_flatMap, texts_check, texts_ownHeader, texts_send]
  simp [texts, List.filterMap_cons, Fragment.text?, Quote.text]

/-- The literals of a file, in order. -/
theorem texts_file (p : Plan) : (file p).flatMap texts = (quotes p).map Quote.text := by
  have ht : ∀ t, (blank :: testFunction t).flatMap texts
      = (t.exchanges.flatMap exchangeQuotes).map Quote.text := by
    intro t
    simp only [testFunction, block, List.flatMap_cons, List.flatMap_append, List.flatMap_assoc,
      texts_exchange, List.map_flatMap]
    simp [texts, List.filterMap_cons, Fragment.text?]
  simp only [file, quotes, List.flatMap_append, texts_head, List.flatMap_assoc, ht,
    List.map_append, List.map_flatMap, List.map_cons]
  rfl

theorem own_exchangeQuotes (e : Exchange) :
    (exchangeQuotes e.blank).map Quote.own? = (exchangeQuotes e).map Quote.own? := by
  have hu : (urlQuotes e.call.url.blank).map Quote.own?
      = (urlQuotes e.call.url).map Quote.own? := by
    cases e.call.url <;> rfl
  have hb : (bodyQuotes e.call.body.blank).map Quote.own?
      = (bodyQuotes e.call.body).map Quote.own? := by
    cases e.call.body <;> rfl
  have hc : ∀ a : Assertion,
      (checkQuotes a.blank).map Quote.own? = (checkQuotes a).map Quote.own? := by
    intro a
    cases a <;> rfl
  simp only [exchangeQuotes, Exchange.blank, Call.blank, List.map_append, List.map_flatMap,
    List.flatMap_map, hu, hb, hc]
  rfl

/-- The literals that the target adds do not depend on the texts of the plan. -/
theorem own_quotes (p : Plan) :
    (quotes p.blank).map Quote.own? = (quotes p).map Quote.own? := by
  simp only [quotes, Plan.blank, PlannedTest.blank, List.map_append, List.map_cons,
    List.map_flatMap, List.flatMap_map, own_exchangeQuotes]
  rfl

theorem mem_texts_of_exchangeQuotes {e : Exchange} {t : String} (h : .plan t ∈ exchangeQuotes e) :
    t ∈ e.texts := by
  have hu : ∀ u, .plan t ∈ urlQuotes u → t = u.text := by
    intro u
    cases u <;> simp [urlQuotes, Url.text]
  have hb : ∀ b, .plan t ∈ bodyQuotes b → t ∈ b.texts := by
    intro b
    cases b <;> simp [bodyQuotes, Body.texts]
  have hc : ∀ a, .plan t ∈ checkQuotes a → t ∈ a.texts := by
    intro a
    cases a <;> grind [checkQuotes, Assertion.texts]
  rw [Exchange.texts, List.mem_cons, List.mem_append, List.mem_append]
  simp only [exchangeQuotes, List.mem_append] at h
  rcases h with (((h | h) | h) | h) | h
  · exact .inr (.inl (.inl (Header.mem_texts_of_quotes h)))
  · exact .inl (hu _ h)
  · exact .inr (.inl (.inr (hb _ h)))
  · cases List.mem_singleton.mp h
  · obtain ⟨a, ha, h⟩ := List.mem_flatMap.mp h
    exact .inr (.inr (List.mem_flatMap.mpr ⟨a, ha, hc a h⟩))

/-- A literal that holds a text of the plan does hold one. -/
theorem mem_texts_of_quotes {p : Plan} {t : String} (h : .plan t ∈ quotes p) : t ∈ p.texts := by
  simp only [quotes, List.cons_append, List.mem_cons, List.mem_append, Quote.plan.injEq,
    reduceCtorEq, List.not_mem_nil, or_false] at h
  rcases h with h | h | h
  · exact List.mem_cons.mpr (.inl h)
  · exact List.mem_cons_of_mem _ (List.mem_append_left _ (Header.mem_texts_of_quotes h))
  · exact Plan.mem_texts_of_quotes (fun e => mem_texts_of_exchangeQuotes) h

end ApiScenario.RustTests
