import ApiScenario.Target
import ApiScenario.Proofs.SpelledCode

/-!
# Literals of JUnit tests

No word of the file holds a quote, and the brackets in its words are closed (`closes_file`); the
names of the class and of its tests are the only words that are not fixed. Emptying the texts of the
plan changes only the literals of the file (`blanked_file`), and the literals are those listed by
`quotes` (`texts_file`).
-/

namespace ApiScenario

/-- Class names hold nothing but letters, digits, underscores and dollar signs. -/
theorem ClassName.notMem_choose (name : String) {c : Char}
    (hc : (ClassName.isFirst c || ClassName.isNext c) = false) :
    c ∉ (ClassName.choose name).toList := by
  have hshape : ClassName.hasShape (ClassName.choose name).toList = true := by
    unfold ClassName.choose
    split
    · next h =>
      rw [ClassName.isValid, Bool.and_eq_true] at h
      exact h.1
    · decide
  rw [Bool.or_eq_false_iff] at hc
  revert hshape
  cases (ClassName.choose name).toList with
  | nil => simp
  | cons x cs =>
    intro hshape hmem
    rw [ClassName.hasShape, Bool.and_eq_true, List.all_eq_true] at hshape
    rcases List.mem_cons.mp hmem with rfl | hmem
    · rw [hc.1] at hshape
      cases hshape.1
    · have hnext := hshape.2 c hmem
      rw [hc.2] at hnext
      cases hnext

/-- Nothing in a class name matters. -/
theorem ClassName.isSilent_choose (name : String) :
    (Fragment.verbatim (ClassName.choose name)).isSilent = true :=
  isSilent_verbatim (fun _ hc => notMem_choose name hc) (by decide)

namespace JUnitTests

open Directive

theorem isSilent_ownNames (hs : List Header) : ∀ f ∈ hs.flatMap ownName, f.isSilent = true := by
  intro f hf
  obtain ⟨h, -, hf⟩ := List.mem_flatMap.mp hf
  rw [ownName, List.mem_cons, List.mem_singleton] at hf
  rcases hf with rfl | rfl
  · decide
  · rfl

/-- The literal of an address. -/
def urlQuotes : Url → List Quote
  | .absolute address => [.plan address]
  | .relative path => [.plan path]

/-- The literal of a body. -/
def bodyQuote : Body → Quote
  | .none => .own ""
  | .empty => .own ""
  | .text content => .plan content

/-- The literals of a method with its body. -/
def methodQuotes (b : Body) : Method → List Quote
  | .get => []
  | .delete => []
  | .post => [bodyQuote b]
  | .put => [bodyQuote b]

/-- The literals of a check. -/
def checkQuotes : Assertion → List Quote
  | .statusEquals _ => []
  | .statusRange start stop =>
    [.own ("Status code should be in range [" ++ Decimal.text start ++ ".." ++
      Decimal.text stop ++ "]")]
  | .headerEquals key value => [.plan value, .plan key, .own ""]
  | .headerContains key substring => [.plan key, .own "", .plan substring]
  | .bodyContains substring => [.plan substring]

/-- The literals of an exchange. -/
def exchangeQuotes (e : Exchange) : List Quote :=
  urlQuotes e.call.url ++ methodQuotes e.call.body e.call.method ++
    e.call.headers.flatMap Header.quotes ++ (e.call.headers.map fun h => .plan h.key) ++
    e.checks.flatMap checkQuotes

/-- The literals of a file. -/
def quotes (p : Plan) : List Quote :=
  .plan p.baseUrl :: p.defaultHeaders.flatMap Header.quotes ++
    p.tests.flatMap fun t => t.exchanges.flatMap exchangeQuotes

theorem closes_setup (hs : List Header) : Closes (setup hs) := by
  refine .cons ?_ (.block ?_ (.append ?_ (.map (fun _ => ?_) hs))) <;>
    exact .spelled (by repeat constructor)

theorem closes_fixture (baseUrl : String) (hs : List Header) : Closes (fixture baseUrl hs) := by
  refine .append (.append (.append ?_ (closes_setup hs)) ?_) ?_ <;>
    exact .spelled (by repeat constructor)

theorem closes_url (u : Url) :
    Closes [line (Line.ofWords ["b = HttpRequest.newBuilder(URI.create("] ++ url u ++
      Line.ofWords ["))"])] := by
  cases u with
  | absolute | relative => exact .spelled (by repeat constructor)

theorem closes_method (b : Body) (m : Method) : Closes [line (method b m)] := by
  cases m with
  | get | delete | post | put => exact .spelled (by repeat constructor)

theorem closes_otherHeaders (hs : List Header) : Closes [line (otherHeaders hs)] :=
  .spelled ⟨.line (.silent_append (isSilent_ownNames hs) (.word .nil)) .nil, rfl, rfl⟩

theorem closes_check (a : Assertion) : Closes [line (check a)] := by
  cases a with
  | statusEquals code =>
    rw [check, integer]
    cases fitsInt code <;> exact .spelled (by repeat constructor)
  | statusRange start stop =>
    rw [check, integer, integer]
    cases fitsInt start <;> cases fitsInt stop <;> exact .spelled (by repeat constructor)
  | headerEquals | headerContains | bodyContains => exact .spelled (by repeat constructor)

theorem closes_exchange (e : Exchange) : Closes (exchange e) := by
  refine .append (.append (.append (.cons (closes_url e.call.url) (.nested (closes_method _ _)))
    (.map (fun _ => ?_) _)) (.cons (closes_otherHeaders _) ?_)) (.map closes_check _) <;>
    exact .spelled (by repeat constructor)

theorem closes_testMethod {t : PlannedTest} (ht : Identifier.isIdentifier t.name.toList = true) :
    Closes (testMethod t) := by
  have hlines : Closes [line ["void test_", t.name, "() throws Exception \x7b"], line ["\x7d"]] :=
    .spelled ⟨.line (.silent (isSilent_name ht) (.word .nil)) (.line .nil .nil), rfl, rfl⟩
  refine .cons ?_ (.block hlines (.append ?_
    (.flatMap fun e _ => .cons ?_ (closes_exchange e)))) <;>
    exact .spelled (by repeat constructor)

/-- A file of JUnit tests closes all brackets that it opens. -/
theorem closes_file {p : Plan} (hp : p.HasNames) (name : String) :
    Closes (file (ClassName.choose name) p) := by
  have hlines : Closes [line ["public class ", ClassName.choose name, " \x7b"], line ["\x7d"]] :=
    .spelled ⟨.line (.silent (ClassName.isSilent_choose name) (.word .nil)) (.line .nil .nil),
      rfl, rfl⟩
  refine .append ?_ (.block hlines ((closes_fixture _ _).append
    (.flatMap fun t ht => .cons ?_ (closes_testMethod (hp t ht))))) <;>
    exact .spelled (by repeat constructor)

theorem blanked_fixture (baseUrl : String) (hs : List Header) :
    (fixture "" (hs.map Header.blank)).map blanked = (fixture baseUrl hs).map blanked := by
  simp only [fixture, setup, block, List.map_append, List.map_cons, List.map_map,
    List.append_assoc, List.cons_append]
  rfl

theorem blanked_url (u : Url) :
    (url u.blank).map Fragment.blank = (url u).map Fragment.blank := by
  cases u <;> rfl

theorem blanked_method (b : Body) (m : Method) :
    (method b.blank m).map Fragment.blank = (method b m).map Fragment.blank := by
  cases m <;> rfl

theorem blanked_otherHeaders (hs : List Header) :
    (otherHeaders (hs.map Header.blank)).map Fragment.blank
      = (otherHeaders hs).map Fragment.blank := by
  simp only [otherHeaders, List.map_append, List.map_flatMap, List.flatMap_map]
  rfl

theorem blanked_check (a : Assertion) :
    (line (check a.blank)).blanked = (line (check a)).blanked := by
  cases a <;> rfl

theorem blanked_exchange (e : Exchange) :
    (exchange e.blank).map blanked = (exchange e).map blanked := by
  have hh : blanked ∘ ownHeader ∘ Header.blank = blanked ∘ ownHeader := rfl
  have hc : blanked ∘ (fun a => line (check a)) ∘ Assertion.blank
      = blanked ∘ fun a => line (check a) := funext blanked_check
  simp only [exchange, nested, Exchange.blank, Call.blank, List.map_append, List.map_cons,
    List.map_map, List.cons_append, blanked, blanked_url, blanked_method, blanked_otherHeaders,
    hh, hc]

theorem blanked_testMethod (t : PlannedTest) :
    (testMethod t.blank).map blanked = (testMethod t).map blanked := by
  simp only [testMethod, block, PlannedTest.blank, List.map_append, List.map_cons,
    List.map_flatMap, List.flatMap_map, blanked_exchange]

/-- Emptying the texts of a plan changes only the literals of its file. -/
theorem blanked_file (className : String) (p : Plan) :
    (file className p.blank).map blanked = (file className p).map blanked := by
  simp only [file, block, Plan.blank, List.map_append, List.map_cons, blanked_fixture p.baseUrl,
    List.map_flatMap, List.flatMap_map, blanked_testMethod]

theorem texts_fixture (baseUrl : String) (hs : List Header) :
    (fixture baseUrl hs).flatMap texts
      = baseUrl :: (hs.flatMap Header.quotes).map Quote.text := by
  have hd : ∀ h, (defaultHeader h).texts = h.quotes.map Quote.text := fun _ => rfl
  simp only [fixture, setup, block, nested, lines, applyDefaultHeaders, List.flatMap_append,
    List.flatMap_cons, List.flatMap_nil, List.flatMap_map, List.map_flatMap, List.map_cons,
    List.map_nil, hd]
  simp [texts, List.filterMap_cons, Fragment.text?]

theorem texts_url (u : Url) :
    (url u).filterMap Fragment.text? = (urlQuotes u).map Quote.text := by
  cases u <;> rfl

theorem texts_method (b : Body) (m : Method) :
    (method b m).filterMap Fragment.text? = (methodQuotes b m).map Quote.text := by
  cases m <;> cases b <;> rfl

theorem texts_otherHeaders (hs : List Header) :
    (otherHeaders hs).filterMap Fragment.text? = hs.map Header.key := by
  have hn : ∀ h, (ownName h).filterMap Fragment.text? = [h.key] := fun _ => rfl
  simp only [otherHeaders, List.filterMap_append, List.filterMap_flatMap, hn,
    ← List.map_eq_flatMap]
  simp [Line.ofWords, List.filterMap_cons, Fragment.text?]

theorem texts_check (a : Assertion) :
    (line (check a)).texts = (checkQuotes a).map Quote.text := by
  have hi : ∀ n, (integer n).filterMap Fragment.text? = [] := by
    intro n
    unfold integer
    split <;> rfl
  cases a with
  | statusEquals code =>
    rw [check]
    split <;> simp [texts, checkQuotes, hi, Line.ofWords, List.filterMap_cons, Fragment.text?]
  | statusRange start stop =>
    simp [check, texts, checkQuotes, hi, rangeMessage, Line.ofWords, List.filterMap_cons,
      Fragment.text?, Quote.text]
  | headerEquals | headerContains | bodyContains => rfl

theorem texts_exchange (e : Exchange) :
    (exchange e).flatMap texts = (exchangeQuotes e).map Quote.text := by
  have hh : ∀ h, (ownHeader h).texts = h.quotes.map Quote.text := fun _ => rfl
  simp only [exchange, exchangeQuotes, nested, List.flatMap_append, List.flatMap_cons,
    List.flatMap_map, List.map_append, List.map_flatMap, texts_check, hh]
  simp [texts, texts_url, texts_method, texts_otherHeaders, Line.ofWords, List.filterMap_cons,
    Fragment.text?, Quote.text]

/-- The literals of a file, in order. -/
theorem texts_file (className : String) (p : Plan) :
    (file className p).flatMap texts = (quotes p).map Quote.text := by
  have ht : ∀ t, (blank :: testMethod t).flatMap texts
      = (t.exchanges.flatMap exchangeQuotes).map Quote.text := by
    intro t
    simp only [testMethod, block, lines, List.flatMap_cons, List.flatMap_append,
      List.flatMap_assoc, texts_exchange, List.map_flatMap]
    simp [texts, List.filterMap_cons, Fragment.text?]
  simp only [file, quotes, block, List.flatMap_append, List.flatMap_cons, texts_fixture,
    List.flatMap_assoc, ht, List.map_append, List.map_flatMap, List.map_cons]
  simp [preamble, lines, texts, List.filterMap_cons, Fragment.text?, Quote.text]

theorem own_exchangeQuotes (e : Exchange) :
    (exchangeQuotes e.blank).map Quote.own? = (exchangeQuotes e).map Quote.own? := by
  have hu : (urlQuotes e.call.url.blank).map Quote.own?
      = (urlQuotes e.call.url).map Quote.own? := by
    cases e.call.url <;> rfl
  have hb : (methodQuotes e.call.body.blank e.call.method).map Quote.own?
      = (methodQuotes e.call.body e.call.method).map Quote.own? := by
    cases e.call.method <;> cases e.call.body <;> rfl
  have hc : ∀ a : Assertion,
      (checkQuotes a.blank).map Quote.own? = (checkQuotes a).map Quote.own? := by
    intro a
    cases a <;> rfl
  simp only [exchangeQuotes, Exchange.blank, Call.blank, List.map_append, List.map_flatMap,
    List.flatMap_map, List.map_map, hu, hb, hc]
  rfl

/-- The literals that the target adds do not depend on the texts of the plan. -/
theorem own_quotes (p : Plan) :
    (quotes p.blank).map Quote.own? = (quotes p).map Quote.own? := by
  simp only [quotes, Plan.blank, PlannedTest.blank, List.map_append, List.map_cons,
    List.map_flatMap, List.flatMap_map, own_exchangeQuotes]
  rfl

theorem mem_texts_of_exchangeQuotes {e : Exchange} {t : String} (h : .plan t ∈ exchangeQuotes e) :
    t ∈ e.texts := by
  have hu : ∀ u, .plan t ∈ urlQuotes u → t = u.text := by
    intro u
    cases u <;> simp [urlQuotes, Url.text]
  have hb : ∀ b m, .plan t ∈ methodQuotes b m → t ∈ b.texts := by
    intro b m
    cases m <;> cases b <;> simp [methodQuotes, bodyQuote, Body.texts]
  have hc : ∀ a, .plan t ∈ checkQuotes a → t ∈ a.texts := by
    intro a
    cases a <;> grind [checkQuotes, Assertion.texts]
  rw [Exchange.texts, List.mem_cons, List.mem_append, List.mem_append]
  simp only [exchangeQuotes, List.mem_append] at h
  rcases h with (((h | h) | h) | h) | h
  · exact .inl (hu _ h)
  · exact .inr (.inl (.inr (hb _ _ h)))
  · exact .inr (.inl (.inl (Header.mem_texts_of_quotes h)))
  · obtain ⟨x, hx, h⟩ := List.mem_map.mp h
    cases h
    exact .inr (.inl (.inl (List.mem_flatMap.mpr ⟨x, hx, List.mem_cons_self⟩)))
  · obtain ⟨a, ha, h⟩ := List.mem_flatMap.mp h
    exact .inr (.inr (List.mem_flatMap.mpr ⟨a, ha, hc a h⟩))

/-- A literal that holds a text of the plan does hold one. -/
theorem mem_texts_of_quotes {p : Plan} {t : String} (h : .plan t ∈ quotes p) : t ∈ p.texts := by
  simp only [quotes, List.cons_append, List.mem_cons, List.mem_append, Quote.plan.injEq] at h
  rcases h with h | h | h
  · exact List.mem_cons.mpr (.inl h)
  · exact List.mem_cons_of_mem _ (List.mem_append_left _ (Header.mem_texts_of_quotes h))
  · exact Plan.mem_texts_of_quotes (fun e => mem_texts_of_exchangeQuotes) h

end JUnitTests

end ApiScenario
