import ApiScenario.Plan
import ApiScenario.Proofs.CodeLiterals

/-!
# The texts of a plan

A plan holds texts that the author of a program chose freely, and numbers, methods and names of
tests that the grammar confines. `Plan.blank` takes the texts out and leaves the rest, and `Quote`
says of a literal in a generated file whether its text is one of the plan.
-/

namespace ApiScenario

/-! ## Plans without their texts -/

/-- A header with empty texts. -/
def Header.blank (_ : Header) : Header := ⟨"", ""⟩

/-- An address of the same kind with an empty text. -/
def Url.blank : Url → Url
  | absolute _ => absolute ""
  | relative _ => relative ""

/-- A body of the same kind with an empty text. -/
def Body.blank : Body → Body
  | none => none
  | empty => empty
  | text _ => text ""

/-- An assertion of the same kind, with the same numbers and empty texts. -/
def Assertion.blank : Assertion → Assertion
  | statusEquals code => statusEquals code
  | statusRange start stop => statusRange start stop
  | headerEquals _ _ => headerEquals "" ""
  | headerContains _ _ => headerContains "" ""
  | bodyContains _ => bodyContains ""

/-- A request with the same method, as many headers and empty texts. -/
def Call.blank (c : Call) : Call :=
  ⟨c.method, c.url.blank, c.headers.map Header.blank, c.body.blank⟩

/-- An exchange with empty texts. -/
def Exchange.blank (e : Exchange) : Exchange := ⟨e.call.blank, e.checks.map Assertion.blank⟩

/-- A test with the same name and empty texts. -/
def PlannedTest.blank (t : PlannedTest) : PlannedTest := ⟨t.name, t.exchanges.map Exchange.blank⟩

/-- A plan in which all texts are empty; the names of its tests, which are no texts, are kept. Two
plans that are equal in this form differ in nothing but their texts. -/
def Plan.blank (p : Plan) : Plan :=
  ⟨"", p.defaultHeaders.map Header.blank, p.tests.map PlannedTest.blank⟩

/-! ## The texts themselves -/

/-- The texts of a header. -/
def Header.texts (h : Header) : List String := [h.key, h.value]

/-- The text of an address. -/
def Url.text : Url → String
  | absolute address => address
  | relative path => path

/-- The text of a body. -/
def Body.texts : Body → List String
  | none => []
  | empty => []
  | text content => [content]

/-- The texts of an assertion. -/
def Assertion.texts : Assertion → List String
  | statusEquals _ => []
  | statusRange _ _ => []
  | headerEquals key value => [key, value]
  | headerContains key substring => [key, substring]
  | bodyContains substring => [substring]

/-- The texts of an exchange. -/
def Exchange.texts (e : Exchange) : List String :=
  e.call.url.text :: (e.call.headers.flatMap Header.texts ++ e.call.body.texts ++
    e.checks.flatMap Assertion.texts)

/-- All texts of a plan. -/
def Plan.texts (p : Plan) : List String :=
  p.baseUrl :: (p.defaultHeaders.flatMap Header.texts ++
    p.tests.flatMap fun t => t.exchanges.flatMap Exchange.texts)

/-! ## Names of tests -/

/-- The names of the tests of a plan are identifiers. -/
def Plan.HasNames (p : Plan) : Prop :=
  ∀ t ∈ p.tests, Identifier.isIdentifier t.name.toList = true

/-- Plans that differ only in their texts have the same names. -/
theorem Plan.HasNames.of_blank_eq {p q : Plan} (hp : p.HasNames) (h : p.blank = q.blank) :
    q.HasNames := by
  have htests : p.tests.map PlannedTest.blank = q.tests.map PlannedTest.blank :=
    congrArg Plan.tests h
  intro t ht
  have hmem : t.blank ∈ p.tests.map PlannedTest.blank := by
    rw [htests]
    exact List.mem_map_of_mem ht
  obtain ⟨u, hu, hut⟩ := List.mem_map.mp hmem
  have hname : u.blank.name = t.blank.name := congrArg PlannedTest.name hut
  rw [show t.name = u.name from hname.symm]
  exact hp u hu

/-- Identifiers hold nothing but letters, digits and underscores. -/
theorem notMem_identifier {cs : List Char} (h : Identifier.isIdentifier cs = true) {c : Char}
    (hc : (Identifier.isFirst c || Identifier.isNext c) = false) : c ∉ cs := by
  rw [Bool.or_eq_false_iff] at hc
  cases cs with
  | nil => simp
  | cons x cs =>
    rw [Identifier.isIdentifier, Bool.and_eq_true, List.all_eq_true] at h
    intro hmem
    rcases List.mem_cons.mp hmem with rfl | hmem
    · exact absurd h.1 (by simp [hc.1])
    · exact absurd (h.2 _ hmem) (by simp [hc.2])

/-! ## Literals of a file -/

/-- What a literal in a generated file holds. -/
inductive Quote where
  /-- A text of the plan. -/
  | plan (text : String)
  /-- A text that the target adds. -/
  | own (text : String)
deriving DecidableEq, Repr

/-- The text of a quote. -/
def Quote.text : Quote → String
  | plan text => text
  | own text => text

/-- The text of a quote that the target adds. -/
def Quote.own? : Quote → Option String
  | plan _ => none
  | own text => some text

/-- The literals of a header. -/
def Header.quotes (h : Header) : List Quote := [.plan h.key, .plan h.value]

theorem Header.mem_texts_of_quotes {hs : List Header} {t : String}
    (h : .plan t ∈ hs.flatMap Header.quotes) : t ∈ hs.flatMap Header.texts := by
  simpa [Header.quotes, Header.texts] using h

/-- If the literals of exchanges hold their texts, then the literals of a plan hold its texts. -/
theorem Plan.mem_texts_of_quotes {p : Plan} {quotes : Exchange → List Quote} {t : String}
    (hquotes : ∀ e, .plan t ∈ quotes e → t ∈ e.texts)
    (h : .plan t ∈ p.tests.flatMap fun test => test.exchanges.flatMap quotes) : t ∈ p.texts := by
  obtain ⟨test, htest, h⟩ := List.mem_flatMap.mp h
  obtain ⟨e, he, h⟩ := List.mem_flatMap.mp h
  have hexchange : t ∈ test.exchanges.flatMap Exchange.texts :=
    List.mem_flatMap.mpr ⟨e, he, hquotes e h⟩
  exact List.mem_cons_of_mem _ (List.mem_append_right _
    (List.mem_flatMap.mpr ⟨test, htest, hexchange⟩))

end ApiScenario
