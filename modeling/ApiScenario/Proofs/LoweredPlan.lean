import ApiScenario.Proofs.Lowering
import ApiScenario.Proofs.ParserGrammar
import ApiScenario.Proofs.PlanTexts

/-!
# Plans of programs

What a plan has beyond its type because it is the plan of a program that was parsed: its tests are
named by identifiers, and a request has a body exactly if its method carries one
(`isLowered_of_parse`).

Two plans are meant to be the same if they differ at most in whether an empty body was given:
`Plan.normal` forgets that. The exchanges of a test are also looked at as a row of items, each a
request or an assertion (`PlanItem`), from which they can be told (`PlanItem.group_flatMap`).
-/

namespace ApiScenario

/-! ## Bodies that are empty -/

/-- A body, where one that is not given is one that is empty. -/
def Body.normal : Body → Body
  | none => none
  | empty => text ""
  | text content => text content

theorem Body.normal_cases (b : Body) : b.normal = none ∨ ∃ t, b.normal = text t := by
  cases b with
  | none => exact .inl rfl
  | empty => exact .inr ⟨"", rfl⟩
  | text content => exact .inr ⟨content, rfl⟩

/-- A request with its body as it is sent. -/
def Call.normal (c : Call) : Call := ⟨c.method, c.url, c.headers, c.body.normal⟩

/-- An exchange with its body as it is sent. -/
def Exchange.normal (e : Exchange) : Exchange := ⟨e.call.normal, e.checks⟩

/-- A test with its bodies as they are sent. -/
def PlannedTest.normal (t : PlannedTest) : PlannedTest := ⟨t.name, t.exchanges.map Exchange.normal⟩

/-- A plan with its bodies as they are sent. Two plans with the same normal form differ at most in
whether empty bodies were given. -/
def Plan.normal (p : Plan) : Plan := ⟨p.baseUrl, p.defaultHeaders, p.tests.map PlannedTest.normal⟩

/-! ## Items of a test -/

/-- A step of a test. -/
inductive PlanItem where
  | call (c : Call)
  | check (a : Assertion)

namespace PlanItem

/-- An item with its body as it is sent. -/
def normal : PlanItem → PlanItem
  | call c => call c.normal
  | check a => check a

/-- The items of an exchange. -/
def ofExchange (e : Exchange) : List PlanItem := call e.call :: e.checks.map check

/-- Items as the assertions before any request, and the exchanges. -/
def group : List PlanItem → List Assertion × List Exchange
  | [] => ([], [])
  | call c :: rest => ([], ⟨c, (group rest).1⟩ :: (group rest).2)
  | check a :: rest => (a :: (group rest).1, (group rest).2)

theorem group_checks (as : List Assertion) (rest : List PlanItem) :
    group (as.map check ++ rest) = (as ++ (group rest).1, (group rest).2) := by
  induction as with
  | nil => rfl
  | cons a as ih => rw [List.map_cons, List.cons_append, group, ih]; rfl

/-- Exchanges are found again in their items. -/
theorem group_flatMap (es : List Exchange) : group (es.flatMap ofExchange) = ([], es) := by
  induction es with
  | nil => rfl
  | cons e es ih =>
    rw [List.flatMap_cons, ofExchange, List.cons_append, group, group_checks, ih, List.append_nil]

theorem ofExchange_normal (e : Exchange) : ofExchange e.normal = (ofExchange e).map normal := by
  rw [ofExchange, ofExchange, List.map_cons, List.map_map]
  rfl

/-- Exchanges whose items have the same normal forms have the same normal forms. -/
theorem normal_eq_of_items {es es' : List Exchange}
    (h : (es.flatMap ofExchange).map normal = (es'.flatMap ofExchange).map normal) :
    es.map Exchange.normal = es'.map Exchange.normal := by
  have hitems : ∀ es : List Exchange,
      (es.map Exchange.normal).flatMap ofExchange = (es.flatMap ofExchange).map normal := by
    intro es
    rw [List.flatMap_map, List.map_flatMap]
    simp only [ofExchange_normal]
  have hgroup := congrArg (fun items => (group items).2) h
  simpa only [← hitems, group_flatMap] using hgroup

/-- An item that is no request, or is one with a property. -/
def Requires (P : Call → Prop) : PlanItem → Prop
  | call c => P c
  | check _ => True

theorem requires_flatMap {P : Call → Prop} {es : List Exchange} (hes : ∀ e ∈ es, P e.call) :
    ∀ i ∈ es.flatMap ofExchange, i.Requires P := by
  intro i hi
  obtain ⟨e, he, hi⟩ := List.mem_flatMap.mp hi
  rcases List.mem_cons.mp hi with rfl | hi
  · exact hes e he
  · obtain ⟨a, -, rfl⟩ := List.mem_map.mp hi
    trivial

end PlanItem

/-! ## What lowering gives -/

/-- A request has a body exactly if its method carries one. -/
def Call.CarriesBody (c : Call) : Prop := c.body = .none ↔ c.method.sendsBody = false

/-- What is true of the plan of a program that was parsed. -/
structure Plan.IsLowered (p : Plan) : Prop where
  names : p.HasNames
  bodies : ∀ t ∈ p.tests, ∀ e ∈ t.exchanges, e.call.CarriesBody

theorem Request.carriesBody_plan (vs : List Variable) (r : Request) : (r.plan vs).CarriesBody := by
  show r.planBody vs = .none ↔ r.method.sendsBody = false
  unfold Request.planBody
  cases r.method.sendsBody with
  | false => simp
  | true =>
    rw [if_pos rfl]
    split <;> simp

theorem Statement.carriesBody_group (vs : List Variable) (ss : List Statement) :
    ∀ e ∈ (Statement.group vs ss).2, e.call.CarriesBody := by
  induction ss with
  | nil => simp [Statement.group]
  | cons s ss ih =>
    cases s with
    | assertion a => exact ih
    | request r =>
      intro e he
      rcases List.mem_cons.mp he with rfl | he
      · exact r.carriesBody_plan vs
      · exact ih e he

/-- The plan of a program, if it has one, has a plan for each test. -/
theorem eq_of_lower {p : Program} {q : Plan} (h : p.lower = .ok q) :
    q = ⟨p.baseUrl, p.defaultHeaders, p.tests.map (TestBlock.planned p.declarations)⟩ := by
  rw [Program.lower_eq] at h
  split at h
  · cases h
  · cases h
    rfl

/-- The tests of a program that was parsed are named by identifiers. -/
theorem isIdentifier_of_parse {source : String} {p : Program} (h : Program.parse source = .ok p)
    {t : TestBlock} (ht : t ∈ p.tests) : Identifier.isIdentifier t.name.toList = true := by
  obtain ⟨ts, rest, hlex, hrel⟩ := programRel_of_parse h
  obtain ⟨hkinds, -⟩ := (Grammar.programRel_iff ts p).mp hrel
  -- The name is one of the tokens of the test, so it was scanned as an identifier.
  have hmem : TokenKind.ident t.name ∈ ts.map Token.kind := by
    rw [hkinds]
    refine List.mem_append_left _ (List.mem_append_right _ (List.mem_flatMap.mpr ⟨t, ht, ?_⟩))
    simp [TestBlock.kinds]
  obtain ⟨token, htoken, hkind⟩ := List.mem_map.mp hmem
  have hok : .ok token ∈ lex source := by
    rw [hlex]
    exact List.mem_append_left _ (List.mem_map_of_mem htoken)
  exact Lexer.scan_ident _ _ hok hkind

/-- **What is true of the plan of a program that was parsed.** -/
theorem isLowered_of_parse {source : String} {p : Program} {q : Plan}
    (hparse : Program.parse source = .ok p) (hlower : p.lower = .ok q) : q.IsLowered := by
  rw [eq_of_lower hlower]
  constructor
  · intro t ht
    obtain ⟨block, hblock, rfl⟩ := List.mem_map.mp ht
    exact isIdentifier_of_parse hparse hblock
  · intro t ht
    obtain ⟨block, -, rfl⟩ := List.mem_map.mp ht
    exact Statement.carriesBody_group _ _

end ApiScenario
