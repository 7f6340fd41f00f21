import Mathlib.Data.List.Forall2
import ApiScenario.Proofs.LoweredPlan

/-!
# What becomes of statements

Lowering groups the statements of a test: a request and the assertions behind it make up an exchange.
Read one after the other, the exchanges are the statements again, each once and in its place
(`forall₂_group`), and an assertion is found in the exchange of the last request before it
(`exists_exchange_of_assertion`).

What a request is sent as is told from its items alone (`Request.SentAs`).
-/

namespace ApiScenario

/-! ## Requests -/

/-- Whether an item of a request is a header. -/
def RequestItem.isHeader : RequestItem → Bool
  | header _ => true
  | body _ => false

/-- A call is what a request is sent as: variables are put into the path and the first body, the
headers stay as they are, and a body is sent if the method carries one. -/
structure Request.SentAs (vs : List Variable) (r : Request) (c : Call) : Prop where
  method : c.method = r.method
  url : c.url = Url.ofPath (Variables.substitute vs r.path)
  headers : c.headers.map RequestItem.header = r.items.filter RequestItem.isHeader
  bodyless : r.method = .get ∨ r.method = .delete → c.body = .none
  firstBody : r.method = .post ∨ r.method = .put →
    ∀ (before : List RequestItem) (text : String) (after : List RequestItem),
      r.items = before ++ .body text :: after → (∀ i ∈ before, i.isHeader = true) →
      c.body = .text (Variables.substitute vs text)
  noBody : r.method = .post ∨ r.method = .put → (∀ i ∈ r.items, i.isHeader = true) →
    c.body = .empty

namespace Request

theorem map_header_headers (r : Request) :
    r.headers.map RequestItem.header = r.items.filter RequestItem.isHeader := by
  unfold headers
  induction r.items with
  | nil => rfl
  | cons i is ih =>
    cases i with
    | header h => exact congrArg (RequestItem.header h :: ·) ih
    | body text => exact ih

/-- The body that counts is the first, behind nothing but headers. -/
theorem body?_eq_some (m : Method) (path text : String) (after : List RequestItem) :
    ∀ before : List RequestItem, (∀ i ∈ before, i.isHeader = true) →
      body? ⟨m, path, before ++ .body text :: after⟩ = some text
  | [], _ => rfl
  | .header _ :: is, h =>
    body?_eq_some m path text after is fun i hi => h i (List.mem_cons_of_mem _ hi)
  | .body _ :: _, h => by cases h _ List.mem_cons_self

theorem exists_of_body? (m : Method) (path : String) {text : String} :
    ∀ {items : List RequestItem}, body? ⟨m, path, items⟩ = some text →
    ∃ before after, items = before ++ .body text :: after ∧ ∀ i ∈ before, i.isHeader = true
  | .body _ :: after, h => ⟨[], after, by rw [Option.some.inj h]; rfl, by simp⟩
  | .header hd :: items, h => by
    obtain ⟨before, after, hitems, hbefore⟩ :=
      exists_of_body? m path (show body? ⟨m, path, items⟩ = some text from h)
    refine ⟨.header hd :: before, after, congrArg (_ :: ·) hitems, ?_⟩
    rintro i (_ | ⟨_, hi⟩)
    · rfl
    · exact hbefore i hi

theorem body?_eq_none (m : Method) (path : String) :
    ∀ is : List RequestItem, (∀ i ∈ is, i.isHeader = true) → body? ⟨m, path, is⟩ = none
  | [], _ => rfl
  | .header _ :: is, h => body?_eq_none m path is fun i hi => h i (List.mem_cons_of_mem _ hi)
  | .body _ :: _, h => by cases h _ List.mem_cons_self

theorem sentAs_plan (vs : List Variable) (r : Request) : r.SentAs vs (r.plan vs) where
  method := rfl
  url := rfl
  headers := r.map_header_headers
  bodyless hm := by
    show r.planBody vs = .none
    unfold planBody
    rcases hm with hm | hm <;> rw [hm] <;> rfl
  firstBody hm before text after hitems hbefore := by
    have hbody : r.body? = some text := by
      obtain ⟨m, path, items⟩ := r
      obtain rfl : items = _ := hitems
      exact body?_eq_some m path text after before hbefore
    show r.planBody vs = _
    unfold planBody
    rw [hbody]
    rcases hm with hm | hm <;> rw [hm] <;> rfl
  noBody hm hitems := by
    have hbody : r.body? = none := body?_eq_none r.method r.path r.items hitems
    show r.planBody vs = _
    unfold planBody
    rw [hbody]
    rcases hm with hm | hm <;> rw [hm] <;> rfl

end Request

/-! ## Statements in their order -/

/-- What a statement becomes: a request is sent, an assertion stays as it is. -/
inductive Statement.PlannedAs (vs : List Variable) : Statement → PlanItem → Prop
  | request {r : Request} {c : Call} : r.SentAs vs c → PlannedAs vs (.request r) (.call c)
  | assertion (a : Assertion) : PlannedAs vs (.assertion a) (.check a)

namespace Statement

/-- **Grouped statements are the statements, each once and in order.** -/
theorem forall₂_group (vs : List Variable) (ss : List Statement) :
    List.Forall₂ (PlannedAs vs) ss
      ((group vs ss).1.map .check ++ (group vs ss).2.flatMap PlanItem.ofExchange) := by
  induction ss with
  | nil => exact .nil
  | cons s ss ih =>
    cases s with
    | assertion a => exact .cons (.assertion a) ih
    | request r => exact .cons (.request (r.sentAs_plan vs)) ih

/-! ## Requests and the assertions behind them -/

/-- Whether a statement is a request. -/
def isRequest : Statement → Bool
  | request _ => true
  | assertion _ => false

theorem length_group (vs : List Variable) (ss : List Statement) :
    (group vs ss).2.length = ss.countP isRequest := by
  induction ss with
  | nil => rfl
  | cons s ss ih =>
    cases s with
    | assertion a => exact ih
    | request r => rw [group, List.length_cons, ih, List.countP_cons]; rfl

theorem group_assertions (vs : List Variable) (as : List Assertion) (rest : List Statement) :
    group vs (as.map .assertion ++ rest) = (as ++ (group vs rest).1, (group vs rest).2) := by
  induction as with
  | nil => rfl
  | cons a as ih => rw [List.map_cons, List.cons_append, group, ih]; rfl

/-- A request begins an exchange, whatever stands before it. -/
theorem group_request (vs : List Variable) (before : List Statement) (r : Request)
    (rest : List Statement) :
    group vs (before ++ .request r :: rest)
      = ((group vs before).1,
        (group vs before).2 ++ ⟨r.plan vs, (group vs rest).1⟩ :: (group vs rest).2) := by
  induction before with
  | nil => rfl
  | cons s before ih =>
    cases s with
    | assertion a => rw [List.cons_append, group, ih]; rfl
    | request r' => rw [List.cons_append, group, ih]; rfl

/-- Statements are assertions only, or have a last request. -/
theorem exists_last_request : ∀ ss : List Statement,
    (∃ as : List Assertion, ss = as.map .assertion) ∨
      ∃ (front : List Statement) (r : Request) (as : List Assertion),
        ss = front ++ .request r :: as.map .assertion
  | [] => .inl ⟨[], rfl⟩
  | s :: ss => by
    rcases exists_last_request ss with ⟨as, rfl⟩ | ⟨front, r, as, rfl⟩
    · cases s with
      | assertion a => exact .inl ⟨a :: as, rfl⟩
      | request r => exact .inr ⟨[], r, as, rfl⟩
    · exact .inr ⟨s :: front, r, as, rfl⟩

/-- **An assertion is in the exchange of the last request before it**, behind the assertions between
the two. -/
theorem exists_exchange_of_assertion {vs : List Variable} {ss : List Statement}
    (hfirst : (group vs ss).1 = []) {before : List Statement} {a : Assertion}
    {after : List Statement} (hss : ss = before ++ .assertion a :: after) :
    ∃ (front : List Statement) (r : Request) (as : List Assertion) (e : Exchange),
      before = front ++ .request r :: as.map .assertion ∧
      (group vs ss).2[front.countP isRequest]? = some e ∧ r.SentAs vs e.call ∧
      e.checks[as.length]? = some a := by
  subst hss
  rcases exists_last_request before with ⟨as, rfl⟩ | ⟨front, r, as, rfl⟩
  · -- With no request before it the assertion would be an orphan.
    rw [group_assertions] at hfirst
    simp [group] at hfirst
  · refine ⟨front, r, as, ⟨r.plan vs, as ++ a :: (group vs after).1⟩, rfl, ?_, r.sentAs_plan vs, ?_⟩
    · rw [List.append_assoc, List.cons_append, group_request, group_assertions, ← length_group vs,
        List.getElem?_append_right (Nat.le_refl _), Nat.sub_self]
      rfl
    · show (as ++ a :: (group vs after).1)[as.length]? = some a
      rw [List.getElem?_append_right (Nat.le_refl _), Nat.sub_self]
      rfl

end Statement

/-! ## Tests and programs -/

theorem TestBlock.mem_requests_iff {t : TestBlock} {r : Request} :
    r ∈ t.requests ↔ .request r ∈ t.statements := by
  unfold requests
  rw [List.mem_filterMap]
  constructor
  · rintro ⟨s, hs, hr⟩
    cases s with
    | assertion a => cases hr
    | request r' => exact Option.some.inj hr ▸ hs
  · intro hr
    exact ⟨_, hr, rfl⟩

/-- A planned test does what a test says: it has its name, its statements in order, and every
assertion is about the answer to the last request before it. -/
structure TestBlock.KeptBy (vs : List Variable) (t : TestBlock) (q : PlannedTest) : Prop where
  name : q.name = t.name
  statements :
    List.Forall₂ (Statement.PlannedAs vs) t.statements (q.exchanges.flatMap PlanItem.ofExchange)
  checks : ∀ (before : List Statement) (a : Assertion) (after : List Statement),
    t.statements = before ++ .assertion a :: after →
    ∃ (front : List Statement) (r : Request) (as : List Assertion) (e : Exchange),
      before = front ++ .request r :: as.map .assertion ∧
      q.exchanges[front.countP Statement.isRequest]? = some e ∧ r.SentAs vs e.call ∧
      e.checks[as.length]? = some a

theorem TestBlock.keptBy_planned {vs : List Variable} {t : TestBlock}
    (hfirst : (Statement.group vs t.statements).1 = []) : t.KeptBy vs (t.planned vs) where
  name := rfl
  statements := by
    have hitems := Statement.forall₂_group vs t.statements
    rwa [hfirst] at hitems
  checks _ _ _ hss := Statement.exists_exchange_of_assertion hfirst hss

/-- Tests that have a plan do not begin with an assertion. -/
theorem group_fst_of_lower {p : Program} {q : Plan} (h : p.lower = .ok q) :
    ∀ t ∈ p.tests, (Statement.group p.declarations t.statements).1 = [] := by
  intro t ht
  rw [Program.lower_eq] at h
  cases horphan : p.tests.findSome? TestBlock.orphan? with
  | some e =>
    rw [horphan] at h
    cases h
  | none =>
    have hleading := Option.map_eq_none_iff.mp (List.findSome?_eq_none_iff.mp horphan t ht)
    rw [← head?_group_fst p.declarations] at hleading
    exact List.head?_eq_none_iff.mp hleading

/-- **Lowering keeps every statement, once and in order.** The plan has the tests of the program, each
with its name and its statements, an assertion in the exchange of the last request before it; and it
sends as many requests as the program has. -/
theorem lower_keeps_statements (p : Program) (q : Plan) (h : p.lower = .ok q) :
    List.Forall₂ (TestBlock.KeptBy p.declarations) p.tests q.tests ∧
      q.requestCount = (p.tests.flatMap TestBlock.statements).countP Statement.isRequest := by
  have hq := eq_of_lower h
  constructor
  · rw [hq, List.forall₂_map_right_iff, List.forall₂_same]
    exact fun t ht => TestBlock.keptBy_planned (group_fst_of_lower h t ht)
  · rw [hq, Plan.requestCount, List.flatMap_map, List.length_flatMap, List.countP_flatMap]
    simp only [TestBlock.planned, Statement.length_group, Function.comp_def]

/-- Two requests with assertions behind both, a variable, a second body and a body that is not sent. -/
theorem lower_keeps_statements_interleaved :
    let p : Program := ⟨none, [⟨"id", .int 42⟩], [⟨"t", [
      .request ⟨.put, "/u/$id", [.header ⟨"X", "$id"⟩, .body "a$id", .body "b"]⟩,
      .assertion (.statusEquals 200), .assertion (.bodyContains "$id"),
      .request ⟨.get, "http://x/$no", [.body "c"]⟩, .assertion (.statusEquals 404)], ⟨1, 1⟩⟩]⟩
    p.lower = .ok ⟨"http://localhost:8080", [], [⟨"t", [
      ⟨⟨.put, .relative "/u/42", [⟨"X", "$id"⟩], .text "a42"⟩,
        [.statusEquals 200, .bodyContains "$id"]⟩,
      ⟨⟨.get, .absolute "http://x/$no", [], .none⟩, [.statusEquals 404]⟩]⟩]⟩ ∧
    ∃ q, p.lower = .ok q ∧ List.Forall₂ (TestBlock.KeptBy p.declarations) p.tests q.tests ∧
      q.requestCount = 2 := by
  intro p
  have hlower : p.lower = .ok ⟨"http://localhost:8080", [], [⟨"t", [
      ⟨⟨.put, .relative "/u/42", [⟨"X", "$id"⟩], .text "a42"⟩,
        [.statusEquals 200, .bodyContains "$id"]⟩,
      ⟨⟨.get, .absolute "http://x/$no", [], .none⟩, [.statusEquals 404]⟩]⟩]⟩ := by
    decide +kernel
  obtain ⟨hkept, hcount⟩ := lower_keeps_statements p _ hlower
  exact ⟨hlower, _, hlower, hkept, hcount.trans rfl⟩

end ApiScenario
