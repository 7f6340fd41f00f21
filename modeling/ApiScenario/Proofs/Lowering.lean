import ApiScenario.Plan
import ApiScenario.Program.Validation

/-!
# When a program can be lowered

The rules of programs and the lowering look for assertions without a request independently of each
other: the rules look at the assertions before any request, the lowering takes statements one by one
and looks for the last exchange. Here both are brought to the same question, whether a test begins
with an assertion.

* `plan_eq_group` says what planning statement by statement comes to: each request with the
  assertions behind it.
* `planAll_eq` says what the lowering of tests is: the first test that begins with an assertion
  makes it fail, and if there is none every test has its plan.
* `leadingAssertion?_of_diagnostics` says that a program without diagnostics has no such test.
-/

namespace ApiScenario

/-! ## One test -/

/-- Statements as the assertions before any request, and the requests with those after each. -/
def Statement.group (vs : List Variable) : List Statement → List Assertion × List Exchange
  | [] => ([], [])
  | .assertion a :: rest =>
    let later := group vs rest
    (a :: later.1, later.2)
  | .request r :: rest =>
    let later := group vs rest
    ([], ⟨r.plan vs, later.1⟩ :: later.2)

/-- Statements behind an exchange add their first assertions to it, and their requests behind it. -/
theorem foldlM_extend_concat (vs : List Variable) (name : String) (ss : List Statement) :
    ∀ (es : List Exchange) (call : Call) (checks : List Assertion),
      ss.foldlM (PlannedTest.extend vs) ⟨name, es ++ [⟨call, checks⟩]⟩
        = .ok ⟨name, es ++ ⟨call, checks ++ (Statement.group vs ss).1⟩ ::
            (Statement.group vs ss).2⟩ := by
  induction ss with
  | nil =>
    intro es call checks
    rw [List.foldlM_nil, Statement.group, List.append_nil]
    rfl
  | cons s ss ih =>
    intro es call checks
    rw [List.foldlM_cons]
    cases s with
    | request r =>
      refine (ih (es ++ [⟨call, checks⟩]) (r.plan vs) []).trans ?_
      rw [Statement.group, List.append_assoc, List.append_nil]
      rfl
    | assertion a =>
      have hlast : PlannedTest.extend vs ⟨name, es ++ [⟨call, checks⟩]⟩ (.assertion a)
          = .ok ⟨name, es ++ [⟨call, checks ++ [a]⟩]⟩ := by
        simp [PlannedTest.extend]
      rw [hlast]
      refine (ih es call (checks ++ [a])).trans ?_
      rw [Statement.group, List.append_assoc]
      rfl

/-- **Planning a test statement by statement groups its statements**, unless an assertion comes
first. -/
theorem TestBlock.plan_eq_group (vs : List Variable) (t : TestBlock) :
    t.plan vs = match Statement.group vs t.statements with
      | ([], exchanges) => .ok ⟨t.name, exchanges⟩
      | (a :: _, _) => .error ⟨t.name, a.keyword⟩ := by
  unfold TestBlock.plan
  cases t.statements with
  | nil => rfl
  | cons s ss =>
    cases s with
    | assertion a => rfl
    | request r => exact foldlM_extend_concat vs t.name ss [] (r.plan vs) []

/-- The first assertion that no request comes before is the first statement. -/
theorem head?_group_fst (vs : List Variable) (t : TestBlock) :
    (Statement.group vs t.statements).1.head? = t.leadingAssertion? := by
  rw [t.leadingAssertion?_eq]
  cases t.statements with
  | nil => rfl
  | cons s rest => cases s <;> rfl

/-- The orphan with which a test begins. -/
def TestBlock.orphan? (t : TestBlock) : Option OrphanAssertion :=
  t.leadingAssertion?.map fun a => ⟨t.name, a.keyword⟩

/-- The plan of a test that does not begin with an assertion. -/
def TestBlock.planned (vs : List Variable) (t : TestBlock) : PlannedTest :=
  ⟨t.name, (Statement.group vs t.statements).2⟩

theorem TestBlock.plan_eq (vs : List Variable) (t : TestBlock) :
    t.plan vs = match t.orphan? with
      | some e => .error e
      | none => .ok (t.planned vs) := by
  have h := head?_group_fst vs t
  rw [TestBlock.plan_eq_group]
  unfold TestBlock.orphan? TestBlock.planned
  rw [← h]
  cases hg : Statement.group vs t.statements with
  | mk orphans exchanges => cases orphans <;> rfl

/-! ## All tests -/

/-- **The first test that begins with an assertion makes the lowering fail, and nothing else
does.** -/
theorem planAll_eq (vs : List Variable) (ts : List TestBlock) :
    TestBlock.planAll vs ts = match ts.findSome? TestBlock.orphan? with
      | some e => .error e
      | none => .ok (ts.map (TestBlock.planned vs)) := by
  induction ts with
  | nil => rfl
  | cons t rest ih =>
    rw [TestBlock.planAll, TestBlock.plan_eq, List.findSome?_cons]
    cases t.orphan? with
    | some e => rfl
    | none =>
      simp only [ih]
      cases rest.findSome? TestBlock.orphan? <;> rfl

theorem Program.lower_eq (p : Program) :
    p.lower = match p.tests.findSome? TestBlock.orphan? with
      | some e => .error e
      | none =>
        .ok ⟨p.baseUrl, p.defaultHeaders, p.tests.map (TestBlock.planned p.declarations)⟩ := by
  rw [Program.lower, planAll_eq]
  cases p.tests.findSome? TestBlock.orphan? <;> rfl

/-! ## What the rules say about it -/

/-- A test that breaks no rule does not begin with an assertion. -/
theorem leadingAssertion?_of_violations {earlier : List String} {t : TestBlock}
    (h : t.violations earlier = []) : t.leadingAssertion? = none := by
  unfold TestBlock.violations at h
  have hlast := (List.append_eq_nil_iff.mp h).2
  cases ha : t.leadingAssertion? with
  | none => rfl
  | some a => simp [ha] at hlast

/-- If tests have no diagnostics, then none of them breaks a rule. -/
theorem violations_of_testDiagnostics : ∀ {ts : List TestBlock} {earlier : List String},
    Program.testDiagnostics earlier ts = [] →
    ∀ t ∈ ts, ∃ before : List String, t.violations before = []
  | [], _, _, t, ht => by simp at ht
  | t :: rest, earlier, h, u, hu => by
    obtain ⟨hfirst, hrest⟩ := List.append_eq_nil_iff.mp h
    rcases List.mem_cons.mp hu with rfl | hu
    · exact ⟨earlier, List.map_eq_nil_iff.mp hfirst⟩
    · exact violations_of_testDiagnostics hrest u hu

theorem leadingAssertion?_of_diagnostics {p : Program} (h : p.diagnostics = []) :
    ∀ t ∈ p.tests, t.leadingAssertion? = none := by
  intro t ht
  unfold Program.diagnostics at h
  split at h
  · cases h
  · obtain ⟨before, hv⟩ := violations_of_testDiagnostics h t ht
    exact leadingAssertion?_of_violations hv

theorem diagnostics_of_validate {p : Program} (h : p.validate = .ok ()) : p.diagnostics = [] := by
  unfold Program.validate at h
  split at h
  · assumption
  · cases h

/-- **A valid program can be lowered.** -/
theorem lower_of_validate {p : Program} (h : p.validate = .ok ()) : ∃ plan, p.lower = .ok plan := by
  have hnone : p.tests.findSome? TestBlock.orphan? = none := by
    rw [List.findSome?_eq_none_iff]
    intro t ht
    rw [TestBlock.orphan?, leadingAssertion?_of_diagnostics (diagnostics_of_validate h) t ht]
    rfl
  rw [Program.lower_eq, hnone]
  exact ⟨_, rfl⟩

end ApiScenario
