import ApiScenario.Proofs.BrokenRules

/-!
# Assertions that no request comes before

Two checks look for an assertion without a request: the rules of programs, which tell of each test
that begins with one, and the lowering, which stops at the first. Both are brought to the orphans
that tests begin with. Diagnostics tell of them in words (`findSome?_diagnostics`), and the first
is the error of the lowering (`Program.lower_eq_error_iff`). So the two agree for every program,
also for one that no text spells (`lower_fails_as_told`).
-/

namespace ApiScenario

/-! ## The words of diagnostics -/

/-- How a diagnostic says that an assertion comes before any request. -/
def Keyword.earlyMessage (k : Keyword) : String :=
  "assertion " ++ k.text ++ " appears before any request"

theorem Keyword.earlyMessage_inj {k l : Keyword} (h : k.earlyMessage = l.earlyMessage) : k = l := by
  have hword : k.word.toList = l.word.toList := by
    simpa [earlyMessage, text, String.ext_iff] using h
  have hread := congrArg Keyword.ofWord? (String.toList_inj.mp hword)
  simpa using hread

/-- A diagnostic is about another rule than the one on the first statement of a test. -/
inductive Diagnostic.TellsOther (d : Diagnostic) : Prop
  | noTests : d.message = "program must contain at least one test block" → TellsOther d
  | duplicateName (name : String) :
      d.message = "duplicate test block name '" ++ name ++ "'" → TellsOther d
  | noRequest : d.message = "must contain at least one request" → TellsOther d
  | tooFewAssertions (found : Nat) :
      d.message = "must contain at least 2 assertions (found " ++ toString found ++ ")" →
      TellsOther d

theorem Diagnostic.TellsOther.ne_earlyMessage {d : Diagnostic} (h : d.TellsOther) (k : Keyword) :
    d.message ≠ k.earlyMessage := by
  -- The words for the other rules begin with other letters.
  have hfirst : d.message.toList.head? ≠ some 'a' := by
    cases h with
    | noTests h | duplicateName name h | noRequest h | tooFewAssertions found h =>
      rw [h]
      simp
  intro he
  rw [he] at hfirst
  simp [Keyword.earlyMessage] at hfirst

/-- What a violation is told as. -/
theorem Violation.early_or_other (t : TestBlock) (v : Violation) :
    (∃ k, v = .assertionFirst k ∧ (v.diagnostic t).message = k.earlyMessage) ∨
      (v.diagnostic t).TellsOther := by
  cases v with
  | duplicateName => exact .inr (.duplicateName t.name rfl)
  | noRequest => exact .inr (.noRequest rfl)
  | tooFewAssertions found => exact .inr (.tooFewAssertions found rfl)
  | assertionFirst k => exact .inl ⟨k, rfl, rfl⟩

/-! ## Orphans in diagnostics -/

/-- The orphan that a diagnostic tells of. -/
def Diagnostic.orphan? (d : Diagnostic) : Option OrphanAssertion :=
  (Keyword.all.find? fun k => d.message == k.earlyMessage).bind fun k => d.test.map (⟨·, k⟩)

theorem Diagnostic.orphan?_eq_some_iff (d : Diagnostic) (e : OrphanAssertion) :
    d.orphan? = some e ↔ d.test = some e.test ∧ d.message = e.keyword.earlyMessage := by
  have hall : e.keyword ∈ Keyword.all := by cases e.keyword <;> decide
  unfold orphan?
  rw [Option.bind_eq_some_iff]
  constructor
  · rintro ⟨k, hk, he⟩
    obtain ⟨name, hname, rfl⟩ := Option.map_eq_some_iff.mp he
    exact ⟨hname, by simpa using List.find?_some hk⟩
  · rintro ⟨htest, hmessage⟩
    cases hfind : Keyword.all.find? fun k => d.message == k.earlyMessage with
    | none =>
      have hnot := List.find?_eq_none.mp hfind e.keyword hall
      simp [hmessage] at hnot
    | some k =>
      have hk : d.message = k.earlyMessage := by simpa using List.find?_some hfind
      obtain rfl : k = e.keyword := Keyword.earlyMessage_inj (hk.symm.trans hmessage)
      exact ⟨_, rfl, by rw [htest]; rfl⟩

theorem Diagnostic.TellsOther.orphan?_eq_none {d : Diagnostic} (h : d.TellsOther) :
    d.orphan? = none := by
  rw [Option.eq_none_iff_forall_ne_some]
  intro e he
  exact h.ne_earlyMessage _ ((d.orphan?_eq_some_iff e).mp he).2

/-- The violations of a test tell of the orphan that it begins with. -/
theorem TestBlock.findSome?_violations (earlier : List String) (t : TestBlock) :
    (t.violations earlier).findSome? (Diagnostic.orphan? ∘ Violation.diagnostic t) = t.orphan? := by
  have hfirst : ∀ k, ((Violation.assertionFirst k).diagnostic t).orphan? = some ⟨t.name, k⟩ :=
    fun k => (Diagnostic.orphan?_eq_some_iff _ _).mpr ⟨rfl, rfl⟩
  rw [violations_eq, List.findSome?_append, List.findSome?_eq_none_iff.mpr, orphan?]
  · cases t.leadingAssertion? with
    | none => rfl
    | some a => simp [hfirst]
  · intro v hv
    rcases v.early_or_other t with ⟨k, rfl, -⟩ | hother
    · simp at hv
    · exact hother.orphan?_eq_none

/-- **Diagnostics tell of the orphans that tests begin with, in the order of the tests.** -/
theorem findSome?_testDiagnostics (earlier : List String) (ts : List TestBlock) :
    (Program.testDiagnostics earlier ts).findSome? Diagnostic.orphan?
      = ts.findSome? TestBlock.orphan? := by
  induction ts generalizing earlier with
  | nil => rfl
  | cons t ts ih =>
    rw [Program.testDiagnostics, List.findSome?_append, List.findSome?_map,
      t.findSome?_violations earlier, ih, List.findSome?_cons]
    cases t.orphan? <;> rfl

theorem findSome?_diagnostics (p : Program) :
    p.diagnostics.findSome? Diagnostic.orphan? = p.tests.findSome? TestBlock.orphan? := by
  unfold Program.diagnostics
  split
  · next h =>
    rw [List.isEmpty_iff.mp h, List.findSome?_singleton]
    exact Diagnostic.TellsOther.orphan?_eq_none (.noTests rfl)
  · exact findSome?_testDiagnostics [] p.tests

/-- A diagnostic of a program is about the first statement of a test that it names, or about another
rule. -/
theorem early_or_other_of_mem {p : Program} {d : Diagnostic} (h : d ∈ p.diagnostics) :
    (∃ e, d.orphan? = some e) ∨ d.TellsOther := by
  by_cases htests : p.tests = []
  · rw [Program.diagnostics, htests] at h
    rw [List.mem_singleton.mp h]
    exact .inr (.noTests rfl)
  · rw [Program.diagnostics_eq htests] at h
    obtain ⟨⟨number, t, v⟩, -, rfl⟩ := List.mem_map.mp h
    rw [Finding.diagnostic_mk]
    rcases v.early_or_other t with ⟨k, rfl, hmessage⟩ | hother
    · exact .inl ⟨⟨t.name, k⟩, (Diagnostic.orphan?_eq_some_iff _ _).mpr ⟨rfl, hmessage⟩⟩
    · exact .inr hother

/-- A diagnostic of a program has the words for an early assertion if it tells of an orphan. -/
theorem orphan?_eq_none_iff_of_mem {p : Program} {d : Diagnostic} (h : d ∈ p.diagnostics) :
    d.orphan? = none ↔ ∀ k : Keyword, d.message ≠ k.earlyMessage := by
  rcases early_or_other_of_mem h with ⟨e, he⟩ | hother
  · refine iff_of_false (by simp [he]) fun hnot => ?_
    exact hnot _ ((d.orphan?_eq_some_iff e).mp he).2
  · exact iff_of_true hother.orphan?_eq_none hother.ne_earlyMessage

/-! ## Agreement -/

theorem TestBlock.orphan?_eq_some_iff (t : TestBlock) (e : OrphanAssertion) :
    t.orphan? = some e ↔
      ∃ a, t.statements.head? = some (.assertion a) ∧ e = ⟨t.name, a.keyword⟩ := by
  unfold orphan?
  rw [Option.map_eq_some_iff]
  simp only [leadingAssertion?_eq_some_iff, eq_comm (b := e)]

theorem TestBlock.orphan?_eq_none_iff (t : TestBlock) :
    t.orphan? = none ↔ ∀ a, t.statements.head? ≠ some (.assertion a) := by
  rw [Option.eq_none_iff_forall_ne_some]
  constructor
  · intro h a ha
    exact h _ ((t.orphan?_eq_some_iff _).mpr ⟨a, ha, rfl⟩)
  · intro h e he
    obtain ⟨a, ha, -⟩ := (t.orphan?_eq_some_iff e).mp he
    exact h a ha

theorem Program.lower_eq_error_iff (p : Program) (e : OrphanAssertion) :
    p.lower = .error e ↔ p.tests.findSome? TestBlock.orphan? = some e := by
  rw [Program.lower_eq]
  cases p.tests.findSome? TestBlock.orphan? <;> simp

/-- The first diagnostic with the words for an early assertion tells of the error of the lowering.
-/
theorem lower_error_iff_told (p : Program) (e : OrphanAssertion) :
    p.lower = .error e ↔ ∃ before d after, p.diagnostics = before ++ d :: after ∧
      (∀ x ∈ before, ∀ k : Keyword, x.message ≠ k.earlyMessage) ∧
      d.test = some e.test ∧ d.message = e.keyword.earlyMessage := by
  rw [p.lower_eq_error_iff, ← findSome?_diagnostics, List.findSome?_eq_some_iff]
  constructor
  · rintro ⟨before, d, after, hsplit, hd, hbefore⟩
    refine ⟨before, d, after, hsplit, ?_, (d.orphan?_eq_some_iff e).mp hd⟩
    intro x hx
    exact (orphan?_eq_none_iff_of_mem (hsplit ▸ List.mem_append_left _ hx)).mp (hbefore x hx)
  · rintro ⟨before, d, after, hsplit, hbefore, hd⟩
    refine ⟨before, d, after, hsplit, (d.orphan?_eq_some_iff e).mpr hd, ?_⟩
    intro x hx
    exact (orphan?_eq_none_iff_of_mem (hsplit ▸ List.mem_append_left _ hx)).mpr (hbefore x hx)

/-- The first test that begins with an assertion makes the error of the lowering. -/
theorem lower_error_iff_first (p : Program) (e : OrphanAssertion) :
    p.lower = .error e ↔ ∃ before t after a, p.tests = before ++ t :: after ∧
      (∀ u ∈ before, ∀ b, u.statements.head? ≠ some (.assertion b)) ∧
      t.statements.head? = some (.assertion a) ∧ e = ⟨t.name, a.keyword⟩ := by
  rw [p.lower_eq_error_iff, List.findSome?_eq_some_iff]
  simp only [TestBlock.orphan?_eq_some_iff, TestBlock.orphan?_eq_none_iff]
  constructor
  · rintro ⟨before, t, after, hsplit, ⟨a, ha, he⟩, hbefore⟩
    exact ⟨before, t, after, a, hsplit, hbefore, ha, he⟩
  · rintro ⟨before, t, after, a, hsplit, hbefore, ha, he⟩
    exact ⟨before, t, after, hsplit, ⟨a, ha, he⟩, hbefore⟩

/-- **The lowering fails just where diagnostics tell of an assertion before any request.** It names
the test and the assertion that the first such diagnostic names: those of the first test that
begins with an assertion. A program that breaks no rule but others has a plan. -/
theorem lower_fails_as_told (p : Program) :
    ((∃ e, p.lower = .error e) ↔ ∃ d ∈ p.diagnostics, ∃ k : Keyword, d.message = k.earlyMessage) ∧
    (∀ e, p.lower = .error e ↔ ∃ before d after, p.diagnostics = before ++ d :: after ∧
      (∀ x ∈ before, ∀ k : Keyword, x.message ≠ k.earlyMessage) ∧
      d.test = some e.test ∧ d.message = e.keyword.earlyMessage) ∧
    (∀ e, p.lower = .error e ↔ ∃ before t after a, p.tests = before ++ t :: after ∧
      (∀ u ∈ before, ∀ b, u.statements.head? ≠ some (.assertion b)) ∧
      t.statements.head? = some (.assertion a) ∧ e = ⟨t.name, a.keyword⟩) ∧
    ((∀ d ∈ p.diagnostics, d.TellsOther) → ∃ plan, p.lower = .ok plan) := by
  have hiff : (∃ e, p.lower = .error e) ↔
      ∃ d ∈ p.diagnostics, ∃ k : Keyword, d.message = k.earlyMessage := by
    constructor
    · rintro ⟨e, he⟩
      obtain ⟨before, d, after, hsplit, -, -, hmessage⟩ := (lower_error_iff_told p e).mp he
      exact ⟨d, by rw [hsplit]; simp, _, hmessage⟩
    · rintro ⟨d, hd, k, hk⟩
      have hsome : p.diagnostics.findSome? Diagnostic.orphan? ≠ none := by
        intro hnone
        have hd' := List.findSome?_eq_none_iff.mp hnone d hd
        exact (orphan?_eq_none_iff_of_mem hd).mp hd' k hk
      obtain ⟨e, he⟩ := Option.ne_none_iff_exists'.mp hsome
      exact ⟨e, (p.lower_eq_error_iff e).mpr (findSome?_diagnostics p ▸ he)⟩
  refine ⟨hiff, lower_error_iff_told p, lower_error_iff_first p, ?_⟩
  intro hother
  cases hlower : p.lower with
  | ok plan => exact ⟨plan, rfl⟩
  | error e =>
    obtain ⟨d, hd, k, hk⟩ := hiff.mp ⟨e, hlower⟩
    exact absurd hk ((hother d hd).ne_earlyMessage k)

/-- Tests of one name without statements break all other rules on tests, and still have a plan.
Behind them the first assertion is to blame. -/
example :
    let empty (name : String) : TestBlock := ⟨name, [], ⟨1, 1⟩⟩
    let early (name : String) (a : Assertion) : TestBlock := ⟨name, [.assertion a], ⟨2, 1⟩⟩
    let p : Program := ⟨none, [], [empty "a", empty "a"]⟩
    p.lower = .ok ⟨"http://localhost:8080", [], [⟨"a", []⟩, ⟨"a", []⟩]⟩ ∧
    { p with
      tests := p.tests ++ [early "b" (.bodyContains "x"), early "c" (.statusEquals 1)] }.lower
      = .error ⟨"b", .assertBodyContains⟩ :=
  ⟨rfl, rfl⟩

end ApiScenario
