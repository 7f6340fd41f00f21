import ApiScenario.Proofs.Lowering

/-!
# What diagnostics tell

The rules of programs without the checks that look for their violations. `Breaks` says of each rule when
a test breaks it; of the tests before it only the names matter.

Diagnostics tell each broken rule once, tests in the order of the source and the rules of a test in
theirs (`diagnostics_exact`). A finding has the number of its test, since two tests can be the same in
all that a diagnostic shows.
-/

namespace ApiScenario

/-! ## Rules -/

/-- Whether a statement is an assertion. -/
def Statement.isAssertion : Statement → Bool
  | .request _ => false
  | .assertion _ => true

/-- How many assertions a test makes. -/
def TestBlock.assertionCount (t : TestBlock) : Nat := t.statements.countP Statement.isAssertion

/-- A test breaks a rule, when the tests `before` come before it. -/
inductive Breaks (before : List TestBlock) (t : TestBlock) : Violation → Prop
  | duplicateName {u : TestBlock} : u ∈ before → u.name = t.name → Breaks before t .duplicateName
  | noRequest : (∀ r, .request r ∉ t.statements) → Breaks before t .noRequest
  | tooFewAssertions :
      t.assertionCount < 2 → Breaks before t (.tooFewAssertions t.assertionCount)
  | assertionFirst {a : Assertion} :
      t.statements.head? = some (.assertion a) → Breaks before t (.assertionFirst a.keyword)

namespace TestBlock

theorem isEmpty_requests_iff (t : TestBlock) :
    t.requests.isEmpty = true ↔ ∀ r, .request r ∉ t.statements := by
  rw [List.isEmpty_iff, requests, List.filterMap_eq_nil_iff]
  constructor
  · intro h r hr
    cases h _ hr
  · intro h s hs
    cases s with
    | request r => exact absurd hs (h r)
    | assertion a => rfl

theorem length_assertions (t : TestBlock) : t.assertions.length = t.assertionCount := by
  unfold assertions assertionCount
  rw [List.length_filterMap_eq_countP]
  congr 1
  funext s
  cases s <;> rfl

theorem leadingAssertion?_eq_some_iff (t : TestBlock) (a : Assertion) :
    t.leadingAssertion? = some a ↔ t.statements.head? = some (.assertion a) := by
  rw [leadingAssertion?_eq]
  cases t.statements with
  | nil => simp
  | cons s rest => cases s <;> simp [Statement.assertion?]

/-- The rules of a test one after the other, each broken or not. -/
theorem violations_eq (earlier : List String) (t : TestBlock) :
    t.violations earlier =
      (if t.name ∈ earlier then [.duplicateName] else []) ++
      (if t.requests.isEmpty then [.noRequest] else []) ++
      (if t.assertionCount < 2 then [.tooFewAssertions t.assertionCount] else []) ++
      t.leadingAssertion?.toList.map fun a => .assertionFirst a.keyword := by
  rw [violations, length_assertions]
  cases t.leadingAssertion? <;> rfl

/-- **The violations of a test are the rules that it breaks.** -/
theorem mem_violations_iff (before : List TestBlock) (t : TestBlock) (v : Violation) :
    v ∈ t.violations (before.map TestBlock.name) ↔ Breaks before t v := by
  simp only [violations_eq, List.mem_append, List.mem_ite_nil_right, List.mem_singleton,
    isEmpty_requests_iff, List.mem_map, Option.mem_toList, leadingAssertion?_eq_some_iff]
  constructor
  · rintro (((⟨⟨u, hu, hname⟩, rfl⟩ | ⟨hnone, rfl⟩) | ⟨hfew, rfl⟩) | ⟨a, hfirst, rfl⟩)
    · exact .duplicateName hu hname
    · exact .noRequest hnone
    · exact .tooFewAssertions hfew
    · exact .assertionFirst hfirst
  · intro h
    cases h with
    | duplicateName hu hname => exact .inl (.inl (.inl ⟨⟨_, hu, hname⟩, rfl⟩))
    | noRequest hnone => exact .inl (.inl (.inr ⟨hnone, rfl⟩))
    | tooFewAssertions hfew => exact .inl (.inr ⟨hfew, rfl⟩)
    | assertionFirst hfirst => exact .inr ⟨_, hfirst, rfl⟩

end TestBlock

/-- The place of a rule among the rules. -/
def Violation.rank : Violation → Nat
  | duplicateName => 0
  | noRequest => 1
  | tooFewAssertions _ => 2
  | assertionFirst _ => 3

/-- What is told of a rule that a test with a given name breaks. -/
def Violation.words (test : String) : Violation → String
  | duplicateName => "duplicate test block name '" ++ test ++ "'"
  | noRequest => "must contain at least one request"
  | tooFewAssertions found => "must contain at least 2 assertions (found " ++ toString found ++ ")"
  | assertionFirst keyword => "assertion '" ++ keyword.word ++ "' appears before any request"

theorem Violation.message_eq (test : String) (v : Violation) : v.message test = v.words test := by
  cases v with
  | duplicateName | noRequest | tooFewAssertions => rfl
  | assertionFirst keyword =>
    -- The quotes around a keyword are part of its own text.
    have hopening : "assertion '" = "assertion " ++ "'" := by decide +kernel
    have hclosing : "' appears before any request" = "'" ++ " appears before any request" := by
      decide +kernel
    show "assertion " ++ ("'" ++ keyword.word ++ "'") ++ " appears before any request"
      = "assertion '" ++ keyword.word ++ "' appears before any request"
    simp only [hopening, hclosing, String.append_assoc]

/-- The rules that a test breaks are told in the order of the rules. -/
theorem TestBlock.pairwise_violations (earlier : List String) (t : TestBlock) :
    (t.violations earlier).Pairwise fun v w => v.rank < w.rank := by
  unfold violations
  split <;> split <;> split <;> split <;> simp [Violation.rank]

/-! ## Findings -/

/-- A rule that the test with a number breaks. -/
structure Finding where
  number : Nat
  test : TestBlock
  violation : Violation

namespace Finding

/-- What is told of a finding: what is wrong, the name of the test and its place. -/
def diagnostic (f : Finding) : Diagnostic where
  message := f.violation.words f.test.name
  test := some f.test.name
  position := some f.test.position

theorem diagnostic_mk (n : Nat) (t : TestBlock) (v : Violation) :
    (mk n t v).diagnostic = v.diagnostic t := by
  rw [Violation.diagnostic, Violation.message_eq]
  rfl

/-- The order of findings: by the numbers of the tests, then by the rules. -/
def Precedes (f g : Finding) : Prop :=
  f.number < g.number ∨ (f.number = g.number ∧ f.violation.rank < g.violation.rank)

end Finding

/-- The findings of tests behind the tests `before`. -/
def findings (before : List TestBlock) : List TestBlock → List Finding
  | [] => []
  | t :: rest =>
    (t.violations (before.map TestBlock.name)).map (fun v => ⟨before.length, t, v⟩) ++
      findings (before ++ [t]) rest

/-- Of the names of earlier tests it only matters which there are. -/
theorem TestBlock.violations_congr {earlier earlier' : List String} {t : TestBlock}
    (h : t.name ∈ earlier ↔ t.name ∈ earlier') : t.violations earlier = t.violations earlier' := by
  unfold violations
  simp only [h]

/-- **The diagnostics of tests are those of their findings.** -/
theorem testDiagnostics_eq (before : List TestBlock) (ts : List TestBlock) {earlier : List String}
    (h : ∀ name, name ∈ earlier ↔ name ∈ before.map TestBlock.name) :
    Program.testDiagnostics earlier ts = (findings before ts).map Finding.diagnostic := by
  induction ts generalizing before earlier with
  | nil => rfl
  | cons t ts ih =>
    have hnext : ∀ name, name ∈ t.name :: earlier ↔ name ∈ (before ++ [t]).map TestBlock.name := by
      intro name
      rw [List.map_append, List.mem_append, List.mem_cons, h]
      simp [or_comm]
    have htold : Finding.diagnostic ∘ Finding.mk before.length t = Violation.diagnostic t :=
      funext (Finding.diagnostic_mk _ t)
    rw [Program.testDiagnostics, findings, List.map_append, List.map_map, ih (before ++ [t]) hnext,
      TestBlock.violations_congr (h t.name), htold]

theorem mem_findings_iff (before ts : List TestBlock) (f : Finding) :
    f ∈ findings before ts ↔ ∃ n, f.number = before.length + n ∧ ts[n]? = some f.test ∧
      Breaks (before ++ ts.take n) f.test f.violation := by
  induction ts generalizing before with
  | nil => simp [findings]
  | cons t ts ih =>
    rw [findings, List.mem_append, List.mem_map, ih]
    constructor
    · rintro (⟨v, hv, rfl⟩ | ⟨n, hnumber, htest, hbreaks⟩)
      · refine ⟨0, rfl, rfl, ?_⟩
        rw [List.take_zero, List.append_nil]
        exact (t.mem_violations_iff before v).mp hv
      · refine ⟨n + 1, ?_, htest, ?_⟩
        · rw [hnumber, List.length_append, List.length_singleton]
          omega
        · rw [List.take_succ_cons, List.append_cons]
          exact hbreaks
    · rintro ⟨n, hnumber, htest, hbreaks⟩
      cases n with
      | zero =>
        rw [List.take_zero, List.append_nil] at hbreaks
        obtain ⟨number, test, violation⟩ := f
        cases hnumber
        cases htest
        exact .inl ⟨violation, (TestBlock.mem_violations_iff before _ violation).mpr hbreaks, rfl⟩
      | succ n =>
        refine .inr ⟨n, ?_, htest, ?_⟩
        · rw [hnumber, List.length_append, List.length_singleton]
          omega
        · rw [List.take_succ_cons, List.append_cons] at hbreaks
          exact hbreaks

theorem pairwise_findings (before ts : List TestBlock) :
    (findings before ts).Pairwise Finding.Precedes := by
  induction ts generalizing before with
  | nil => exact .nil
  | cons t ts ih =>
    rw [findings, List.pairwise_append]
    refine ⟨?_, ih (before ++ [t]), ?_⟩
    · rw [List.pairwise_map]
      exact (t.pairwise_violations _).imp fun hrank => .inr ⟨rfl, hrank⟩
    · intro f hf g hg
      obtain ⟨v, -, rfl⟩ := List.mem_map.mp hf
      obtain ⟨n, hnumber, -, -⟩ := (mem_findings_iff (before ++ [t]) ts g).mp hg
      rw [List.length_append, List.length_singleton] at hnumber
      exact .inl (by dsimp only; omega)

/-! ## Valid programs -/

/-- **A test breaks no rule if no test before it has its name, it begins with a request and makes two
assertions.** -/
theorem not_breaks_iff (before : List TestBlock) (t : TestBlock) :
    (∀ v, ¬ Breaks before t v) ↔ (∀ u ∈ before, u.name ≠ t.name) ∧
      (∃ r, t.statements.head? = some (.request r)) ∧ 2 ≤ t.assertionCount := by
  constructor
  · intro h
    refine ⟨fun u hu hname => h _ (.duplicateName hu hname), ?_, ?_⟩
    · cases hfirst : t.statements.head? with
      | none =>
        have hnil : t.statements = [] := List.head?_eq_none_iff.mp hfirst
        exact absurd (.noRequest (by simp [hnil])) (h .noRequest)
      | some s =>
        cases s with
        | request r => exact ⟨r, rfl⟩
        | assertion a => exact absurd (.assertionFirst hfirst) (h _)
    · exact Nat.not_lt.mp fun hfew => h _ (.tooFewAssertions hfew)
  · rintro ⟨hnames, ⟨r, hfirst⟩, hmany⟩ v hv
    cases hv with
    | duplicateName hu hname => exact hnames _ hu hname
    | noRequest hnone => exact hnone r (List.mem_of_head? hfirst)
    | tooFewAssertions hfew => omega
    | assertionFirst hassertion =>
      rw [hfirst] at hassertion
      cases hassertion

/-- Names are different if none of them is that of an earlier test. -/
theorem nodup_names_iff (ts : List TestBlock) :
    (ts.map TestBlock.name).Nodup ↔
      ∀ (n : Nat) (t : TestBlock), ts[n]? = some t → ∀ u ∈ ts.take n, u.name ≠ t.name := by
  rw [List.Nodup, List.pairwise_map, List.pairwise_iff_getElem]
  constructor
  · intro h n t ht u hu
    obtain ⟨hn, rfl⟩ := List.getElem?_eq_some_iff.mp ht
    obtain ⟨m, hm, rfl⟩ := List.mem_take_iff_getElem.mp hu
    exact h m n (by omega) hn (by omega)
  · intro h m n hm hn hlt
    exact h n _ (List.getElem?_eq_getElem hn) _
      (List.mem_take_iff_getElem.mpr ⟨m, by omega, rfl⟩)

theorem Program.diagnostics_eq {p : Program} (h : p.tests ≠ []) :
    p.diagnostics = (findings [] p.tests).map Finding.diagnostic := by
  rw [Program.diagnostics, if_neg (by simpa using h)]
  exact testDiagnostics_eq [] p.tests (by simp)

theorem Program.validate_eq_ok_iff (p : Program) : p.validate = .ok () ↔ p.diagnostics = [] := by
  constructor
  · exact diagnostics_of_validate
  · intro h
    rw [Program.validate, h]

theorem mem_findings_nil (ts : List TestBlock) (f : Finding) :
    f ∈ findings [] ts ↔
      ts[f.number]? = some f.test ∧ Breaks (ts.take f.number) f.test f.violation := by
  simp [mem_findings_iff]

theorem findings_eq_nil_iff (ts : List TestBlock) :
    findings [] ts = [] ↔ (ts.map TestBlock.name).Nodup ∧
      ∀ t ∈ ts, (∃ r, t.statements.head? = some (.request r)) ∧ 2 ≤ t.assertionCount := by
  have hnone : findings [] ts = [] ↔
      ∀ (n : Nat) (t : TestBlock), ts[n]? = some t → ∀ v, ¬ Breaks (ts.take n) t v := by
    rw [List.eq_nil_iff_forall_not_mem]
    constructor
    · intro h n t ht v hv
      exact h ⟨n, t, v⟩ ((mem_findings_nil ts _).mpr ⟨ht, hv⟩)
    · intro h f hf
      obtain ⟨htest, hbreaks⟩ := (mem_findings_nil ts f).mp hf
      exact h _ _ htest _ hbreaks
  rw [hnone, nodup_names_iff]
  constructor
  · intro h
    refine ⟨fun n t ht => ((not_breaks_iff _ t).mp (h n t ht)).1, ?_⟩
    intro t ht
    obtain ⟨n, hn⟩ := List.mem_iff_getElem?.mp ht
    exact ((not_breaks_iff _ t).mp (h n t hn)).2
  · rintro ⟨hnames, hbodies⟩ n t ht
    exact (not_breaks_iff _ t).mpr ⟨hnames n t ht, hbodies t (List.mem_of_getElem? ht)⟩

/-- An assertion comes before any request if it is the first statement. -/
theorem exists_assertionFirst_iff (before : List TestBlock) (t : TestBlock) :
    (∃ k, Breaks before t (.assertionFirst k)) ↔
      ∃ front a rest, t.statements = front ++ .assertion a :: rest ∧
        ∀ r, .request r ∉ front := by
  constructor
  · rintro ⟨k, h⟩
    cases h with
    | @assertionFirst a hfirst =>
      obtain ⟨rest, hrest⟩ := List.head?_eq_some_iff.mp hfirst
      exact ⟨[], a, rest, hrest, by simp⟩
  · rintro ⟨front, a, rest, hsplit, hfront⟩
    cases front with
    | nil => exact ⟨_, .assertionFirst (a := a) (by rw [hsplit]; rfl)⟩
    | cons s front =>
      cases s with
      | request r => exact absurd List.mem_cons_self (hfront r)
      | assertion b => exact ⟨_, .assertionFirst (a := b) (by rw [hsplit]; rfl)⟩

/-- **Diagnostics tell each broken rule once and in order, and nothing else.** A program without tests
has the one diagnostic that says so. Otherwise the diagnostics are those of the findings, tests in
their order and the rules of a test in theirs. An assertion is told of if it comes before any request.
Validation fails with all diagnostics there are, and there are none exactly if the program has a test,
the names of tests are different and every test begins with a request and makes two assertions. -/
theorem diagnostics_exact (p : Program) :
    (p.tests = [] →
      p.diagnostics = [⟨"program must contain at least one test block", none, none⟩]) ∧
    (p.tests ≠ [] → ∃ found : List Finding,
      p.diagnostics = found.map Finding.diagnostic ∧ found.Pairwise Finding.Precedes ∧
      ∀ f, f ∈ found ↔ p.tests[f.number]? = some f.test ∧
        Breaks (p.tests.take f.number) f.test f.violation) ∧
    (∀ before, ∀ t ∈ p.tests, (∃ k, Breaks before t (.assertionFirst k)) ↔
      ∃ front a rest, t.statements = front ++ .assertion a :: rest ∧ ∀ r, .request r ∉ front) ∧
    (p.diagnostics ≠ [] → p.validate = .error (.invalid p.diagnostics)) ∧
    (p.validate = .ok () ↔ p.tests ≠ [] ∧ (p.tests.map TestBlock.name).Nodup ∧
      ∀ t ∈ p.tests, (∃ r, t.statements.head? = some (.request r)) ∧ 2 ≤ t.assertionCount) := by
  refine ⟨?_, ?_, fun before t _ => exists_assertionFirst_iff before t, ?_, ?_⟩
  · intro hnil
    rw [Program.diagnostics, hnil]
    rfl
  · intro htests
    exact ⟨findings [] p.tests, Program.diagnostics_eq htests, pairwise_findings [] p.tests,
      mem_findings_nil p.tests⟩
  · intro hne
    unfold Program.validate
    split
    · next h => exact absurd h hne
    · rfl
  · rw [Program.validate_eq_ok_iff]
    by_cases htests : p.tests = []
    · simp [Program.diagnostics, htests]
    · rw [Program.diagnostics_eq htests, List.map_eq_nil_iff, findings_eq_nil_iff]
      simp [htests]

example :
    let early : Statement := .assertion (.statusEquals 200)
    let p : Program := ⟨none, [], [⟨"a", [], ⟨1, 1⟩⟩, ⟨"a", [early, .request ⟨.get, "/", []⟩], ⟨2, 1⟩⟩]⟩
    p.diagnostics.map Diagnostic.text =
      ["[test 'a'] must contain at least one request (at 1:1)",
        "[test 'a'] must contain at least 2 assertions (found 0) (at 1:1)",
        "[test 'a'] duplicate test block name 'a' (at 2:1)",
        "[test 'a'] must contain at least 2 assertions (found 1) (at 2:1)",
        "[test 'a'] assertion 'assert_status' appears before any request (at 2:1)"] := by
  decide +kernel

end ApiScenario
