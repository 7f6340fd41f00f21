import Mathlib.Data.List.Forall2
import ApiScenario.Compile

/-!
# Programs that come to the same

Two programs are alike if they have the same base address and default headers, and tests of the same
names at the same places, with the same assertions and with requests that are sent as the same calls
(`Program.Alike`). What requests are written as, and which variables there are, can differ.

The rules and the lowering see no more of a program than this, so the same is wrong with programs
that are alike (`Program.Alike.diagnostics`), and the same is made of them (`Program.Alike.lower`,
`Program.Alike.generate`).
-/

namespace ApiScenario

/-! ## Statements -/

/-- Statements that come to the same, with the variables of their programs: assertions that are
equal, and requests that are sent as the same call. -/
inductive Statement.Alike (vs vs' : List Variable) : Statement → Statement → Prop
  | assertion (a : Assertion) : Alike vs vs' (.assertion a) (.assertion a)
  | request {r r' : Request} : r'.plan vs' = r.plan vs → Alike vs vs' (.request r) (.request r')

/-- Tests that come to the same. -/
structure TestBlock.Alike (vs vs' : List Variable) (t t' : TestBlock) : Prop where
  name : t'.name = t.name
  position : t'.position = t.position
  statements : List.Forall₂ (Statement.Alike vs vs') t.statements t'.statements

variable {vs vs' : List Variable}

theorem PlannedTest.extend_alike {s s' : Statement} (h : Statement.Alike vs vs' s s')
    (t : PlannedTest) : t.extend vs' s' = t.extend vs s := by
  cases h with
  | assertion a => rfl
  | request hplan => rw [extend, extend, hplan]

theorem PlannedTest.foldlM_extend_alike {ss ss' : List Statement}
    (h : List.Forall₂ (Statement.Alike vs vs') ss ss') (t : PlannedTest) :
    ss'.foldlM (extend vs') t = ss.foldlM (extend vs) t := by
  induction h generalizing t with
  | nil => rfl
  | cons hs _ ih =>
    rw [List.foldlM_cons, List.foldlM_cons, funext ih, extend_alike hs]

namespace TestBlock

theorem isEmpty_requests_alike {ss ss' : List Statement}
    (h : List.Forall₂ (Statement.Alike vs vs') ss ss') (n n' : String) (q q' : Position) :
    (mk n' ss' q').requests.isEmpty = (mk n ss q).requests.isEmpty := by
  induction h with
  | nil => rfl
  | cons hs _ ih =>
    cases hs with
    | assertion a => exact ih
    | request _ => rfl

theorem assertions_alike {ss ss' : List Statement}
    (h : List.Forall₂ (Statement.Alike vs vs') ss ss') (n n' : String) (q q' : Position) :
    (mk n' ss' q').assertions = (mk n ss q).assertions := by
  induction h with
  | nil => rfl
  | cons hs _ ih =>
    cases hs with
    | assertion a => exact congrArg (a :: ·) ih
    | request _ => exact ih

theorem leadingAssertion?_alike {ss ss' : List Statement}
    (h : List.Forall₂ (Statement.Alike vs vs') ss ss') (n n' : String) (q q' : Position) :
    (mk n' ss' q').leadingAssertion? = (mk n ss q).leadingAssertion? := by
  rw [leadingAssertion?_eq, leadingAssertion?_eq]
  cases h with
  | nil => rfl
  | cons hs _ => cases hs <;> rfl

variable {t t' : TestBlock}

/-- The rules see the same in tests that come to the same. -/
theorem Alike.violations (h : Alike vs vs' t t') (earlier : List String) :
    t'.violations earlier = t.violations earlier := by
  have hrequests := isEmpty_requests_alike h.statements t.name t'.name t.position t'.position
  have hassertions := assertions_alike h.statements t.name t'.name t.position t'.position
  have hleading := leadingAssertion?_alike h.statements t.name t'.name t.position t'.position
  unfold TestBlock.violations
  rw [h.name, hrequests, hassertions, hleading]

theorem Alike.diagnostic (h : Alike vs vs' t t') :
    Violation.diagnostic t' = Violation.diagnostic t := by
  funext v
  unfold Violation.diagnostic
  rw [h.name, h.position]

theorem Alike.plan (h : Alike vs vs' t t') : t'.plan vs' = t.plan vs := by
  rw [TestBlock.plan, TestBlock.plan, PlannedTest.foldlM_extend_alike h.statements, h.name]

end TestBlock

/-! ## Programs -/

/-- Programs that come to the same. -/
structure Program.Alike (p p' : Program) : Prop where
  baseUrl : p'.baseUrl = p.baseUrl
  defaultHeaders : p'.defaultHeaders = p.defaultHeaders
  tests : List.Forall₂ (TestBlock.Alike p.declarations p'.declarations) p.tests p'.tests

theorem testDiagnostics_alike {ts ts' : List TestBlock}
    (h : List.Forall₂ (TestBlock.Alike vs vs') ts ts') (earlier : List String) :
    Program.testDiagnostics earlier ts' = Program.testDiagnostics earlier ts := by
  induction h generalizing earlier with
  | nil => rfl
  | cons ht _ ih =>
    rw [Program.testDiagnostics, Program.testDiagnostics, ih, ht.violations, ht.diagnostic, ht.name]

theorem planAll_alike {ts ts' : List TestBlock}
    (h : List.Forall₂ (TestBlock.Alike vs vs') ts ts') :
    TestBlock.planAll vs' ts' = TestBlock.planAll vs ts := by
  induction h with
  | nil => rfl
  | cons ht _ ih => rw [TestBlock.planAll, TestBlock.planAll, ih, ht.plan]

namespace Program.Alike

variable {p p' : Program}

/-- **The same is wrong with programs that come to the same.** -/
theorem diagnostics (h : p.Alike p') : p'.diagnostics = p.diagnostics := by
  have hempty : p'.tests.isEmpty = p.tests.isEmpty := by
    rw [Bool.eq_iff_iff, List.isEmpty_iff_length_eq_zero, List.isEmpty_iff_length_eq_zero,
      h.tests.length_eq]
  unfold Program.diagnostics
  rw [hempty, testDiagnostics_alike h.tests]

/-- **Programs that come to the same have the same plan**, or fail to have one for the same
reason. -/
theorem lower (h : p.Alike p') : p'.lower = p.lower := by
  unfold Program.lower
  rw [planAll_alike h.tests, h.baseUrl, h.defaultHeaders]

theorem generate (h : p.Alike p') (o : Options) : p'.generate o = p.generate o := by
  rw [Program.generate, Program.generate, h.lower]

end Program.Alike

end ApiScenario
