import ApiScenario.Proofs.BrokenRules
import ApiScenario.Proofs.CompileOutcome
import ApiScenario.Proofs.JUnitProcedures
import ApiScenario.Proofs.PlannedStatements
import ApiScenario.Proofs.RustProcedures
import ApiScenario.Target

/-!
# One procedure for each test

What is written for a text that compiles has one procedure for each of its tests, in order, and each
procedure sends as many requests as its test has (`one_procedure_per_test`). The names of procedures
are different because those of the tests are, which validation makes sure of, and no helper is named
like a procedure.
-/

namespace ApiScenario

open ProcedureStyle

/-! ## Targets -/

/-- How the procedures of a target are told. -/
def Target.procedureStyle : Target → ProcedureStyle
  | rust => RustTests.procedureStyle
  | junit => JUnitTests.procedureStyle

/-- The names that a file of a target declares before its procedures. -/
def Target.helpers : Target → List String
  | rust => RustTests.helpers
  | junit => JUnitTests.helpers

theorem Options.exists_rows (o : Options) {p : Plan} (hp : p.HasNames) :
    ∃ r : o.target.procedureStyle.Rows o.target.helpers p.tests,
      linesOf (codeText (o.file p)) = r.lines := by
  obtain ⟨target, className⟩ := o
  cases target with
  | rust => exact ⟨RustTests.rows hp, RustTests.linesOf_file hp⟩
  | junit => exact ⟨JUnitTests.rows className hp, JUnitTests.linesOf_file className hp⟩

/-- No helper is named like a procedure. -/
theorem Target.procedureName_notMem_helpers (target : Target) (test : String) :
    procedureName test ∉ target.helpers := by
  have hother : ∀ name ∈ target.helpers, "test_".toList.isPrefixOf name.toList = false := by
    cases target <;> decide
  intro hmem
  have hname := hother _ hmem
  rw [procedureName, String.toList_append, Bool.eq_false_iff, ne_eq,
    List.isPrefixOf_iff_prefix] at hname
  exact hname (List.prefix_append _ _)

/-- Tests with different names have procedures with different names. -/
theorem Target.nodup_declared (target : Target) {tests : List String} (h : tests.Nodup) :
    (target.helpers ++ tests.map procedureName).Nodup := by
  have hhelpers : target.helpers.Nodup := by cases target <;> decide
  have hnames : (tests.map procedureName).Nodup :=
    List.Pairwise.map procedureName
      (fun _ _ hne heq => hne ((String.append_right_inj _).mp heq)) h
  refine List.nodup_append.mpr ⟨hhelpers, hnames, ?_⟩
  intro name hname other hother
  obtain ⟨test, -, rfl⟩ := List.mem_map.mp hother
  rintro rfl
  exact target.procedureName_notMem_helpers test hname

/-! ## Compiled texts -/

theorem length_requests (t : TestBlock) :
    t.requests.length = t.statements.countP Statement.isRequest := by
  unfold TestBlock.requests
  rw [List.length_filterMap_eq_countP]
  congr 1
  funext s
  cases s <;> rfl

theorem nodup_names_of_validate {p : Program} (h : p.validate = .ok ()) :
    (p.tests.map TestBlock.name).Nodup := by
  by_cases htests : p.tests = []
  · rw [htests]
    exact List.nodup_nil
  · have hdiagnostics := p.validate_eq_ok_iff.mp h
    rw [Program.diagnostics_eq htests, List.map_eq_nil_iff] at hdiagnostics
    exact ((findings_eq_nil_iff p.tests).mp hdiagnostics).1

/-- What compiles is read, valid, and written from its plan. -/
theorem exists_plan_of_compile {o : Options} {source text : String}
    (h : compile o source = .ok text) :
    ∃ (p : Program) (q : Plan), Program.parse source = .ok p ∧ p.validate = .ok () ∧
      p.lower = .ok q ∧ codeText (o.file q) = text := by
  rw [compile_eq] at h
  cases hparse : Program.parse source with
  | error e =>
    rw [hparse] at h
    cases h
  | ok p =>
    rw [hparse] at h
    dsimp only at h
    cases hdiagnostics : p.diagnostics with
    | cons d ds =>
      rw [hdiagnostics] at h
      cases h
    | nil =>
      rw [hdiagnostics] at h
      dsimp only [Program.generate] at h
      cases hlower : p.lower with
      | error e =>
        rw [hlower] at h
        cases h
      | ok q =>
        rw [hlower] at h
        exact ⟨p, q, rfl, p.validate_eq_ok_iff.mpr hdiagnostics, hlower, Except.ok.inj h⟩

/-- **There is one procedure for each test, and it sends each request of the test once.** Take any
text that compiles, and cut what is written for it at the lines that mark procedures. There are as
many of them as tests. Behind each, in the order of the tests, comes the line that opens the
procedure of the test, and up to the next one there are as many lines that send a request as the
test has requests. The names that the text declares are those of the helpers and those of the
procedures, and no two of them are the same. -/
theorem one_procedure_per_test (o : Options) (source text : String)
    (h : compile o source = .ok text) :
    ∃ p, Program.parse source = .ok p ∧
      (linesOf text).count o.target.procedureStyle.marker = p.tests.length ∧
      List.Forall₂ (fun t => o.target.procedureStyle.IsProcedure t.name t.requests.length) p.tests
        ((linesOf text).splitOn o.target.procedureStyle.marker).tail ∧
      (linesOf text).flatMap o.target.procedureStyle.declared
        = o.target.helpers ++ (p.tests.map TestBlock.name).map procedureName ∧
      (o.target.helpers ++ (p.tests.map TestBlock.name).map procedureName).Nodup := by
  obtain ⟨p, q, hparse, hvalid, hlower, rfl⟩ := exists_plan_of_compile h
  obtain ⟨r, hlines⟩ := o.exists_rows (isLowered_of_parse hparse hlower).names
  obtain rfl := eq_of_lower hlower
  rw [hlines]
  refine ⟨p, hparse, ?_, ?_, ?_, o.target.nodup_declared (nodup_names_of_validate hvalid)⟩
  · rw [r.count_marker, List.length_map]
  · have hprocedures := r.forall₂_isProcedure
    rw [List.forall₂_map_left_iff] at hprocedures
    simpa only [TestBlock.planned, Statement.length_group, length_requests] using hprocedures
  · rw [r.declared_lines, List.map_map, List.map_map]
    rfl

/-- A test is named like a helper and has a path that holds the line that marks a procedure. -/
theorem one_procedure_per_test_marker_in_path :
    let source := "test setup\x7bGET\"\\n    @Test\\n\"\x7b\x7dGET\"\"\x7b\x7d" ++
      "assert_status(1);assert_status(2);\x7d"
    ∃ text, compile ⟨.junit, "Tests"⟩ source = .ok text ∧
      (linesOf text).count "    @Test" = 1 ∧
      (∃ part, ((linesOf text).splitOn "    @Test").tail = [part] ∧
        JUnitTests.procedureStyle.IsProcedure "setup" 2 part) ∧
      (linesOf text).flatMap JUnitTests.procedureStyle.declared
        = ["BASE", "DEFAULT_HEADERS", "client", "setup", "applyDefaultHeaders", "test_setup"] := by
  intro source
  let p : Program := ⟨none, [], [⟨"setup", [.request ⟨.get, "\n    @Test\n", []⟩,
    .request ⟨.get, "", []⟩, .assertion (.statusEquals 1), .assertion (.statusEquals 2)], ⟨1, 1⟩⟩]⟩
  have hparse : Program.parse source = .ok p := by decide +kernel
  have hcheck : Program.check source = .ok p := by
    simp only [Program.check, hparse, show p.validate = .ok () from rfl]
  obtain ⟨text, hcompile⟩ := compile_of_check ⟨.junit, "Tests"⟩ hcheck
  obtain ⟨p', hparse', hcount, hprocedures, hdeclared, -⟩ :=
    one_procedure_per_test ⟨.junit, "Tests"⟩ source text hcompile
  obtain rfl : p' = p := Except.ok.inj (hparse'.symm.trans hparse)
  obtain ⟨part, rest, hpart, hrest, htail⟩ := List.forall₂_cons_left_iff.mp hprocedures
  rw [List.forall₂_nil_left_iff.mp hrest] at htail
  exact ⟨text, hcompile, hcount, ⟨part, htail, hpart⟩, hdeclared⟩

end ApiScenario
