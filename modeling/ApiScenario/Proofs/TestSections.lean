import ApiScenario.Compile
import ApiScenario.Proofs.Indentation
import ApiScenario.Proofs.LoweredPlan

/-!
# Sections of a file

A file is a front that depends on the base address and the default headers, a section for each test,
and an end (`codeText_file`). Sections come back to the level of indentation at which they begin, so
what is written for a test does not depend on the tests before it; and tests are lowered one by one,
so it does not depend on them through the plan either (`test_sections_independent`).
-/

namespace ApiScenario

open Directive

/-! ## Texts in a row -/

theorem join_map_ofList {α : Type} (f : α → List Char) (as : List α) :
    String.join (as.map fun a => String.ofList (f a)) = String.ofList (as.flatMap f) := by
  rw [← String.toList_inj, String.toList_join, String.toList_ofList, List.flatMap_map]
  simp only [String.toList_ofList]

/-- Parts that come back to their level are written one after the other. -/
theorem layout_flatMap {α : Type} {f : α → List Directive} (h : ∀ a, Balanced (f a)) (d : Nat)
    (as : List α) : layout d (as.flatMap f) = as.flatMap fun a => layout d (f a) := by
  induction as with
  | nil => rfl
  | cons a as ih =>
    rw [List.flatMap_cons, List.flatMap_cons, layout_append, (h a).back, ih]

/-! ## Fronts, sections and ends -/

/-- Everything before the first test of a class. The class stays open. -/
def JUnitTests.front (className baseUrl : String) (defaultHeaders : List Header) : List Directive :=
  preamble ++ line ["public class ", className, " \x7b"] :: indent :: fixture baseUrl defaultHeaders

/-- What stands before the first test. -/
def Options.front (o : Options) (baseUrl : String) (defaultHeaders : List Header) : String :=
  match o.target with
  | .rust => codeText (RustTests.head baseUrl defaultHeaders)
  | .junit => codeText (JUnitTests.front (ClassName.choose o.className) baseUrl defaultHeaders)

/-- What is written for a test. -/
def Options.testSection (o : Options) (t : PlannedTest) : String :=
  match o.target with
  | .rust => String.ofList (layout 0 (blank :: RustTests.testFunction t))
  | .junit => String.ofList (layout 1 (blank :: JUnitTests.testMethod t))

/-- What stands behind the last test. -/
def Target.ending : Target → String
  | rust => ""
  | junit => "\x7d\n"

/-- What is written for the tests of a program. -/
def Options.sections (o : Options) (p : Program) : List String :=
  p.tests.map fun t => o.testSection (t.planned p.declarations)

theorem RustTests.codeText_file (p : Plan) :
    codeText (file p) = codeText (head p.baseUrl p.defaultHeaders) ++
      String.join (p.tests.map fun t => String.ofList (layout 0 (blank :: testFunction t))) := by
  have htests : ∀ t, Balanced (blank :: testFunction t) := fun t => .blank (balanced_testFunction t)
  rw [join_map_ofList, codeText, codeText, file, layout_append, (balanced_head _ _).back,
    layout_flatMap htests, String.ofList_append]

/-- The class is open behind its front, so its methods stand one level further in. -/
theorem JUnitTests.depthAfter_front (className baseUrl : String) (hs : List Header) :
    depthAfter 0 (front className baseUrl hs) = 1 := by
  rw [front, depthAfter_append, balanced_preamble.back]
  exact (balanced_fixture baseUrl hs).back 1

theorem JUnitTests.codeText_file (className : String) (p : Plan) :
    codeText (file className p) = codeText (front className p.baseUrl p.defaultHeaders) ++
      String.join (p.tests.map fun t => String.ofList (layout 1 (blank :: testMethod t))) ++
      Target.junit.ending := by
  have htests : ∀ t, Balanced (blank :: testMethod t) := fun t => .blank (balanced_testMethod t)
  have hfile : file className p = front className p.baseUrl p.defaultHeaders ++
      ((p.tests.flatMap fun t => blank :: testMethod t) ++ [dedent, line ["\x7d"]]) := by
    simp only [file, front, block, List.append_assoc, List.cons_append]
  have hclosing : layout 1 [dedent, line ["\x7d"]] = Target.junit.ending.toList := by decide
  rw [join_map_ofList, codeText, codeText, hfile, layout_append, depthAfter_front, layout_append,
    (Balanced.flatMap htests).back, layout_flatMap htests, hclosing, String.ofList_append,
    String.ofList_append, String.ofList_toList, String.append_assoc]

/-- **A file is a front, a section for each test, and an end.** -/
theorem Options.codeText_file (o : Options) (q : Plan) :
    codeText (o.file q) = o.front q.baseUrl q.defaultHeaders ++
      String.join (q.tests.map o.testSection) ++ o.target.ending := by
  obtain ⟨target, className⟩ := o
  cases target with
  | rust => exact (RustTests.codeText_file q).trans (String.append_empty).symm
  | junit => exact JUnitTests.codeText_file _ q

/-! ## Programs -/

theorem Program.generate_eq_ok {o : Options} {p : Program} {text : String}
    (h : p.generate o = .ok text) :
    text = o.front p.baseUrl p.defaultHeaders ++ String.join (o.sections p) ++
      o.target.ending := by
  unfold Program.generate at h
  cases hlower : p.lower with
  | error e =>
    rw [hlower] at h
    cases h
  | ok q =>
    rw [hlower] at h
    cases h
    rw [o.codeText_file, eq_of_lower hlower, List.map_map]
    rfl

/-- **What is written for a test depends on nothing but the test.** For either target and any name
of the class, the file of a plan is a front that depends on the base address and the default
headers, a section for each test that depends on that test, in order, and a fixed end. If two
programs with the same configuration and the same variables are written, their files have the same
front and the same end, and a test that both have is given the same section, wherever it stands and
whatever the other tests are. -/
theorem test_sections_independent (o : Options) :
    (∀ q : Plan, codeText (o.file q) = o.front q.baseUrl q.defaultHeaders ++
      String.join (q.tests.map o.testSection) ++ o.target.ending) ∧
    ∀ (p p' : Program) (text text' : String), p.config = p'.config →
      p.declarations = p'.declarations → p.generate o = .ok text → p'.generate o = .ok text' →
      text = o.front p.baseUrl p.defaultHeaders ++ String.join (o.sections p) ++
        o.target.ending ∧
      text' = o.front p.baseUrl p.defaultHeaders ++ String.join (o.sections p') ++
        o.target.ending ∧
      ∀ (i j : Nat) (t t' : TestBlock), p.tests[i]? = some t → p'.tests[j]? = some t' →
        t.name = t'.name → t.statements = t'.statements →
        ∃ written, (o.sections p)[i]? = some written ∧ (o.sections p')[j]? = some written := by
  refine ⟨o.codeText_file, ?_⟩
  intro p p' text text' hconfig hvariables htext htext'
  have hbase : p'.baseUrl = p.baseUrl := by
    unfold Program.baseUrl Program.baseUrls Program.configItems
    rw [hconfig]
  have hheaders : p'.defaultHeaders = p.defaultHeaders := by
    unfold Program.defaultHeaders Program.configItems
    rw [hconfig]
  refine ⟨Program.generate_eq_ok htext, ?_, ?_⟩
  · rw [← hbase, ← hheaders]
    exact Program.generate_eq_ok htext'
  · intro i j t t' ht ht' hname hstatements
    refine ⟨o.testSection (t.planned p.declarations), ?_, ?_⟩
    · rw [Options.sections, List.getElem?_map, ht]
      rfl
    · have hplanned : t'.planned p'.declarations = t.planned p.declarations := by
        unfold TestBlock.planned
        rw [hname, hstatements, hvariables]
      rw [Options.sections, List.getElem?_map, ht', Option.map_some, hplanned]

/-- A test keeps its section when the test before it, whose path looks like the end of a class, is
left out. -/
theorem test_sections_independent_alone :
    let o : Options := ⟨.junit, "Tests"⟩
    let other : TestBlock := ⟨"other", [.request ⟨.post, "\n    \x7d\n\x7d\n", []⟩], ⟨2, 1⟩⟩
    let t : TestBlock := ⟨"t", [.request ⟨.get, "/$n", []⟩, .assertion (.statusEquals 200)], ⟨5, 1⟩⟩
    let p : Program := ⟨none, [⟨"n", .int 1⟩], [other, t]⟩
    let p' : Program := ⟨none, [⟨"n", .int 1⟩], [{ t with position := ⟨2, 1⟩ }]⟩
    ∃ text text' first written, p.generate o = .ok text ∧ p'.generate o = .ok text' ∧
      text = o.front p.baseUrl [] ++ String.join [first, written] ++ "\x7d\n" ∧
      text' = o.front p.baseUrl [] ++ String.join [written] ++ "\x7d\n" := by
  intro o other t p p'
  have htext : p.generate o = .ok (codeText (o.file ⟨p.baseUrl, [],
      [other.planned p.declarations, t.planned p.declarations]⟩)) := rfl
  have htext' : p'.generate o = .ok (codeText (o.file ⟨p.baseUrl, [],
      [t.planned p.declarations]⟩)) := rfl
  obtain ⟨hp, hp', hsame⟩ :=
    (test_sections_independent o).2 p p' _ _ rfl rfl htext htext'
  obtain ⟨written, hwritten, hwritten'⟩ := hsame 1 0 t { t with position := ⟨2, 1⟩ } rfl rfl rfl rfl
  refine ⟨_, _, o.testSection (other.planned p.declarations), written, htext, htext', ?_, ?_⟩
  · rw [hp, ← Option.some.inj hwritten]
    rfl
  · rw [hp', ← Option.some.inj hwritten']
    rfl

end ApiScenario
