import Mathlib.Control.Monad.Basic
import Mathlib.Data.List.Induction
import ApiScenario.Proofs.BrokenRules
import ApiScenario.Proofs.CompileOutcome
import ApiScenario.Proofs.LazyReading

/-!
# Diagnostics in the order of the source

The words that begin tests stand one behind the other in a text, and a test is placed at its own
word (`standsAs_of_programRel`). Diagnostics tell the tests in their order, so their places never
go back, as long as lines and columns can be told in 32 bits.

An error names each test once, where a test of that name first breaks a rule
(`exists_firstToBreak`). Names can be repeated, and an earlier test of the same name may be without
fault.
-/

namespace ApiScenario

open Grammar

/-! ## Places of tests -/

/-- Whether a token is the word that begins a test. -/
def Token.beginsTest (t : Token) : Bool := t.kind = .keyword .test

/-- A test stands at the word that begins a test with `n` such words before it, and its name follows
there. -/
def TestBlock.StandsAs (t : TestBlock) (n : Nat) (ts : List Token) : Prop :=
  ∃ (before : List Token) (name : Token) (after : List Token),
    ts = before ++ ⟨.keyword .test, t.position⟩ :: name :: after ∧
    before.countP Token.beginsTest = n ∧ name.kind = .ident t.name

theorem length_testPlaces (ts : List Token) :
    (testPlaces ts).length = ts.countP Token.beginsTest := by
  rw [testPlaces, List.length_map, List.countP_eq_length_filter]
  rfl

theorem TestBlock.StandsAs.append {t : TestBlock} {n : Nat} {ts : List Token} (h : t.StandsAs n ts)
    (front rest : List Token) :
    t.StandsAs (front.countP Token.beginsTest + n) (front ++ ts ++ rest) := by
  obtain ⟨before, name, after, rfl, hcount, hname⟩ := h
  refine ⟨front ++ before, name, after ++ rest, by simp, ?_, hname⟩
  rw [List.countP_append, hcount]

theorem standsAs_of_manyRel {ts : List Token} {tests : List TestBlock}
    (h : ManyRel TestRel ts tests) :
    ∀ (n : Nat) (t : TestBlock), tests[n]? = some t → t.StandsAs n ts := by
  induction h with
  | nil => simp
  | @cons us rest u tests hu _ ih =>
    intro n t ht
    have hcount : us.countP Token.beginsTest = 1 := by
      rw [← length_testPlaces, ((testRel_iff us u).mp hu).2]
      rfl
    cases n with
    | zero =>
      obtain rfl : u = t := Option.some.inj ht
      obtain @⟨place, rest', name, ks, statements, hkinds, -⟩ := hu
      obtain ⟨token, after, rfl, hname, -⟩ := List.map_eq_cons_iff.mp hkinds
      exact ⟨[], token, after ++ rest, rfl, rfl, hname⟩
    | succ n =>
      have hlater := (ih n t ht).append us []
      rwa [hcount, List.append_nil, Nat.add_comm] at hlater

theorem standsAs_of_programRel {ts : List Token} {p : Program} (h : ProgramRel ts p) (n : Nat)
    (t : TestBlock) (ht : p.tests[n]? = some t) : t.StandsAs n ts := by
  obtain @⟨cs, vs, us, config, declarations, tests, place, hc, hv, htests⟩ := h
  have hfront : (cs ++ vs).countP Token.beginsTest = 0 := by
    rw [← length_testPlaces, testPlaces_eq_nil]
    · rfl
    · rw [List.map_append, (optionalConfigRel_iff _ _).mp hc,
        (manyRel_iff variableRel_iff _ _).mp hv, List.mem_append, not_or]
      exact ⟨test_notMem_config config, test_notMem_variables declarations⟩
  have hstands := (standsAs_of_manyRel htests n t ht).append (cs ++ vs) [⟨.eof, place⟩]
  rwa [hfront, Nat.zero_add] at hstands

/-- Tests of a text that is short enough stand one behind the other. -/
theorem pairwise_tests_of_parse {source : String} {p : Program} (h : Program.parse source = .ok p)
    (hsize : source.length < UInt32.size) :
    p.tests.Pairwise fun t u => t.position < u.position := by
  obtain ⟨ts, rest, hlex, hrel⟩ := programRel_of_parse h
  have hsub : ((ts.filter fun t => t.kind = .keyword .test).map .ok).Sublist (lex source) := by
    rw [hlex]
    exact (List.filter_sublist.map _).trans (List.sublist_append_left _ _)
  have hplaces := pairwise_places hsize hsub fun q hq => by
    obtain ⟨t, ht, he⟩ := List.mem_map.mp hq
    cases he
    simp at ht
  have htests : (testPlaces ts).Pairwise (· < ·) := by
    rwa [List.map_map] at hplaces
  rwa [((programRel_iff ts p).mp hrel).2, List.pairwise_map] at htests

/-! ## Names at their first places -/

section Firsts

open CompileError

theorem firsts_concat (names : List String) (name : String) :
    firsts (names ++ [name])
      = if name ∈ firsts names then firsts names else firsts names ++ [name] := by
  rw [firsts, List.foldl_append]
  rfl

theorem mem_firsts_iff (names : List String) (name : String) :
    name ∈ firsts names ↔ name ∈ names := by
  induction names using List.reverseRecOn with
  | nil => rfl
  | append_singleton names last ih =>
    rw [firsts_concat, List.mem_append, List.mem_singleton]
    split
    · next hlast =>
      rw [ih]
      refine ⟨.inl, ?_⟩
      rintro (h | rfl)
      · exact h
      · exact ih.mp hlast
    · rw [List.mem_append, List.mem_singleton, ih]

theorem nodup_firsts (names : List String) : (firsts names).Nodup := by
  induction names using List.reverseRecOn with
  | nil => exact List.nodup_nil
  | append_singleton names last ih =>
    rw [firsts_concat]
    split
    · exact ih
    · next hlast =>
      rw [List.nodup_append]
      exact ⟨ih, by simp, by rintro a ha b hb rfl; exact hlast (List.mem_singleton.mp hb ▸ ha)⟩

/-- **Names are kept at their first places.** Of things with names, those are left that no other
one of their name comes before. -/
theorem exists_firsts {α : Type} (name : α → String) (xs : List α) :
    ∃ ys : List α, ys.Sublist xs ∧ firsts (xs.map name) = ys.map name ∧
      ∀ y ∈ ys, ∃ before after, xs = before ++ y :: after ∧ ∀ x ∈ before, name x ≠ name y := by
  induction xs using List.reverseRecOn with
  | nil => exact ⟨[], .refl _, rfl, by simp⟩
  | append_singleton xs last ih =>
    obtain ⟨ys, hsub, hfirsts, hys⟩ := ih
    have hkept : ∀ y ∈ ys, ∃ before after, xs ++ [last] = before ++ y :: after ∧
        ∀ x ∈ before, name x ≠ name y := by
      intro y hy
      obtain ⟨before, after, rfl, hbefore⟩ := hys y hy
      exact ⟨before, after ++ [last], by simp, hbefore⟩
    rw [List.map_append, List.map_singleton, firsts_concat]
    split
    · exact ⟨ys, hsub.trans (List.sublist_append_left xs [last]), hfirsts, hkept⟩
    · next hlast =>
      refine ⟨ys ++ [last], hsub.append (.refl _), by rw [hfirsts, List.map_append]; rfl, ?_⟩
      intro y hy
      rcases List.mem_append.mp hy with hy | hy
      · exact hkept y hy
      · obtain rfl := List.mem_singleton.mp hy
        refine ⟨xs, [], rfl, fun x hx he => hlast ?_⟩
        rw [mem_firsts_iff, ← he]
        exact List.mem_map_of_mem hx

end Firsts

/-! ## Tests at fault -/

/-- The test with a number has a name and breaks a rule. -/
def Program.BreaksAt (p : Program) (n : Nat) (name : String) : Prop :=
  ∃ (t : TestBlock) (v : Violation), p.tests[n]? = some t ∧ t.name = name ∧
    Breaks (p.tests.take n) t v

/-- The test with a number is the first of its name that breaks a rule. -/
def Program.FirstToBreak (p : Program) (n : Nat) (name : String) : Prop :=
  p.BreaksAt n name ∧ ∀ m < n, ¬ p.BreaksAt m name

theorem breaksAt_iff (p : Program) (n : Nat) (name : String) :
    p.BreaksAt n name ↔ ∃ f ∈ findings [] p.tests, f.number = n ∧ f.test.name = name := by
  constructor
  · rintro ⟨t, v, ht, hname, hbreaks⟩
    exact ⟨⟨n, t, v⟩, (mem_findings_nil _ _).mpr ⟨ht, hbreaks⟩, rfl, hname⟩
  · rintro ⟨f, hf, rfl, hname⟩
    obtain ⟨ht, hbreaks⟩ := (mem_findings_nil _ _).mp hf
    exact ⟨f.test, f.violation, ht, hname, hbreaks⟩

/-- A finding in front of which none has its name is of the first test of that name at fault. -/
theorem firstToBreak_of_findings {p : Program} {before after : List Finding} {f : Finding}
    (h : findings [] p.tests = before ++ f :: after)
    (hbefore : ∀ g ∈ before, g.test.name ≠ f.test.name) : p.FirstToBreak f.number f.test.name := by
  have hf : f ∈ findings [] p.tests := by simp [h]
  refine ⟨(breaksAt_iff p _ _).mpr ⟨f, hf, rfl, rfl⟩, ?_⟩
  intro m hm hbreaks
  obtain ⟨g, hg, rfl, hname⟩ := (breaksAt_iff p _ _).mp hbreaks
  have horder := pairwise_findings [] p.tests
  rw [h, List.pairwise_append, List.pairwise_cons] at horder
  rw [h, List.mem_append, List.mem_cons] at hg
  rcases hg with hg | rfl | hg
  · exact hbefore g hg hname
  · exact Nat.lt_irrefl _ hm
  · rcases horder.2.1.1 g hg with hlt | ⟨heq, -⟩ <;> omega

/-- The names in an error are those of the first tests of their names at fault, in order. -/
theorem exists_firstToBreak (p : Program) :
    ∃ found : List (Nat × String),
      CompileError.firsts ((findings [] p.tests).map fun f => f.test.name) = found.map Prod.snd ∧
      found.Pairwise (fun x y => x.1 < y.1) ∧
      ∀ n name, (n, name) ∈ found ↔ p.FirstToBreak n name := by
  obtain ⟨fs, hsub, hnames, hfs⟩ :=
    exists_firsts (fun f : Finding => f.test.name) (findings [] p.tests)
  have hfirst : ∀ f ∈ fs, p.FirstToBreak f.number f.test.name := by
    intro f hf
    obtain ⟨before, after, hsplit, hbefore⟩ := hfs f hf
    exact firstToBreak_of_findings hsplit hbefore
  refine ⟨fs.map fun f => (f.number, f.test.name), ?_, ?_, ?_⟩
  · rw [hnames, List.map_map]
    rfl
  · -- Two findings with one number are of one test, and no name is kept twice.
    have hnodup : (fs.map fun f => f.test.name).Nodup := hnames ▸ nodup_firsts _
    rw [List.pairwise_map]
    rw [List.Nodup, List.pairwise_map] at hnodup
    refine (((pairwise_findings [] p.tests).sublist hsub).and hnodup).imp_of_mem ?_
    rintro f g hf hg ⟨hlt | ⟨heq, -⟩, hne⟩
    · exact hlt
    · have hft := ((mem_findings_nil _ _).mp (hsub.subset hf)).1
      have hgt := ((mem_findings_nil _ _).mp (hsub.subset hg)).1
      rw [heq, hgt] at hft
      exact absurd (congrArg TestBlock.name (Option.some.inj hft)).symm hne
  · intro n name
    constructor
    · intro hmem
      obtain ⟨f, hf, he⟩ := List.mem_map.mp hmem
      cases he
      exact hfirst f hf
    · rintro ⟨hbreaks, hmin⟩
      obtain ⟨f, hf, rfl, rfl⟩ := (breaksAt_iff p n name).mp hbreaks
      -- Some finding of this name is kept, and it can be of no other test.
      have hname : f.test.name ∈ fs.map fun f => f.test.name := by
        rw [← hnames, mem_firsts_iff]
        exact List.mem_map_of_mem hf
      obtain ⟨g, hg, hgname⟩ := List.mem_map.mp hname
      obtain ⟨hgbreaks, hgmin⟩ := hfirst g hg
      rw [hgname] at hgbreaks hgmin
      have hle : ¬ g.number < f.number := fun hlt => hmin _ hlt hgbreaks
      have hge : ¬ f.number < g.number := fun hlt => hgmin _ hlt hbreaks
      exact List.mem_map.mpr ⟨g, hg, by rw [hgname, show g.number = f.number by omega]⟩

/-! ## Diagnostics of a text -/

theorem testNames_diagnostics (p : Program) :
    (CompileError.source (.invalid p.diagnostics)).testNames
      = CompileError.firsts ((findings [] p.tests).map fun f => f.test.name) := by
  rw [CompileError.testNames]
  congr 1
  by_cases htests : p.tests = []
  · rw [Program.diagnostics, htests]
    rfl
  · rw [Program.diagnostics_eq htests, List.filterMap_map]
    exact congrFun (List.filterMap_eq_map (f := fun f : Finding => f.test.name)) _

/-- Findings of a text that is short enough tell places that never go back. -/
theorem pairwise_findings_of_parse {source : String} {p : Program}
    (h : Program.parse source = .ok p) (hsize : source.length < UInt32.size) :
    ((findings [] p.tests).map fun f => f.test.position).Pairwise (· ≤ ·) := by
  have hplaces := List.pairwise_iff_getElem.mp (pairwise_tests_of_parse h hsize)
  rw [List.pairwise_map]
  refine (pairwise_findings [] p.tests).imp_of_mem fun {f g} hf hg hprecedes => ?_
  obtain ⟨hflt, hft⟩ := List.getElem?_eq_some_iff.mp ((mem_findings_nil _ _).mp hf).1
  obtain ⟨hglt, hgt⟩ := List.getElem?_eq_some_iff.mp ((mem_findings_nil _ _).mp hg).1
  rw [← hft, ← hgt]
  rcases hprecedes with hlt | ⟨heq, -⟩
  · exact le_of_lt (hplaces _ _ hflt hglt hlt)
  · simp only [heq, le_refl]

/-- **Diagnostics follow the source.** Of a text that is read as a program that breaks rules,
either the program has no test and the only diagnostic, without a place, says so; or every
diagnostic names a test that breaks the rule it tells and stands at the word that begins this test,
and the places of diagnostics never go back, if the text has fewer than `2 ^ 32` characters. The
error names each test once, with the first test of its name that breaks a rule, in the order of these
tests. -/
theorem diagnostics_follow_source (source : String) (p : Program)
    (hparse : Program.parse source = .ok p) (hinvalid : p.validate ≠ .ok ()) :
    ∃ (ts : List Token) (ds : List Diagnostic), tokenize source = .ok ts ∧
      (∀ o : Options, compile o source = .error (.source (.invalid ds))) ∧
      ((p.tests = [] ∧ ds = [⟨"program must contain at least one test block", none, none⟩]) ∨
        ((∀ d ∈ ds, ∃ (n : Nat) (t : TestBlock) (v : Violation),
            p.tests[n]? = some t ∧ Breaks (p.tests.take n) t v ∧ t.StandsAs n ts ∧
            d = ⟨v.words t.name, some t.name, some t.position⟩) ∧
          ∃ places : List Position, ds.map Diagnostic.position = places.map some ∧
            (source.length < UInt32.size → places.Pairwise (· ≤ ·)))) ∧
      (CompileError.source (.invalid ds)).testNames.Nodup ∧
      ∃ found : List (Nat × String),
        (CompileError.source (.invalid ds)).testNames = found.map Prod.snd ∧
        found.Pairwise (fun x y => x.1 < y.1) ∧
        ∀ n name, (n, name) ∈ found ↔ p.FirstToBreak n name := by
  obtain ⟨ts, htokens⟩ := tokenize_of_parse hparse
  have hrel : ProgramRel ts p := (parse_eq_ok_iff htokens p).mp hparse
  have hcheck : Program.check source = .error (.invalid p.diagnostics) := by
    have hne : p.diagnostics ≠ [] := fun h => hinvalid (p.validate_eq_ok_iff.mpr h)
    obtain ⟨d, ds, hds⟩ := List.exists_cons_of_ne_nil hne
    simp only [Program.check, hparse, Program.validate, hds]
  refine ⟨ts, p.diagnostics, htokens, fun o => compile_of_check_error o hcheck, ?_, ?_, ?_⟩
  · by_cases htests : p.tests = []
    · refine .inl ⟨htests, ?_⟩
      rw [Program.diagnostics, htests]
      rfl
    · rw [Program.diagnostics_eq htests]
      refine .inr ⟨?_, (findings [] p.tests).map fun f => f.test.position, ?_,
        pairwise_findings_of_parse hparse⟩
      · intro d hd
        obtain ⟨f, hf, rfl⟩ := List.mem_map.mp hd
        obtain ⟨ht, hbreaks⟩ := (mem_findings_nil _ _).mp hf
        exact ⟨f.number, f.test, f.violation, ht, hbreaks, standsAs_of_programRel hrel _ _ ht, rfl⟩
      · rw [List.map_map, List.map_map]
        rfl
  · rw [testNames_diagnostics]
    exact nodup_firsts _
  · rw [testNames_diagnostics]
    exact exists_firstToBreak p

/-- A first test without fault does not put its name before that of the second one. -/
theorem diagnostics_follow_source_repeated_name :
    let source := "test a \x7b GET \"/\" \x7b \x7d assert_status(1); assert_status(2); \x7d\n" ++
      "test b \x7b \x7d test a \x7b \x7d"
    let statements : List Statement := [.request ⟨.get, "/", []⟩, .assertion (.statusEquals 1),
      .assertion (.statusEquals 2)]
    let p : Program :=
      ⟨none, [], [⟨"a", statements, ⟨1, 1⟩⟩, ⟨"b", [], ⟨2, 1⟩⟩, ⟨"a", [], ⟨2, 12⟩⟩]⟩
    Program.parse source = .ok p ∧ p.validate ≠ .ok () ∧
    ∃ found : List (Nat × String), found.map Prod.snd = ["b", "a"] ∧
      found.Pairwise (fun x y => x.1 < y.1) ∧
      ∀ n name, (n, name) ∈ found ↔ p.FirstToBreak n name := by
  intro source statements p
  have hparse : Program.parse source = .ok p := by decide +kernel
  have hdiagnostics : p.validate = .error (.invalid p.diagnostics) := rfl
  have hinvalid : p.validate ≠ .ok () := by
    rw [hdiagnostics]
    exact fun h => nomatch h
  have hcheck : Program.check source = .error (.invalid p.diagnostics) := by
    simp only [Program.check, hparse, hdiagnostics]
  obtain ⟨ts, ds, -, hcompile, -, -, found, hnames, hfound⟩ :=
    diagnostics_follow_source source p hparse hinvalid
  cases (compile_of_check_error { } hcheck).symm.trans (hcompile { })
  exact ⟨hparse, hinvalid, found, hnames.symm.trans (by decide +kernel), hfound⟩

end ApiScenario
