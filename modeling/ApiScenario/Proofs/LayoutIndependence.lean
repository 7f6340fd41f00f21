import Mathlib.Data.List.Forall2
import ApiScenario.Proofs.DiagnosticOrder
import ApiScenario.Proofs.Relocation

/-!
# Layout does not matter

Two texts with the same tokens in a row, whatever blanks and comments stand between them, compile to
the same text or fail in the same way (`layout_does_not_matter`).

Both texts are read in step. Drafts that are equal once their places are left out take tokens of one
kind to such drafts again, so the same token is refused in both or the programs that are read differ
in places alone (`sameReading_of_kinds`). What is wrong with such programs is wrong with the tests of
the same numbers, and these begin at tokens of the same number (`TestBlock.StandsAs.same_index`).
-/

namespace ApiScenario

open Grammar Lexer

/-! ## Reading in step -/

/-- All places are moved to one. -/
def nowhere (_ : Position) : Position := .start

/-- What becomes of two rows of tokens that differ in places alone: programs that differ in places
alone, or the same fault at tokens with the same number. -/
inductive SameReading (ts us : List Token) :
    Except SourceError Program → Except SourceError Program → Prop
  | program {p q : Program} : p.relocate nowhere = q.relocate nowhere →
      SameReading ts us (.ok p) (.ok q)
  | unexpected {i : Nat} {t u : Token} {expected : List String} {found : String} :
      ts[i]? = some t → us[i]? = some u →
      SameReading ts us (.error (.unexpected ⟨t.position, expected, found⟩))
        (.error (.unexpected ⟨u.position, expected, found⟩))

theorem SameReading.cons {ts us : List Token} {x y : Except SourceError Program}
    (h : SameReading ts us x y) (t u : Token) : SameReading (t :: ts) (u :: us) x y := by
  cases h with
  | program h => exact .program h
  | @unexpected i _ _ _ _ ht hu => exact .unexpected (i := i + 1) ht hu

section Steps

variable {d e : ProgramDraft} {t u : Token}

theorem expected_of_relocate (h : d.relocate nowhere = e.relocate nowhere) :
    d.expected = e.expected := by
  rw [← d.expected_relocate nowhere, h, e.expected_relocate]

/-- Drafts that differ in places alone go on in step. -/
theorem map_step_of_relocate (h : d.relocate nowhere = e.relocate nowhere)
    (hkind : t.kind = u.kind) :
    (d.step t).map (Step.map (ProgramDraft.relocate nowhere) (Program.relocate nowhere))
      = (e.step u).map (Step.map (ProgramDraft.relocate nowhere) (Program.relocate nowhere)) := by
  have htoken : t.relocate nowhere = u.relocate nowhere := congrArg (Token.mk · .start) hkind
  rw [← d.step_relocate, ← e.step_relocate, h, htoken]

end Steps

/-- **Rows of tokens that differ in places alone are read alike**, or more tokens are waited for
behind them. -/
theorem sameReading_of_kinds {ts us : List Token} (hkinds : ts.map Token.kind = us.map Token.kind)
    {d e : ProgramDraft} (h : d.relocate nowhere = e.relocate nowhere) (last last' : Position) :
    (∃ d', Run ProgramDraft.step d ts d') ∨
      SameReading ts us (Program.readFrom last d (ts.map .ok))
        (Program.readFrom last' e (us.map .ok)) := by
  induction ts generalizing us d e last last' with
  | nil => exact .inl ⟨d, .nil d⟩
  | cons t ts ih =>
    obtain ⟨u, us, rfl, hkind, hkinds⟩ := List.map_eq_cons_iff.mp hkinds.symm
    have hstep := map_step_of_relocate h hkind.symm
    rw [List.map_cons, List.map_cons, Program.readFrom, Program.readFrom]
    cases hd : d.step t with
    | none =>
      rw [hd, Option.map_none, eq_comm, Option.map_eq_none_iff] at hstep
      rw [hstep]
      have hfault : Program.unexpected e u
          = ⟨u.position, d.expected.map Expectation.text, t.kind.text⟩ := by
        rw [Program.unexpected, expected_of_relocate h, hkind]
      rw [hfault]
      exact .inr (.unexpected (i := 0) rfl rfl)
    | some s =>
      rw [hd, Option.map_some, eq_comm, Option.map_eq_some_iff] at hstep
      obtain ⟨s', he, hs⟩ := hstep
      rw [he]
      cases s with
      | done p =>
        cases s' with
        | done q => exact .inr (.program (Step.done.inj hs).symm)
        | more e' => cases hs
      | more d' =>
        cases s' with
        | done q => cases hs
        | more e' =>
          rcases ih hkinds.symm (Step.more.inj hs).symm t.position u.position with ⟨d'', hrun⟩ | hsame
          · exact .inl ⟨d'', .cons hd hrun⟩
          · exact .inr (hsame.cons t u)

/-- Two texts with tokens of the same kinds are read alike. -/
theorem sameReading_of_tokenize {s₁ s₂ : String} {ts₁ ts₂ : List Token}
    (h₁ : tokenize s₁ = .ok ts₁) (h₂ : tokenize s₂ = .ok ts₂)
    (hkinds : ts₁.map Token.kind = ts₂.map Token.kind) :
    SameReading ts₁ ts₂ (Program.parse s₁) (Program.parse s₂) := by
  have hlex₁ := (tokenize_shape h₁).1
  rw [Program.parse, Program.parse, hlex₁, (tokenize_shape h₂).1]
  rcases sameReading_of_kinds hkinds rfl .start .start with ⟨d, hrun⟩ | hsame
  · exact absurd hlex₁ (lex_ne_run s₁ hrun)
  · exact hsame

/-! ## What is wrong with two programs -/

/-- A finding of a moved program. -/
def Finding.relocate (f : Position → Position) (x : Finding) : Finding :=
  { x with test := x.test.relocate f }

theorem findings_relocate (f : Position → Position) (before ts : List TestBlock) :
    findings (before.map (.relocate f)) (ts.map (.relocate f))
      = (findings before ts).map (.relocate f) := by
  induction ts generalizing before with
  | nil => rfl
  | cons t ts ih =>
    have hnames : (before.map (TestBlock.relocate f)).map TestBlock.name
        = before.map TestBlock.name := by
      rw [List.map_map]
      rfl
    have hlater := ih (before ++ [t])
    rw [List.map_append, List.map_singleton] at hlater
    rw [List.map_cons, findings, findings, hnames, List.length_map, hlater, List.map_append,
      List.map_map]
    rfl

/-- Findings of programs that differ in places alone differ in places alone. -/
theorem forall₂_findings {p q : Program} (h : p.relocate nowhere = q.relocate nowhere) :
    List.Forall₂ (fun f g => Finding.relocate nowhere f = Finding.relocate nowhere g)
      (findings [] p.tests) (findings [] q.tests) := by
  have htests : p.tests.map (TestBlock.relocate nowhere) = q.tests.map (.relocate nowhere) :=
    congrArg Program.tests h
  have hfindings : (findings [] p.tests).map (Finding.relocate nowhere)
      = (findings [] q.tests).map (.relocate nowhere) := by
    rw [← findings_relocate nowhere [], ← findings_relocate nowhere [], htests]
  rwa [← List.forall₂_eq_eq_eq, List.forall₂_map_left_iff, List.forall₂_map_right_iff] at hfindings

/-- Where as many things of a kind come before two things of this kind, these stand in one place. -/
theorem length_eq_of_countP {α : Type} {q : α → Bool} {xs xs' ys ys' : List α} {x x' : α}
    (h : xs ++ x :: ys = xs' ++ x' :: ys') (hx : q x = true) (hx' : q x' = true)
    (hcount : xs.countP q = xs'.countP q) : xs.length = xs'.length := by
  rcases List.append_eq_append_iff.mp h with ⟨more, rfl, hmore⟩ | ⟨more, rfl, hmore⟩
  · cases more with
    | nil => simp
    | cons y more =>
      obtain ⟨rfl, -⟩ := List.cons_eq_cons.mp hmore
      rw [List.countP_append, List.countP_cons_of_pos hx] at hcount
      omega
  · cases more with
    | nil => simp
    | cons y more =>
      obtain ⟨rfl, -⟩ := List.cons_eq_cons.mp hmore
      rw [List.countP_append, List.countP_cons_of_pos hx'] at hcount
      omega

/-- Tests with one number stand at tokens with one number, if the kinds of tokens are the same. -/
theorem TestBlock.StandsAs.same_index {t u : TestBlock} {n : Nat} {ts us : List Token}
    (ht : t.StandsAs n ts) (hu : u.StandsAs n us)
    (hkinds : ts.map Token.kind = us.map Token.kind) :
    ∃ (i : Nat) (x y : Token), ts[i]? = some ⟨.keyword .test, t.position⟩ ∧ ts[i + 1]? = some x ∧
      x.kind = .ident t.name ∧ us[i]? = some ⟨.keyword .test, u.position⟩ ∧ us[i + 1]? = some y ∧
      y.kind = .ident u.name := by
  obtain ⟨before, x, after, rfl, hcount, hx⟩ := ht
  obtain ⟨before', y, after', rfl, hcount', hy⟩ := hu
  have hlength : before.length = before'.length := by
    rw [List.map_append, List.map_append, List.map_cons, List.map_cons] at hkinds
    have hsame := length_eq_of_countP (q := (· = .keyword .test)) hkinds (by simp) (by simp) ?_
    · simpa using hsame
    · rw [List.countP_map, List.countP_map]
      exact hcount.trans hcount'.symm
  refine ⟨before.length, x, y, by simp, by simp, hx, ?_, ?_, hy⟩
  · simp [hlength]
  · simp [hlength]

/-! ## Two layouts -/

/-- Two diagnostics of texts with the same tokens that differ in nothing but their places. Where one
is about a test, both stand where their text has the keyword that begins the test. -/
structure SameDiagnostic (ts₁ ts₂ : List Token) (d₁ d₂ : Diagnostic) : Prop where
  message : d₁.message = d₂.message
  test : d₁.test = d₂.test
  places : (d₁.test = none ∧ d₁.position = none ∧ d₂.position = none) ∨
    ∃ (i : Nat) (name : String) (t₁ t₂ u₁ u₂ : Token), d₁.test = some name ∧
      ts₁[i]? = some t₁ ∧ t₁.kind = .keyword .test ∧ d₁.position = some t₁.position ∧
      ts₁[i + 1]? = some u₁ ∧ u₁.kind = .ident name ∧
      ts₂[i]? = some t₂ ∧ t₂.kind = .keyword .test ∧ d₂.position = some t₂.position ∧
      ts₂[i + 1]? = some u₂ ∧ u₂.kind = .ident name

/-- **Programs that differ in places alone have diagnostics that differ in places alone**, and stand
where their texts have the same tokens. -/
theorem forall₂_sameDiagnostic {ts₁ ts₂ : List Token}
    (hkinds : ts₁.map Token.kind = ts₂.map Token.kind) {p q : Program} (hp : ProgramRel ts₁ p)
    (hq : ProgramRel ts₂ q) (h : p.relocate nowhere = q.relocate nowhere) :
    List.Forall₂ (SameDiagnostic ts₁ ts₂) p.diagnostics q.diagnostics := by
  have htests : p.tests.map (TestBlock.relocate nowhere) = q.tests.map (.relocate nowhere) :=
    congrArg Program.tests h
  by_cases hnone : p.tests = []
  · have hnone' : q.tests = [] := by simpa [hnone] using htests.symm
    rw [Program.diagnostics, Program.diagnostics, hnone, hnone']
    exact .cons ⟨rfl, rfl, .inl ⟨rfl, rfl, rfl⟩⟩ .nil
  · have hsome : q.tests ≠ [] := fun hnone' => hnone (by simpa [hnone'] using htests)
    rw [Program.diagnostics_eq hnone, Program.diagnostics_eq hsome, List.forall₂_map_left_iff,
      List.forall₂_map_right_iff]
    have hpairs := List.forall₂_iff_zip.mp (forall₂_findings h)
    refine List.forall₂_iff_zip.mpr ⟨hpairs.1, fun {f g} hmem => ?_⟩
    obtain ⟨hf, hg⟩ := List.of_mem_zip hmem
    have hfg := hpairs.2 hmem
    have hnumber : f.number = g.number := (congrArg Finding.number hfg :)
    have hname : f.test.name = g.test.name := (congrArg (·.test.name) hfg :)
    have hviolation : f.violation = g.violation := (congrArg Finding.violation hfg :)
    have hstands := standsAs_of_programRel hp _ _ ((mem_findings_nil _ _).mp hf).1
    have hstands' := standsAs_of_programRel hq _ _ ((mem_findings_nil _ _).mp hg).1
    rw [← hnumber] at hstands'
    obtain ⟨i, x, y, hi, hx, hxname, hi', hy, hyname⟩ := hstands.same_index hstands' hkinds
    refine ⟨?_, congrArg some hname, .inr ⟨i, f.test.name, _, _, x, y, rfl, hi, rfl, rfl, hx, hxname,
      hi', rfl, rfl, hy, hname ▸ hyname⟩⟩
    rw [Finding.diagnostic, Finding.diagnostic, hviolation, hname]

/-- **Layout does not matter to compilation.** -/
theorem layout_does_not_matter (s₁ s₂ : String) (ts₁ ts₂ : List Token)
    (h₁ : tokenize s₁ = .ok ts₁) (h₂ : tokenize s₂ = .ok ts₂)
    (hkinds : ts₁.map Token.kind = ts₂.map Token.kind) (o : Options) :
    (∃ text, compile o s₁ = .ok text ∧ compile o s₂ = .ok text) ∨
    (∃ (i : Nat) (t₁ t₂ : Token) (expected : List String) (found : String),
      ts₁[i]? = some t₁ ∧ ts₂[i]? = some t₂ ∧
      compile o s₁ = .error (.source (.unexpected ⟨t₁.position, expected, found⟩)) ∧
      compile o s₂ = .error (.source (.unexpected ⟨t₂.position, expected, found⟩))) ∨
    (∃ ds₁ ds₂ : List Diagnostic,
      compile o s₁ = .error (.source (.invalid ds₁)) ∧
      compile o s₂ = .error (.source (.invalid ds₂)) ∧
      List.Forall₂ (SameDiagnostic ts₁ ts₂) ds₁ ds₂) := by
  have hread := sameReading_of_tokenize h₁ h₂ hkinds
  generalize hparse₁ : Program.parse s₁ = read₁ at hread
  generalize hparse₂ : Program.parse s₂ = read₂ at hread
  rw [compile_eq, compile_eq, hparse₁, hparse₂]
  cases hread with
  | @unexpected i t₁ t₂ expected found ht₁ ht₂ =>
    exact .inr (.inl ⟨i, t₁, t₂, expected, found, ht₁, ht₂, rfl, rfl⟩)
  | @program p q hsame =>
    have hdiagnostics := forall₂_sameDiagnostic hkinds ((parse_eq_ok_iff h₁ p).mp hparse₁)
      ((parse_eq_ok_iff h₂ q).mp hparse₂) hsame
    dsimp only
    cases hds₁ : p.diagnostics with
    | nil =>
      -- Code is made of the plan, which holds no places.
      rw [hds₁, List.forall₂_nil_left_iff] at hdiagnostics
      obtain ⟨plan, hplan⟩ := lower_of_validate (p := p) (by rw [Program.validate, hds₁])
      have hgenerate : p.generate o = .ok (codeText (o.file plan)) := by
        rw [Program.generate, hplan]
      have hgenerate' : q.generate o = p.generate o := by
        rw [← q.generate_relocate nowhere, ← hsame, p.generate_relocate]
      refine .inl ⟨_, hgenerate, ?_⟩
      rw [hdiagnostics]
      exact hgenerate'.trans hgenerate
    | cons d ds =>
      rw [hds₁] at hdiagnostics
      obtain ⟨e, es, hsame, hrest, hds₂⟩ := List.forall₂_cons_left_iff.mp hdiagnostics
      rw [hds₂]
      exact .inr (.inr ⟨_, _, rfl, rfl, .cons hsame hrest⟩)

/-- A comment and a line break before a test move what is wrong with it, and do nothing else. -/
theorem layout_does_not_matter_comment :
    ∃ ts₁ ts₂, tokenize "test a \x7b \x7d" = .ok ts₁ ∧ tokenize "// a\n test a\x7b\x7d" = .ok ts₂ ∧
      ts₁.map Token.kind = ts₂.map Token.kind ∧
      ∀ o : Options, ∃ ds₁ ds₂ : List Diagnostic,
        compile o "test a \x7b \x7d" = .error (.source (.invalid ds₁)) ∧
        compile o "// a\n test a\x7b\x7d" = .error (.source (.invalid ds₂)) ∧
        List.Forall₂ (SameDiagnostic ts₁ ts₂) ds₁ ds₂ := by
  have htokens₁ : tokenize "test a \x7b \x7d" = .ok
      [⟨.keyword .test, ⟨1, 1⟩⟩, ⟨.ident "a", ⟨1, 6⟩⟩, ⟨.punct .openBrace, ⟨1, 8⟩⟩,
        ⟨.punct .closeBrace, ⟨1, 10⟩⟩, ⟨.eof, ⟨1, 11⟩⟩] := by
    decide +kernel
  have htokens₂ : tokenize "// a\n test a\x7b\x7d" = .ok
      [⟨.keyword .test, ⟨2, 2⟩⟩, ⟨.ident "a", ⟨2, 7⟩⟩, ⟨.punct .openBrace, ⟨2, 8⟩⟩,
        ⟨.punct .closeBrace, ⟨2, 9⟩⟩, ⟨.eof, ⟨2, 10⟩⟩] := by
    decide +kernel
  have hcheck : Program.check "test a \x7b \x7d" = .error (.invalid
      [⟨"must contain at least one request", some "a", some ⟨1, 1⟩⟩,
        ⟨"must contain at least 2 assertions (found 0)", some "a", some ⟨1, 1⟩⟩]) := by
    decide +kernel
  refine ⟨_, _, htokens₁, htokens₂, rfl, fun o => ?_⟩
  have hcompile := compile_of_check_error o hcheck
  rcases layout_does_not_matter _ _ _ _ htokens₁ htokens₂ rfl o with
    ⟨text, h, -⟩ | ⟨i, t₁, t₂, expected, found, -, -, h, -⟩ | h
  · rw [hcompile] at h
    cases h
  · rw [hcompile] at h
    cases h
  · exact h

end ApiScenario
