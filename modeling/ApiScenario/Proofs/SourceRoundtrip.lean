import ApiScenario.Proofs.ParserGrammar
import ApiScenario.Proofs.Relocation
import ApiScenario.Proofs.SpelledTokens

/-!
# Canonical source is read again

A program that is written as its canonical source is read as itself, up to where its tests stand, and
compiles to what is generated for it (`source_roundtrip`). Nothing behind the parser looks at places
except to report them: the same is wrong with a program without them, and the same is generated for
it (`diagnostics_unplaced`, `generate_eq_of_unplaced`).
-/

namespace ApiScenario

open Grammar

/-! ## The tokens of a program can be spelled -/

/-- Variables and tests have names that a source can give them. -/
structure Program.WellNamed (p : Program) : Prop where
  variableNames : ∀ v ∈ p.declarations, IsName v.name
  testNames : ∀ t ∈ p.tests, IsName t.name

/-- All of some tokens can be spelled. -/
def AllSpelled (ks : List TokenKind) : Prop := ∀ k ∈ ks, k.IsSpelled

theorem AllSpelled.append {ks ls : List TokenKind} (h : AllSpelled ks) (h' : AllSpelled ls) :
    AllSpelled (ks ++ ls) :=
  fun k hk => (List.mem_append.mp hk).elim (h k) (h' k)

theorem AllSpelled.cons {k : TokenKind} {ks : List TokenKind} (h : k.IsSpelled)
    (h' : AllSpelled ks) : AllSpelled (k :: ks) :=
  List.forall_mem_cons.mpr ⟨h, h'⟩

theorem AllSpelled.flatMap {α : Type} {f : α → List TokenKind} {xs : List α}
    (h : ∀ x ∈ xs, AllSpelled (f x)) : AllSpelled (xs.flatMap f) := by
  intro k hk
  obtain ⟨x, hx, hk⟩ := List.mem_flatMap.mp hk
  exact h x hx k hk

theorem AllSpelled.braced {ks : List TokenKind} (h : AllSpelled ks) :
    AllSpelled (TokenKind.braced ks) :=
  .cons trivial (h.append (.cons trivial (by simp [AllSpelled])))

theorem allSpelled_header (h : Header) : AllSpelled h.kinds := by
  simp [AllSpelled, Header.kinds, TokenKind.IsSpelled]

theorem allSpelled_configItem (item : ConfigItem) : AllSpelled item.kinds := by
  cases item with
  | baseUrl url => simp [AllSpelled, ConfigItem.kinds, TokenKind.IsSpelled]
  | header h => exact allSpelled_header h

theorem allSpelled_config (config : Option (List ConfigItem)) :
    AllSpelled (Program.configKinds config) := by
  cases config with
  | none => simp [AllSpelled, Program.configKinds]
  | some items =>
    have hitems : AllSpelled (items.flatMap ConfigItem.kinds) :=
      .flatMap fun item _ => allSpelled_configItem item
    exact .cons trivial hitems.braced

theorem allSpelled_variable {v : Variable} (h : IsName v.name) : AllSpelled v.kinds := by
  obtain ⟨name, value⟩ := v
  cases value <;> simp [AllSpelled, Variable.kinds, Value.kind, TokenKind.IsSpelled, h]

theorem allSpelled_requestItem (item : RequestItem) : AllSpelled item.kinds := by
  cases item with
  | header h => exact allSpelled_header h
  | body text => simp [AllSpelled, RequestItem.kinds, TokenKind.IsSpelled]

theorem allSpelled_statement (s : Statement) : AllSpelled s.kinds := by
  cases s with
  | request r =>
    have hitems : AllSpelled (r.items.flatMap RequestItem.kinds) :=
      .flatMap fun item _ => allSpelled_requestItem item
    exact .cons trivial (.cons trivial hitems.braced)
  | assertion a => cases a <;> simp [AllSpelled, Statement.kinds, Assertion.kinds,
      Assertion.arguments, TokenKind.IsSpelled]

theorem allSpelled_test {t : TestBlock} (h : IsName t.name) : AllSpelled t.kinds := by
  have hstatements : AllSpelled (t.statements.flatMap Statement.kinds) :=
    .flatMap fun s _ => allSpelled_statement s
  exact .cons trivial (.cons h hstatements.braced)

theorem allSpelled_program {p : Program} (h : p.WellNamed) : AllSpelled p.kinds :=
  ((allSpelled_config p.config).append
    (.flatMap fun v hv => allSpelled_variable (h.variableNames v hv))).append
    (.flatMap fun t ht => allSpelled_test (h.testNames t ht))

/-! ## The tokens of a canonical source -/

/-- Tokens with one space behind each but the last. -/
def withSpaces : List TokenKind → List (TokenKind × List Char)
  | [] => []
  | [k] => [(k, [])]
  | k :: ks => (k, [' ']) :: withSpaces ks

theorem wellSpaced_withSpaces {ks : List TokenKind} (h : AllSpelled ks) :
    ∀ {gap : List Char}, Gap gap → WellSpaced gap (withSpaces ks) := by
  fun_induction withSpaces ks with
  | case1 => exact fun hgap => .last (.closed hgap)
  | case2 k =>
    intro gap hgap
    exact .token hgap (h k (by simp)) (by simp) (.last (.closed .nil))
  | case3 k ks _ ih =>
    intro gap hgap
    have hspace : Gap [' '] := (GapUnit.blank (by simp)).gap
    exact .token hgap (h k (by simp)) (fun _ _ _ _ _ => by simp)
      (ih (fun l hl => h l (by simp [hl])) hspace)

theorem map_fst_withSpaces (ks : List TokenKind) : (withSpaces ks).map Prod.fst = ks := by
  fun_induction withSpaces ks with
  | case1 => rfl
  | case2 k => rfl
  | case3 k ks _ ih => rw [List.map_cons, ih]

/-- One space between two tokens is one space behind each but the last. -/
theorem laidOut_withSpaces (ks : List TokenKind) (gap : List Char) :
    laidOut gap (withSpaces ks) = gap ++ [' '].intercalate (ks.map TokenKind.spelling) := by
  fun_induction withSpaces ks generalizing gap with
  | case1 => simp [laidOut]
  | case2 k => simp [laidOut]
  | case3 k ks hne ih =>
    obtain ⟨l, ls, rfl⟩ := List.exists_cons_of_ne_nil hne
    rw [laidOut, ih]
    simp [List.intercalate]

/-- **A canonical source has the tokens of its program.** -/
theorem tokenize_source {p : Program} (h : p.WellNamed) :
    ∃ ts, tokenize p.source = .ok ts ∧ ts.map Token.kind = p.kinds ++ [.eof] := by
  obtain ⟨ps, tail, htext, hrow, htail, hkinds⟩ :=
    row_laidOut (wellSpaced_withSpaces (allSpelled_program h) .nil)
  obtain ⟨ts, htokens, hts⟩ := tokenize_row hrow htail
  refine ⟨ts, ?_, ?_⟩
  · rw [laidOut_withSpaces, List.nil_append] at htext
    rw [Program.source, htext, htokens]
  · rw [hts, hkinds, map_fst_withSpaces]

/-! ## Programs without places -/

/-- A test as if it stood at the beginning of the text. -/
def TestBlock.unplaced (t : TestBlock) : TestBlock := { t with position := .start }

/-- A program as if all of its tests stood at the beginning of the text. Two programs with the same
form differ at most in where their tests stand. -/
def Program.unplaced (p : Program) : Program := { p with tests := p.tests.map TestBlock.unplaced }

/-- A diagnostic as if it were about the beginning of the text, if it is about a place at all. -/
def Diagnostic.unplaced (d : Diagnostic) : Diagnostic :=
  { d with position := d.position.map fun _ => .start }

/-! ### Reading -/

/-- Tokens of tests derive the tests, wherever they stand. -/
theorem exists_manyTestRel : ∀ (tests : List TestBlock) {ts : List Token},
    ts.map Token.kind = tests.flatMap TestBlock.kinds →
    ∃ placed, ManyRel TestRel ts placed ∧
      placed.map TestBlock.unplaced = tests.map TestBlock.unplaced
  | [], ts, h => by
    rw [List.map_eq_nil_iff.mp h]
    exact ⟨[], .nil, rfl⟩
  | b :: tests, ts, h => by
    rw [List.flatMap_cons] at h
    obtain ⟨us, rest, rfl, hus, hrest⟩ := List.map_eq_append_iff.mp h
    obtain ⟨placed, hrel, hplaced⟩ := exists_manyTestRel tests hrest
    -- A test stands where its first token stands.
    obtain ⟨u, us, rfl⟩ := List.exists_cons_of_ne_nil (l := us) (by rintro rfl; cases hus)
    have htest : TestRel (u :: us) { b with position := u.position } :=
      (testRel_iff _ _).mpr ⟨hus, testPlaces_test hus⟩
    refine ⟨_ :: placed, .cons htest hrel, ?_⟩
    rw [List.map_cons, List.map_cons, hplaced]
    rfl

/-- The tokens of a program derive the program, wherever its tests stand. -/
theorem exists_programRel {p : Program} {ts : List Token}
    (h : ts.map Token.kind = p.kinds ++ [.eof]) :
    ∃ p', ProgramRel ts p' ∧ p'.unplaced = p.unplaced := by
  obtain ⟨config, declarations, tests⟩ := p
  obtain ⟨body, last, rfl, hbody, hlast⟩ := List.map_eq_append_iff.mp h
  obtain ⟨front, us, rfl, hfront, hus⟩ := List.map_eq_append_iff.mp hbody
  obtain ⟨cs, vs, rfl, hcs, hvs⟩ := List.map_eq_append_iff.mp hfront
  obtain ⟨⟨kind, place⟩, rfl, hkind⟩ := List.map_eq_singleton_iff.mp hlast
  obtain rfl : kind = .eof := hkind
  obtain ⟨placed, hrel, hplaced⟩ := exists_manyTestRel tests hus
  refine ⟨⟨config, declarations, placed⟩, ?_, ?_⟩
  · exact .program place ((optionalConfigRel_iff _ _).mpr hcs)
      ((manyRel_iff variableRel_iff _ _).mpr hvs) hrel
  · simp only [Program.unplaced, hplaced]

/-! ### Rules and plans -/

theorem Program.unplaced_eq (p : Program) : p.unplaced = p.relocate fun _ => .start := rfl

/-- **The diagnostics of a program without places are its diagnostics without places.** -/
theorem diagnostics_unplaced (p : Program) :
    p.unplaced.diagnostics = p.diagnostics.map Diagnostic.unplaced :=
  p.diagnostics_relocate fun _ => .start

theorem generate_eq_of_unplaced {p q : Program} (h : p.unplaced = q.unplaced) (o : Options) :
    p.generate o = q.generate o := by
  rw [← p.generate_relocate (fun _ => .start) o, ← p.unplaced_eq, h, q.unplaced_eq,
    q.generate_relocate]

theorem validate_of_unplaced {p q : Program} (h : p.unplaced = q.unplaced)
    (hp : p.validate = .ok ()) : q.validate = .ok () := by
  have hnone : p.diagnostics = [] := diagnostics_of_validate hp
  have heq : q.diagnostics.map Diagnostic.unplaced = p.diagnostics.map Diagnostic.unplaced := by
    rw [← diagnostics_unplaced, ← diagnostics_unplaced, h]
  rw [hnone, List.map_nil, List.map_eq_nil_iff] at heq
  rw [Program.validate, heq]

/-! ## The round trip -/

/-- **A program is read from its canonical source as it is**, up to the places of its tests; the same is
wrong with it; and if nothing is, its canonical source compiles to what is generated for it. -/
theorem source_roundtrip (p : Program) (h : p.WellNamed) :
    ∃ p', Program.parse p.source = .ok p' ∧ p'.unplaced = p.unplaced ∧
      p'.diagnostics.map Diagnostic.unplaced = p.diagnostics.map Diagnostic.unplaced ∧
      (p.validate = .ok () → ∀ o : Options, compile o p.source = p.generate o) := by
  obtain ⟨ts, htokens, hkinds⟩ := tokenize_source h
  obtain ⟨p', hrel, hsame⟩ := exists_programRel hkinds
  have hparse : Program.parse p.source = .ok p' := (parse_eq_ok_iff htokens p').mpr hrel
  refine ⟨p', hparse, hsame, ?_, ?_⟩
  · rw [← diagnostics_unplaced, ← diagnostics_unplaced, hsame]
  · intro hvalid o
    have hvalid' := validate_of_unplaced hsame.symm hvalid
    rw [← generate_eq_of_unplaced hsame o]
    simp only [compile, Program.check, hparse, hvalid']

/-- Quotes, comment marks, braces and the least integer do not disturb the round trip. -/
theorem source_roundtrip_hostile :
    let p : Program := ⟨some [.baseUrl "\"//\n", .header ⟨"\t", "*/"⟩],
      [⟨"n", .int (-9223372036854775808)⟩, ⟨"n", .str "$n"⟩],
      [⟨"tests", [.request ⟨.post, "/$n", [.body "/*\\", .header ⟨"", ""⟩]⟩,
        .assertion (.statusRange 200 (-1)), .assertion (.bodyContains "\x7d")], ⟨7, 7⟩⟩]⟩
    p.WellNamed ∧ p.validate = .ok () ∧
      (∃ p', Program.parse p.source = .ok p' ∧ p'.unplaced = p.unplaced) ∧
      ∀ o : Options, compile o p.source = p.generate o := by
  intro p
  have hnames : p.WellNamed := by
    have hvariable : IsName "n" := isName_of_ofWord? (by decide +kernel) (by decide +kernel)
    have htest : IsName "tests" := isName_of_ofWord? (by decide +kernel) (by decide +kernel)
    constructor
    · simp [p, hvariable]
    · simp [p, htest]
  have hvalid : p.validate = .ok () := rfl
  obtain ⟨p', hparse, hsame, -, hcompile⟩ := source_roundtrip p hnames
  exact ⟨hnames, hvalid, ⟨p', hparse, hsame⟩, hcompile hvalid⟩

end ApiScenario
