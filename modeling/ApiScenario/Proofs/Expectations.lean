import Mathlib.Data.List.Nodup
import ApiScenario.Proofs.ParserGrammar

/-!
# Syntax errors are exact

The tokens in front of a refused token begin a program, and the error lists just what could have
come instead (`syntax_error_exact`). Three facts about drafts carry this. A draft takes a token if
and only if it expects its kind (`step_isSome_iff`). Every draft can be completed (`completes`), so
whatever a draft has taken begins a program. Drafts have no choice, so a program that begins with
the tokens behind a draft is read on from this draft (`Run.rest`).
-/

namespace ApiScenario

open Grammar Lexer

/-! ## Rows of tokens behind a draft -/

section Rows

variable {δ ε κ τ α β : Type} {step : δ → κ → Option (Step δ α)}

/-- The first token of a row ends it or leads to the draft that reads the others. -/
theorem reads_cons_iff {d : δ} {k : κ} {ks : List κ} {x : α} :
    Reads step d (k :: ks) x ↔ (step d k = some (.done x) ∧ ks = []) ∨
      ∃ d', step d k = some (.more d') ∧ Reads step d' ks x := by
  constructor
  · intro h
    generalize hrow : k :: ks = row at h
    cases h with
    | done hs => cases hrow; exact .inl ⟨hs, rfl⟩
    | more hs hr => cases hrow; exact .inr ⟨_, hs, hr⟩
  · rintro (⟨hs, rfl⟩ | ⟨d', hs, hr⟩)
    · exact .done hs
    · exact .more hs hr

theorem Reads.head {d : δ} {ks : List κ} {x : α} (h : Reads step d ks x) :
    ∃ k rest, ks = k :: rest ∧ (step d k).isSome = true := by
  cases h with
  | done hs => exact ⟨_, _, rfl, by rw [hs]; rfl⟩
  | more hs _ => exact ⟨_, _, rfl, by rw [hs]; rfl⟩

/-- What is read through a draft is read on from it. -/
theorem Run.rest {d e : δ} {ks ls : List κ} {x : α} (h : Run step d ks e)
    (hr : Reads step d (ks ++ ls) x) : Reads step e ls x := by
  induction h with
  | nil => exact hr
  | cons hs _ ih =>
    rcases reads_cons_iff.mp hr with ⟨hdone, -⟩ | ⟨d', hmore, hr⟩
    · rw [hs] at hdone
      cases hdone
    · rw [hs] at hmore
      cases hmore
      exact ih hr

/-- A row in two halves leads through the draft between them. -/
theorem Run.between {d e : δ} {ks ls : List κ} (h : Run step d (ks ++ ls) e) :
    ∃ m, Run step d ks m ∧ Run step m ls e := by
  induction ks generalizing d with
  | nil => exact ⟨d, .nil d, h⟩
  | cons k ks ih =>
    cases h with
    | cons hs h =>
      obtain ⟨m, hm, hl⟩ := ih h
      exact ⟨m, .cons hs hm, hl⟩

/-- Some row of tokens finishes a draft. -/
def Completes (step : δ → κ → Option (Step δ α)) (d : δ) : Prop := ∃ ks x, Reads step d ks x

/-- A draft is completed by completing the part it waits for and then what is behind the part. -/
theorem Completes.within {outer : ε → τ → Option (Step ε β)} (kind : τ → κ) (token : κ → τ)
    (hkind : ∀ k, kind (token k) = k) (more : δ → ε) (done : α → ε)
    (h : ∀ d t, outer (more d) t = (step d (kind t)).map (.within more done)) {d : δ}
    (hpart : Completes step d) (hrest : ∀ x, Completes outer (done x)) :
    Completes outer (more d) := by
  obtain ⟨ks, x, hr⟩ := hpart
  obtain ⟨ts, y, hy⟩ := hrest x
  have hks : (ks.map token).map kind = ks := by simp [Function.comp_def, hkind]
  exact ⟨_, y, (hr.within kind more done h _ hks).reads hy⟩

end Rows

/-! ## Expectations -/

namespace Expectation

/-- All kinds of tokens. -/
def all : List Expectation :=
  Keyword.all.map keyword ++ Punct.all.map punct ++ [string, integer, identifier, endOfInput]

theorem mem_all (c : Expectation) : c ∈ all := by
  cases c with
  | keyword k => cases k <;> decide
  | punct p => cases p <;> decide
  | string | integer | identifier | endOfInput => decide

theorem nodup_texts : (all.map text).Nodup := by decide +kernel

/-- Messages tell all kinds of tokens apart. -/
theorem text_inj {c c' : Expectation} : c.text = c'.text ↔ c = c' :=
  ⟨List.inj_on_of_nodup_map nodup_texts (mem_all c) (mem_all c'), congrArg text⟩

theorem text_mem_map_iff {c : Expectation} {cs : List Expectation} :
    c.text ∈ cs.map text ↔ c ∈ cs := by
  rw [List.mem_map]
  constructor
  · rintro ⟨c', hmem, htext⟩
    rwa [← text_inj.mp htext]
  · exact fun hmem => ⟨c, hmem, rfl⟩

/-- There are tokens of every kind. -/
theorem exists_ofKind (c : Expectation) : ∃ k, ofKind k = c := by
  cases c with
  | keyword k => exact ⟨.keyword k, rfl⟩
  | punct p => exact ⟨.punct p, rfl⟩
  | string => exact ⟨.str "", rfl⟩
  | integer => exact ⟨.int 0, rfl⟩
  | identifier => exact ⟨.ident "x", rfl⟩
  | endOfInput => exact ⟨.eof, rfl⟩

end Expectation

/-! ## What drafts take -/

namespace HeaderDraft

theorem step_isSome_iff (d : HeaderDraft) (k : TokenKind) :
    (d.step k).isSome = true ↔ Expectation.ofKind k ∈ d.expected := by
  cases d <;> cases k with
  | punct p => cases p <;> simp [step, expected, Expectation.ofKind]
  | _ => simp [step, expected, Expectation.ofKind]

theorem completes (d : HeaderDraft) : Completes step d := by
  cases d with
  | key => exact ⟨[.str "", .str "", .punct .semicolon], _, .more rfl (.more rfl (.done rfl))⟩
  | value k => exact ⟨[.str "", .punct .semicolon], _, .more rfl (.done rfl)⟩
  | ending h => exact ⟨[.punct .semicolon], _, .done rfl⟩

theorem nodup_expected (d : HeaderDraft) : d.expected.Nodup := by
  cases d <;> simp [expected]

theorem endOfInput_notMem (d : HeaderDraft) : .endOfInput ∉ d.expected := by
  cases d <;> simp [expected]

end HeaderDraft

namespace ConfigDraft

theorem step_isSome_iff (d : ConfigDraft) (k : TokenKind) :
    (d.step k).isSome = true ↔ Expectation.ofKind k ∈ d.expected := by
  cases d with
  | header is h => rw [step, Option.isSome_map, HeaderDraft.step_isSome_iff, expected]
  | opening | items | baseUrl | baseUrlEnding =>
    cases k with
    | keyword k => cases k <;> simp [step, expected, Expectation.ofKind]
    | punct p => cases p <;> simp [step, expected, Expectation.ofKind]
    | _ => simp [step, expected, Expectation.ofKind]

theorem completes (d : ConfigDraft) : Completes step d := by
  have hitems (is : List ConfigItem) : Reads step (items is) [.punct .closeBrace] is := .done rfl
  cases d with
  | opening => exact ⟨[.punct .openBrace, .punct .closeBrace], _, .more rfl (hitems [])⟩
  | items is => exact ⟨_, is, hitems is⟩
  | baseUrl is =>
    exact ⟨[.str "", .punct .semicolon, .punct .closeBrace], _,
      .more rfl (.more rfl (hitems (is ++ [.baseUrl ""])))⟩
  | baseUrlEnding is url =>
    exact ⟨[.punct .semicolon, .punct .closeBrace], _, .more rfl (hitems (is ++ [.baseUrl url]))⟩
  | header is h =>
    exact h.completes.within id id (fun _ => rfl) (header is) _ (fun _ _ => rfl)
      fun x => ⟨_, _, hitems (is ++ [.header x])⟩

theorem nodup_expected (d : ConfigDraft) : d.expected.Nodup := by
  cases d with
  | header is h => exact h.nodup_expected
  | opening | items | baseUrl | baseUrlEnding => simp [expected]

theorem endOfInput_notMem (d : ConfigDraft) : .endOfInput ∉ d.expected := by
  cases d with
  | header is h => exact h.endOfInput_notMem
  | opening | items | baseUrl | baseUrlEnding => simp [expected]

end ConfigDraft

namespace VariableDraft

theorem step_isSome_iff (d : VariableDraft) (k : TokenKind) :
    (d.step k).isSome = true ↔ Expectation.ofKind k ∈ d.expected := by
  cases d <;> cases k with
  | punct p => cases p <;> simp [step, expected, Expectation.ofKind]
  | _ => simp [step, expected, Expectation.ofKind]

theorem completes (d : VariableDraft) : Completes step d := by
  have hending (v : Variable) : Reads step (ending v) [.punct .semicolon] v := .done rfl
  cases d with
  | name =>
    exact ⟨[.ident "x", .punct .equals, .str "", .punct .semicolon], _,
      .more rfl (.more rfl (.more rfl (hending _)))⟩
  | equals n =>
    exact ⟨[.punct .equals, .str "", .punct .semicolon], _, .more rfl (.more rfl (hending _))⟩
  | value n => exact ⟨[.str "", .punct .semicolon], _, .more rfl (hending _)⟩
  | ending v => exact ⟨_, v, hending v⟩

theorem nodup_expected (d : VariableDraft) : d.expected.Nodup := by
  cases d <;> simp [expected]

theorem endOfInput_notMem (d : VariableDraft) : .endOfInput ∉ d.expected := by
  cases d <;> simp [expected]

end VariableDraft

namespace RequestDraft

theorem step_isSome_iff (d : RequestDraft) (k : TokenKind) :
    (d.step k).isSome = true ↔ Expectation.ofKind k ∈ d.expected := by
  cases d with
  | header r h => rw [step, Option.isSome_map, HeaderDraft.step_isSome_iff, expected]
  | path | opening | items | body | bodyEnding =>
    cases k with
    | keyword k => cases k <;> simp [step, expected, Expectation.ofKind]
    | punct p => cases p <;> simp [step, expected, Expectation.ofKind]
    | _ => simp [step, expected, Expectation.ofKind]

theorem completes (d : RequestDraft) : Completes step d := by
  have hitems (r : Request) : Reads step (items r) [.punct .closeBrace] r := .done rfl
  cases d with
  | path m =>
    exact ⟨[.str "", .punct .openBrace, .punct .closeBrace], _, .more rfl (.more rfl (hitems _))⟩
  | opening m p => exact ⟨[.punct .openBrace, .punct .closeBrace], _, .more rfl (hitems _)⟩
  | items r => exact ⟨_, r, hitems r⟩
  | header r h =>
    exact h.completes.within id id (fun _ => rfl) (header r) _ (fun _ _ => rfl)
      fun x => ⟨_, _, hitems (add r (.header x))⟩
  | body r =>
    exact ⟨[.str "", .punct .semicolon, .punct .closeBrace], _,
      .more rfl (.more rfl (hitems _))⟩
  | bodyEnding r text =>
    exact ⟨[.punct .semicolon, .punct .closeBrace], _, .more rfl (hitems _)⟩

theorem nodup_expected (d : RequestDraft) : d.expected.Nodup := by
  cases d with
  | header r h => exact h.nodup_expected
  | path | opening | items | body | bodyEnding => simp [expected]

theorem endOfInput_notMem (d : RequestDraft) : .endOfInput ∉ d.expected := by
  cases d with
  | header r h => exact h.endOfInput_notMem
  | path | opening | items | body | bodyEnding => simp [expected]

end RequestDraft

namespace AssertionDraft

theorem step_isSome_iff (d : AssertionDraft) (k : TokenKind) :
    (d.step k).isSome = true ↔ Expectation.ofKind k ∈ d.expected := by
  cases d with
  | argument form =>
    cases form <;> cases k <;> simp [step, expected, AssertionForm.argument, Expectation.ofKind]
  | opening | rangeComma | rangeStop | headerComma | headerText | closing | ending =>
    cases k with
    | punct p => cases p <;> simp [step, expected, Expectation.ofKind]
    | _ => simp [step, expected, Expectation.ofKind]

theorem completes (d : AssertionDraft) : Completes step d := by
  have hclosing (a : Assertion) :
      Reads step (closing a) [.punct .closeParen, .punct .semicolon] a := .more rfl (.done rfl)
  -- The two-argument forms are completed from their comma on.
  have hrange (start : Int64) : Completes step (rangeComma start) :=
    ⟨.punct .comma :: .int 0 :: _, _, .more rfl (.more rfl (hclosing _))⟩
  have hheader (test : HeaderTest) (key : String) : Completes step (headerComma test key) :=
    ⟨.punct .comma :: .str "" :: _, _, .more rfl (.more rfl (hclosing _))⟩
  have hargument (form : AssertionForm) : Completes step (argument form) := by
    cases form with
    | status => exact ⟨.int 0 :: _, _, .more rfl (hclosing _)⟩
    | statusRange =>
      obtain ⟨ks, x, hr⟩ := hrange 0
      exact ⟨.int 0 :: ks, x, .more rfl hr⟩
    | header =>
      obtain ⟨ks, x, hr⟩ := hheader .equals ""
      exact ⟨.str "" :: ks, x, .more rfl hr⟩
    | headerContains =>
      obtain ⟨ks, x, hr⟩ := hheader .contains ""
      exact ⟨.str "" :: ks, x, .more rfl hr⟩
    | bodyContains => exact ⟨.str "" :: _, _, .more rfl (hclosing _)⟩
  cases d with
  | opening form =>
    obtain ⟨ks, x, hr⟩ := hargument form
    exact ⟨.punct .openParen :: ks, x, .more rfl hr⟩
  | argument form => exact hargument form
  | rangeComma start => exact hrange start
  | rangeStop start => exact ⟨.int 0 :: _, _, .more rfl (hclosing _)⟩
  | headerComma test key => exact hheader test key
  | headerText test key => exact ⟨.str "" :: _, _, .more rfl (hclosing _)⟩
  | closing a => exact ⟨_, a, hclosing a⟩
  | ending a => exact ⟨[.punct .semicolon], a, .done rfl⟩

theorem nodup_expected (d : AssertionDraft) : d.expected.Nodup := by
  cases d <;> simp [expected]

theorem endOfInput_notMem (d : AssertionDraft) : .endOfInput ∉ d.expected := by
  cases d with
  | argument form => cases form <;> simp [expected, AssertionForm.argument]
  | opening | rangeComma | rangeStop | headerComma | headerText | closing | ending =>
    simp [expected]

end AssertionDraft

namespace TestDraft

/-- The keywords of statements are those that a statement can begin with. -/
theorem beginStatement_isSome_iff (t : TestBlock) (k : Keyword) :
    (beginStatement t k).isSome = true ↔ k ∈ statementKeywords := by
  cases k <;> simp [beginStatement, statementKeywords, Method.ofKeyword?, AssertionForm.ofKeyword?]

theorem step_isSome_iff (d : TestDraft) (k : TokenKind) :
    (d.step k).isSome = true ↔ Expectation.ofKind k ∈ d.expected := by
  cases d with
  | request t r => rw [step, Option.isSome_map, RequestDraft.step_isSome_iff, expected]
  | assertion t a => rw [step, Option.isSome_map, AssertionDraft.step_isSome_iff, expected]
  | statements t =>
    cases k with
    | keyword k =>
      rw [step, Option.isSome_map, beginStatement_isSome_iff]
      simp [expected, Expectation.ofKind]
    | punct p => cases p <;> simp [step, expected, Expectation.ofKind]
    | _ => simp [step, expected, Expectation.ofKind]
  | name | opening =>
    cases k with
    | punct p => cases p <;> simp [step, expected, Expectation.ofKind]
    | _ => simp [step, expected, Expectation.ofKind]

theorem completes (d : TestDraft) : Completes step d := by
  have hstatements (t : TestBlock) : Reads step (statements t) [.punct .closeBrace] t := .done rfl
  cases d with
  | name place =>
    exact ⟨[.ident "x", .punct .openBrace, .punct .closeBrace], _,
      .more rfl (.more rfl (hstatements _))⟩
  | opening place n =>
    exact ⟨[.punct .openBrace, .punct .closeBrace], _, .more rfl (hstatements _)⟩
  | statements t => exact ⟨_, t, hstatements t⟩
  | request t r =>
    exact r.completes.within id id (fun _ => rfl) (request t) _ (fun _ _ => rfl)
      fun x => ⟨_, _, hstatements (add t (.request x))⟩
  | assertion t a =>
    exact a.completes.within id id (fun _ => rfl) (assertion t) _ (fun _ _ => rfl)
      fun x => ⟨_, _, hstatements (add t (.assertion x))⟩

theorem nodup_expected (d : TestDraft) : d.expected.Nodup := by
  cases d with
  | request t r => exact r.nodup_expected
  | assertion t a => exact a.nodup_expected
  | name | opening | statements => simp [expected, statementKeywords]

theorem endOfInput_notMem (d : TestDraft) : .endOfInput ∉ d.expected := by
  cases d with
  | request t r => exact r.endOfInput_notMem
  | assertion t a => exact a.endOfInput_notMem
  | name | opening | statements => simp [expected]

end TestDraft

namespace ProgramDraft

theorem step_isSome_iff (d : ProgramDraft) (t : Token) :
    (d.step t).isSome = true ↔ Expectation.ofKind t.kind ∈ d.expected := by
  cases d with
  | config c => rw [step, Option.isSome_map, ConfigDraft.step_isSome_iff, expected]
  | declaration p v => rw [step, Option.isSome_map, VariableDraft.step_isSome_iff, expected]
  | test p b => rw [step, Option.isSome_map, TestDraft.step_isSome_iff, expected]
  | between p =>
    obtain ⟨kind, place⟩ := t
    cases kind with
    | keyword k => cases k <;> simp [step, expected, Expectation.ofKind]
    | _ => simp [step, expected, Expectation.ofKind]

/-- **Every draft can be completed.** -/
theorem completes (d : ProgramDraft) : Completes step d := by
  have hbetween (p : Program) : Completes step (between p) :=
    ⟨[⟨.eof, .start⟩], p, .done rfl⟩
  cases d with
  | between p => exact hbetween p
  | config c =>
    exact c.completes.within Token.kind (⟨·, .start⟩) (fun _ => rfl) config _ (fun _ _ => rfl)
      fun is => hbetween { Program.empty with config := some is }
  | declaration p v =>
    exact v.completes.within Token.kind (⟨·, .start⟩) (fun _ => rfl) (declaration p) _
      (fun _ _ => rfl) fun v => hbetween { p with declarations := p.declarations ++ [v] }
  | test p b =>
    exact b.completes.within Token.kind (⟨·, .start⟩) (fun _ => rfl) (test p) _ (fun _ _ => rfl)
      fun b => hbetween { p with tests := p.tests ++ [b] }

theorem nodup_expected (d : ProgramDraft) : d.expected.Nodup := by
  cases d with
  | between p => cases hc : takesConfig p <;> cases hv : takesVariable p <;> simp [expected, hc, hv]
  | config c => exact c.nodup_expected
  | declaration p v => exact v.nodup_expected
  | test p b => exact b.nodup_expected

/-- A draft that can be completed expects something. -/
theorem expected_ne_nil (d : ProgramDraft) : d.expected ≠ [] := by
  obtain ⟨ts, p, hr⟩ := d.completes
  obtain ⟨t, rest, -, hs⟩ := hr.head
  exact List.ne_nil_of_mem ((d.step_isSome_iff t).mp hs)

/-- The end of the text leads to no longer draft. -/
theorem step_eof_ne_more {d d' : ProgramDraft} {t : Token} (hk : t.kind = .eof) :
    d.step t ≠ some (.more d') := by
  intro h
  have hmem : Expectation.endOfInput ∈ d.expected := by
    rw [show Expectation.endOfInput = .ofKind t.kind by rw [hk]; rfl, ← step_isSome_iff, h]
    rfl
  cases d with
  | between p => simp [step, hk] at h
  | config c => exact c.endOfInput_notMem hmem
  | declaration p v => exact v.endOfInput_notMem hmem
  | test p b => exact b.endOfInput_notMem hmem

end ProgramDraft

/-! ## Beginnings of programs -/

/-- What a draft reads on from the tokens behind it derives a program together with them. -/
theorem programRel_of_reads {d : ProgramDraft} {us : List Token} {p : Program}
    (h : Reads ProgramDraft.step d us p) :
    ∀ {ts : List Token}, d.Read ts → ProgramRel (ts ++ us) p := by
  induction h with
  | done hs => exact fun hr => hr.done hs
  | @more d d' t us p hs _ ih =>
    intro ts hr
    have hp := ih (hr.more hs)
    rwa [List.append_assoc, List.singleton_append] at hp

/-- The drafts read just what the grammar derives. -/
theorem programRel_iff_reads (ts : List Token) (p : Program) :
    ProgramRel ts p ↔ Reads ProgramDraft.step .start ts p :=
  ⟨ProgramDraft.reads_programRel, fun h => programRel_of_reads h ProgramDraft.start_read⟩

/-- Some program begins with these tokens. -/
def Viable (ts : List Token) : Prop := ∃ more p, ProgramRel (ts ++ more) p

/-- Some token of a kind can come next. The end of the text can if the program is complete. -/
def CanFollow (ts : List Token) : Expectation → Prop
  | .endOfInput => ∃ place p, ProgramRel (ts ++ [⟨.eof, place⟩]) p
  | c => ∃ t : Token, Expectation.ofKind t.kind = c ∧ Viable (ts ++ [t])

section Beginnings

variable {d : ProgramDraft} {ts : List Token}

theorem viable_of_run (h : Run ProgramDraft.step .start ts d) : Viable ts := by
  obtain ⟨more, p, hr⟩ := d.completes
  exact ⟨more, p, (programRel_iff_reads _ _).mpr (h.reads hr)⟩

/-- **A draft expects the kinds of tokens with which a program can go on.** -/
theorem viable_snoc_iff (h : Run ProgramDraft.step .start ts d) (t : Token) :
    Viable (ts ++ [t]) ↔ Expectation.ofKind t.kind ∈ d.expected := by
  rw [← d.step_isSome_iff]
  constructor
  · rintro ⟨more, p, hp⟩
    rw [List.append_assoc] at hp
    obtain ⟨u, rest, hu, hs⟩ := (h.rest ((programRel_iff_reads _ _).mp hp)).head
    cases hu
    exact hs
  · intro hs
    obtain ⟨s, hs⟩ := Option.isSome_iff_exists.mp hs
    cases s with
    | more d' => exact viable_of_run (h.append (.cons hs (.nil d')))
    | done p =>
      refine ⟨[], p, (programRel_iff_reads _ _).mpr ?_⟩
      rw [List.append_nil]
      exact h.reads (.done hs)

/-- A draft expects the end of the text if the tokens behind it are a whole program. -/
theorem programRel_eof_iff (h : Run ProgramDraft.step .start ts d) (place : Position) :
    (∃ p, ProgramRel (ts ++ [⟨.eof, place⟩]) p) ↔ .endOfInput ∈ d.expected := by
  have hiff := viable_snoc_iff h ⟨.eof, place⟩
  constructor
  · rintro ⟨p, hp⟩
    exact hiff.mp ⟨[], p, by rwa [List.append_nil]⟩
  · intro hmem
    obtain ⟨s, hs⟩ := Option.isSome_iff_exists.mp ((d.step_isSome_iff ⟨.eof, place⟩).mpr hmem)
    cases s with
    | more d' => exact absurd hs (ProgramDraft.step_eof_ne_more rfl)
    | done p => exact ⟨p, (programRel_iff_reads _ _).mpr (h.reads (.done hs))⟩

theorem canFollow_iff (h : Run ProgramDraft.step .start ts d) (c : Expectation) :
    CanFollow ts c ↔ c ∈ d.expected := by
  -- One token of the kind decides for all: a draft looks at nothing else to take or refuse it.
  have hsome : (∃ t : Token, Expectation.ofKind t.kind = c ∧ Viable (ts ++ [t])) ↔
      c ∈ d.expected := by
    constructor
    · rintro ⟨t, rfl, ht⟩
      exact (viable_snoc_iff h t).mp ht
    · intro hc
      obtain ⟨k, rfl⟩ := c.exists_ofKind
      exact ⟨⟨k, .start⟩, rfl, (viable_snoc_iff h ⟨k, .start⟩).mpr hc⟩
  cases c with
  | endOfInput =>
    refine ⟨fun ⟨place, p, hp⟩ => (programRel_eof_iff h place).mp ⟨p, hp⟩, fun hc => ?_⟩
    exact ⟨.start, (programRel_eof_iff h .start).mpr hc⟩
  | keyword | punct | string | integer | identifier => exact hsome

end Beginnings

/-! ## Errors -/

/-- A token out of place is one that the draft behind the tokens before it refuses, unless the
tokens run out. -/
theorem readFrom_unexpected : ∀ {items : List Lexed} {last : Position} {d : ProgramDraft}
    {e : UnexpectedToken}, Program.readFrom last d items = .error (.unexpected e) →
    (∃ ts t rest d', items = ts.map .ok ++ .ok t :: rest ∧ Run ProgramDraft.step d ts d' ∧
      d'.step t = none ∧ e = Program.unexpected d' t) ∨
    ∃ ts d', items = ts.map .ok ∧ Run ProgramDraft.step d ts d'
  | [], _, d, _, _ => .inr ⟨[], d, rfl, .nil d⟩
  | .error _ :: _, _, _, _, h => by cases h
  | .ok t :: items, last, d, e, h => by
    rw [Program.readFrom] at h
    split at h
    · next hs =>
      cases h
      exact .inl ⟨[], t, items, d, rfl, .nil d, hs, rfl⟩
    · next d' hs =>
      rcases readFrom_unexpected h with ⟨ts, u, rest, d'', rfl, hrun, hu, he⟩ | ⟨ts, d'', rfl, hrun⟩
      · exact .inl ⟨t :: ts, u, rest, d'', rfl, .cons hs hrun, hu, he⟩
      · exact .inr ⟨t :: ts, d'', rfl, .cons hs hrun⟩
    · cases h

/-- No draft waits for more behind the end of the text. -/
theorem kind_ne_eof_of_run {d d' : ProgramDraft} {ts : List Token} {t : Token}
    (h : Run ProgramDraft.step d (ts ++ [t]) d') : t.kind ≠ .eof := by
  intro hk
  obtain ⟨m, -, hm⟩ := h.between
  cases hm with
  | cons hs _ => exact ProgramDraft.step_eof_ne_more hk hs

/-- No draft takes all items of a text and waits for more. -/
theorem lex_ne_run (source : String) {ts : List Token} {d : ProgramDraft}
    (h : Run ProgramDraft.step .start ts d) : lex source ≠ ts.map .ok := by
  intro hlex
  obtain ⟨us, last, hscan, -, hlast⟩ := scan_shape .start source.toList
  have heq : ts.map Except.ok = us.map Except.ok ++ [last] := hlex.symm.trans hscan
  obtain ⟨vs, es, rfl, -, hes⟩ := List.map_eq_append_iff.mp heq
  obtain ⟨t, rfl, ht⟩ := List.map_eq_singleton_iff.mp hes
  exact kind_ne_eof_of_run h (hlast t ht.symm)

/-- **Syntax errors are exact.** The token at fault stands behind the beginning of a program. The
error gives its place and what it says, and lists without repetition all kinds of tokens that could
have come instead. There are such kinds, and the token is of none of them. -/
theorem syntax_error_exact (source : String) (e : UnexpectedToken)
    (h : Program.parse source = .error (.unexpected e)) :
    ∃ (before : List Token) (t : Token) (after : List Lexed),
      lex source = before.map .ok ++ .ok t :: after ∧
      e.position = t.position ∧ e.found = t.kind.text ∧
      Viable before ∧
      (∀ c : Expectation, c.text ∈ e.expected ↔ CanFollow before c) ∧
      (∀ u : Token, (Expectation.ofKind u.kind).text ∈ e.expected ↔ Viable (before ++ [u])) ∧
      (∀ text ∈ e.expected, ∃ c : Expectation, c.text = text) ∧
      e.expected ≠ [] ∧ e.expected.Nodup ∧
      (Expectation.ofKind t.kind).text ∉ e.expected := by
  obtain ⟨ts, t, rest, d, hlex, hrun, hs, rfl⟩ | ⟨ts, d, hlex, hrun⟩ := readFrom_unexpected h
  · refine ⟨ts, t, rest, hlex, rfl, rfl, viable_of_run hrun, ?_, ?_, ?_, ?_, ?_, ?_⟩
    · exact fun c => Expectation.text_mem_map_iff.trans (canFollow_iff hrun c).symm
    · exact fun u => Expectation.text_mem_map_iff.trans (viable_snoc_iff hrun u).symm
    · intro text htext
      obtain ⟨c, -, hc⟩ := List.mem_map.mp htext
      exact ⟨c, hc⟩
    · exact fun hnil => d.expected_ne_nil (List.map_eq_nil_iff.mp hnil)
    · exact d.nodup_expected.map fun _ _ hc => Expectation.text_inj.mp hc
    · intro hmem
      have htake := (d.step_isSome_iff t).mpr (Expectation.text_mem_map_iff.mp hmem)
      rw [hs] at htake
      cases htake
  · exact absurd hlex (lex_ne_run source hrun)

/-- Behind a variable, another one, a test or the end can come, but no configuration. -/
theorem syntax_error_exact_late_config :
    Program.parse "var a = 1;\nconfig \x7b\x7d" =
      .error (.unexpected ⟨⟨2, 1⟩, ["'var'", "'test'", "end of input"], "keyword 'config'"⟩) ∧
    ∃ (before : List Token) (t : Token) (after : List Lexed),
      lex "var a = 1;\nconfig \x7b\x7d" = before.map .ok ++ .ok t :: after ∧
      t.position = ⟨2, 1⟩ ∧ t.kind.text = "keyword 'config'" ∧ Viable before ∧
      CanFollow before (.keyword .var) ∧ CanFollow before .endOfInput ∧
      ¬ CanFollow before (.keyword .config) ∧ ¬ Viable (before ++ [t]) := by
  have hparse : Program.parse "var a = 1;\nconfig \x7b\x7d" =
      .error (.unexpected ⟨⟨2, 1⟩, ["'var'", "'test'", "end of input"], "keyword 'config'"⟩) := by
    decide +kernel
  obtain ⟨before, t, after, hlex, hplace, hfound, hbefore, hnext, htoken, -, -, -, hnot⟩ :=
    syntax_error_exact _ _ hparse
  refine ⟨hparse, before, t, after, hlex, hplace.symm, hfound.symm, hbefore, ?_, ?_, ?_, ?_⟩
  · exact (hnext _).mp (by decide +kernel)
  · exact (hnext _).mp (by decide +kernel)
  · exact fun hc => absurd ((hnext _).mpr hc) (by decide +kernel)
  · exact fun hv => hnot ((htoken t).mpr hv)

end ApiScenario
