import Mathlib.Control.Monad.Basic
import ApiScenario.Program.Parser
import ApiScenario.Proofs.DraftReading
import ApiScenario.Proofs.TokenStream

/-!
# The parser accepts exactly its grammar

Reading a stream of tokens is sound and complete for the derivations of `Grammar.ProgramRel`. Since
the end of the text is the last token of every stream, a program is read from all of the tokens.
-/

namespace ApiScenario

open Grammar Lexer

/-! ## Reading tokens -/

/-- What has been read derives the program that it was read as. -/
theorem readFrom_sound : ∀ {items : List Lexed} {last : Position} {d : ProgramDraft}
    {ts : List Token} {p : Program}, d.Read ts → Program.readFrom last d items = .ok p →
    ∃ us rest, items = us.map .ok ++ rest ∧ ProgramRel (ts ++ us) p
  | [], _, _, _, _, _, h => by cases h
  | .error _ :: _, _, _, _, _, _, h => by cases h
  | .ok t :: items, last, d, ts, p, hr, h => by
    rw [Program.readFrom] at h
    split at h
    · cases h
    · next d' hs =>
      obtain ⟨us, rest, rfl, hp⟩ := readFrom_sound (hr.more hs) h
      refine ⟨t :: us, rest, rfl, ?_⟩
      rwa [List.append_assoc, List.singleton_append] at hp
    · next q hs =>
      cases h
      exact ⟨[t], items, rfl, hr.done hs⟩

/-- What drafts take one by one is read to its end. -/
theorem readFrom_of_reads {d : ProgramDraft} {ts : List Token} {p : Program}
    (h : Reads ProgramDraft.step d ts p) : ∀ (last : Position) (rest : List Lexed),
    Program.readFrom last d (ts.map .ok ++ rest) = .ok p := by
  induction h with
  | done hs =>
    intro last rest
    rw [List.map_singleton, List.singleton_append, Program.readFrom, hs]
  | more hs _ ih =>
    intro last rest
    rw [List.map_cons, List.cons_append, Program.readFrom, hs]
    exact ih _ rest

/-- Without errors among the items, reading can fail only at a token out of place. -/
theorem readFrom_error : ∀ {ts : List Token} {last : Position} {d : ProgramDraft} {e : SourceError},
    Program.readFrom last d (ts.map .ok) = .error e → ∃ u, e = .unexpected u
  | [], _, _, _, h => by cases h; exact ⟨_, rfl⟩
  | t :: ts, last, d, e, h => by
    rw [List.map_cons, Program.readFrom] at h
    split at h
    · cases h; exact ⟨_, rfl⟩
    · exact readFrom_error h
    · cases h

/-! ## Parsing texts -/

/-- A parsed program is derived from the first tokens of its text. -/
theorem programRel_of_parse {source : String} {p : Program} (h : Program.parse source = .ok p) :
    ∃ ts rest, lex source = ts.map .ok ++ rest ∧ ProgramRel ts p :=
  readFrom_sound ProgramDraft.start_read h

theorem programRel_last {ts : List Token} {p : Program} (h : ProgramRel ts p) :
    ∃ us e, ts = us ++ [e] ∧ e.kind = .eof := by
  obtain ⟨place, -, -, -⟩ := h
  exact ⟨_, _, rfl, rfl⟩

/-- A row that ends where another one ends, and not before, is the other one. -/
theorem eq_of_eof_last {us vs rest : List Token} {e e' : Token} (hus : ∀ u ∈ us, u.kind ≠ .eof)
    (he' : e'.kind = .eof) (h : us ++ [e] = vs ++ [e'] ++ rest) : rest = [] := by
  rcases List.eq_nil_or_concat rest with rfl | ⟨init, last, rfl⟩
  · rfl
  · rw [List.concat_eq_append, ← List.append_assoc] at h
    have hmem : e' ∈ us := by
      rw [(List.append_inj' h rfl).1]
      simp
    exact absurd he' (hus e' hmem)

/-- Tokens of which only the last is the end of a text are read as what they derive. -/
theorem ofTokens_eq_ok_iff {us : List Token} {e : Token} (hus : ∀ u ∈ us, u.kind ≠ .eof)
    (p : Program) :
    Program.ofTokens ((us ++ [e]).map .ok) = .ok p ↔ ProgramRel (us ++ [e]) p := by
  constructor
  · intro hp
    obtain ⟨vs, rest, hvs, hrel⟩ := readFrom_sound ProgramDraft.start_read hp
    obtain ⟨as, bs, hts, has, -⟩ := List.map_eq_append_iff.mp hvs
    obtain rfl : as = vs := (List.map_inj_right (fun _ _ hab => by cases hab; rfl)).mp has
    rw [List.nil_append] at hrel
    obtain ⟨init, e', rfl, he'⟩ := programRel_last hrel
    obtain rfl := eq_of_eof_last hus he' hts
    rwa [hts, List.append_nil]
  · intro hp
    have hread := readFrom_of_reads (ProgramDraft.reads_programRel hp) .start []
    rwa [List.append_nil] at hread

theorem parse_eq_ok_iff {source : String} {ts : List Token} (h : tokenize source = .ok ts)
    (p : Program) : Program.parse source = .ok p ↔ ProgramRel ts p := by
  obtain ⟨hlex, us, e, rfl, hus, -⟩ := tokenize_shape h
  rw [← ofTokens_eq_ok_iff hus, Program.parse, hlex]

/-- **The parser accepts exactly its grammar.** For a text that can be cut into tokens, the program
read is the one that its tokens derive; they derive at most one; and if they derive none, a token is
out of place. -/
theorem parse_iff_grammar (source : String) (ts : List Token) (h : tokenize source = .ok ts) :
    (∀ p, Program.parse source = .ok p ↔ ProgramRel ts p) ∧
    (∀ p q, ProgramRel ts p → ProgramRel ts q → p = q) ∧
    ((¬ ∃ p, ProgramRel ts p) → ∃ e, Program.parse source = .error (.unexpected e)) := by
  refine ⟨parse_eq_ok_iff h, ?_, ?_⟩
  · intro p q hp hq
    have hp' := (parse_eq_ok_iff h p).mpr hp
    rw [(parse_eq_ok_iff h q).mpr hq] at hp'
    cases hp'
    rfl
  · intro hnone
    cases hp : Program.parse source with
    | ok p => exact absurd ⟨p, (parse_eq_ok_iff h p).mp hp⟩ hnone
    | error e =>
      have hread : Program.readFrom .start .start (ts.map .ok) = .error e := by
        rw [← (tokenize_shape h).1]
        exact hp
      obtain ⟨u, rfl⟩ := readFrom_error hread
      exact ⟨u, rfl⟩

/-- A program with a variable and a test derives from its tokens, and no other program does. -/
theorem parse_iff_grammar_scenario :
    ∃ ts, tokenize "var n = 1;\ntest t \x7b GET \"/$n\" \x7b \x7d \x7d" = .ok ts ∧
      ∀ p, ProgramRel ts p ↔
        p = ⟨none, [⟨"n", .int 1⟩], [⟨"t", [.request ⟨.get, "/$n", []⟩], ⟨2, 1⟩⟩]⟩ := by
  have htokens : tokenize "var n = 1;\ntest t \x7b GET \"/$n\" \x7b \x7d \x7d" = .ok
      [⟨.keyword .var, ⟨1, 1⟩⟩, ⟨.ident "n", ⟨1, 5⟩⟩, ⟨.punct .equals, ⟨1, 7⟩⟩, ⟨.int 1, ⟨1, 9⟩⟩,
        ⟨.punct .semicolon, ⟨1, 10⟩⟩, ⟨.keyword .test, ⟨2, 1⟩⟩, ⟨.ident "t", ⟨2, 6⟩⟩,
        ⟨.punct .openBrace, ⟨2, 8⟩⟩, ⟨.keyword .get, ⟨2, 10⟩⟩, ⟨.str "/$n", ⟨2, 14⟩⟩,
        ⟨.punct .openBrace, ⟨2, 20⟩⟩, ⟨.punct .closeBrace, ⟨2, 22⟩⟩, ⟨.punct .closeBrace, ⟨2, 24⟩⟩,
        ⟨.eof, ⟨2, 25⟩⟩] := by
    decide +kernel
  have hparse : Program.parse "var n = 1;\ntest t \x7b GET \"/$n\" \x7b \x7d \x7d"
      = .ok ⟨none, [⟨"n", .int 1⟩], [⟨"t", [.request ⟨.get, "/$n", []⟩], ⟨2, 1⟩⟩]⟩ := by
    decide +kernel
  obtain ⟨hiff, hone, -⟩ := parse_iff_grammar _ _ htokens
  refine ⟨_, htokens, fun p => ⟨fun hp => hone _ _ hp ((hiff _).mp hparse), ?_⟩⟩
  rintro rfl
  exact (hiff _).mp hparse

end ApiScenario
