import ApiScenario.Proofs.Expectations
import ApiScenario.Proofs.TokenPlaces

/-!
# Which of two faults is reported

Tokens are cut off a text only as they are read, so a text with a piece that is no token may be
refused before that piece is reached. Here the lazy reading of programs is compared with cutting the
whole text into tokens first (`tokenize`).

The tokens in front of the faulty piece are all taken, or one of them is refused (`run_or_refused`),
and which of the two happens is a question of the grammar alone: they are taken if and only if some
program begins with them (`parse_of_lex_error`). A refused token stands before the faulty piece, and
is told at an earlier place unless the text is so long that places come round again.
-/

namespace ApiScenario

open Grammar Lexer

/-! ## Reading up to the fault -/

/-- A draft takes all tokens of a row, or refuses the first that it cannot take. -/
theorem run_or_refused : ∀ (d : ProgramDraft) {ts : List Token}, (∀ t ∈ ts, t.kind ≠ .eof) →
    (∃ d', Run ProgramDraft.step d ts d') ∨
      ∃ before t after d', ts = before ++ t :: after ∧ Run ProgramDraft.step d before d' ∧
        d'.step t = none
  | d, [], _ => .inl ⟨d, .nil d⟩
  | d, t :: ts, h => by
    obtain ⟨ht, hts⟩ := List.forall_mem_cons.mp h
    cases hs : d.step t with
    | none => exact .inr ⟨[], t, ts, d, rfl, .nil d, hs⟩
    | some s =>
      cases s with
      | done p => exact absurd (ProgramDraft.eq_between_of_done hs).2 ht
      | more e =>
        rcases run_or_refused e hts with ⟨d', hrun⟩ | ⟨before, u, after, d', rfl, hrun, hu⟩
        · exact .inl ⟨d', .cons hs hrun⟩
        · exact .inr ⟨t :: before, u, after, d', rfl, .cons hs hrun, hu⟩

/-- What a draft has taken does not matter any more to how the rest is read. -/
theorem readFrom_of_run {d d' : ProgramDraft} {ts : List Token} (h : Run ProgramDraft.step d ts d')
    (last : Position) (rest : List Lexed) :
    ∃ last', Program.readFrom last d (ts.map .ok ++ rest) = Program.readFrom last' d' rest := by
  induction h generalizing last with
  | nil => exact ⟨last, rfl⟩
  | @cons d d' e t ts hs _ ih =>
    obtain ⟨last', hread⟩ := ih t.position
    refine ⟨last', ?_⟩
    rw [List.map_cons, List.cons_append, Program.readFrom, hs]
    exact hread

theorem Viable.of_append {ts us : List Token} (h : Viable (ts ++ us)) : Viable ts := by
  obtain ⟨more, p, hp⟩ := h
  rw [List.append_assoc] at hp
  exact ⟨us ++ more, p, hp⟩

/-- A refused token is one that no program has behind the tokens before it. -/
theorem not_viable_of_refused {d : ProgramDraft} {before : List Token} {t : Token}
    (hrun : Run ProgramDraft.step .start before d) (ht : d.step t = none) (after : List Token) :
    ¬ Viable (before ++ t :: after) := by
  intro hviable
  rw [← List.singleton_append, ← List.append_assoc] at hviable
  have hmem := (viable_snoc_iff hrun t).mp hviable.of_append
  rw [← d.step_isSome_iff, ht] at hmem
  cases hmem

/-- **The grammar decides which fault is reported.** -/
theorem parse_of_lex_error {source : String} {ts : List Token} {e : LexicalError}
    (h : lex source = ts.map .ok ++ [.error e]) :
    (Viable ts ∧ Program.parse source = .error (.lexical e)) ∨
      (¬ Viable ts ∧ ∃ u, Program.parse source = .error (.unexpected u) ∧
        ∃ t ∈ ts, u.position = t.position) := by
  have hparse : Program.parse source = Program.readFrom .start .start (lex source) := rfl
  rcases run_or_refused .start (ne_eof_of_lex_error h) with
    ⟨d, hrun⟩ | ⟨before, t, after, d, rfl, hrun, ht⟩
  · refine .inl ⟨viable_of_run hrun, ?_⟩
    obtain ⟨last, hread⟩ := readFrom_of_run hrun .start [.error e]
    rw [hparse, h, hread, Program.readFrom]
  · refine .inr ⟨not_viable_of_refused hrun ht after, Program.unexpected d t, ?_, t, by simp, rfl⟩
    · obtain ⟨last, hread⟩ :=
        readFrom_of_run hrun .start (.ok t :: (after.map .ok ++ [.error e]))
      rw [hparse, h, List.map_append, List.append_assoc, List.map_cons, List.cons_append, hread,
        Program.readFrom, ht]

/-! ## Lazy and eager reading -/

theorem tokenize_of_parse {source : String} {p : Program} (h : Program.parse source = .ok p) :
    ∃ ts, tokenize source = .ok ts := by
  cases htokens : tokenize source with
  | ok ts => exact ⟨ts, rfl⟩
  | error e =>
    obtain ⟨ts, hlex⟩ := tokenize_eq_error_iff.mp htokens
    rcases parse_of_lex_error hlex with ⟨-, hparse⟩ | ⟨-, u, hparse, -⟩
    · rw [h] at hparse
      cases hparse
    · rw [h] at hparse
      cases hparse

/-- A fault of cutting that is reported is the one that cutting the whole text meets. -/
theorem tokenize_of_parse_lexical {source : String} {e : LexicalError}
    (h : Program.parse source = .error (.lexical e)) : tokenize source = .error e := by
  cases htokens : tokenize source with
  | ok ts =>
    -- Reading tokens that are all there can fail in no other way than at one of them.
    have hread : Program.readFrom .start .start (ts.map .ok) = .error (.lexical e) := by
      rw [← (tokenize_shape htokens).1]
      exact h
    obtain ⟨u, hu⟩ := readFrom_error hread
    cases hu
  | error e' =>
    obtain ⟨ts, hlex⟩ := tokenize_eq_error_iff.mp htokens
    rcases parse_of_lex_error hlex with ⟨-, hparse⟩ | ⟨-, u, hparse, -⟩
    · rw [h] at hparse
      cases hparse
      rfl
    · rw [h] at hparse
      cases hparse

/-- **Reading tokens as they are needed agrees with cutting the whole text first.** A text that is
read as a program can be cut into tokens, and a fault of cutting that is reported is the one that
cutting the whole text meets. If the whole text cannot be cut, its fault is reported just when some
program begins with the tokens in front of it; otherwise one of these tokens is out of place. In a
text of fewer than `2 ^ 32` characters this token stands at an earlier place than the fault. -/
theorem lazy_reading_agrees (source : String) :
    (∀ p, Program.parse source = .ok p → ∃ ts, tokenize source = .ok ts) ∧
    (∀ e, Program.parse source = .error (.lexical e) → tokenize source = .error e) ∧
    (∀ e, tokenize source = .error e →
      ∃ ts : List Token, lex source = ts.map .ok ++ [.error e] ∧
        (Program.parse source = .error (.lexical e) ↔ Viable ts) ∧
        (¬ Viable ts → ∃ u, Program.parse source = .error (.unexpected u) ∧
          (∃ t ∈ ts, u.position = t.position) ∧
          (source.length < UInt32.size → u.position < e.position))) := by
  refine ⟨fun p hp => tokenize_of_parse hp, fun e he => tokenize_of_parse_lexical he, ?_⟩
  intro e he
  obtain ⟨ts, hlex⟩ := tokenize_eq_error_iff.mp he
  refine ⟨ts, hlex, ?_⟩
  rcases parse_of_lex_error hlex with ⟨hviable, hparse⟩ | ⟨hviable, u, hparse, t, ht, hplace⟩
  · exact ⟨iff_of_true hparse hviable, fun hn => absurd hviable hn⟩
  · refine ⟨iff_of_false ?_ hviable, fun _ => ⟨u, hparse, ⟨t, ht, hplace⟩, fun hsize => ?_⟩⟩
    · rw [hparse]
      simp
    · exact hplace ▸ lt_of_lex_error hsize hlex t ht

/-- The same unknown character is reported behind the beginning of a program, and passed over when
a semicolon too many stands before it. -/
theorem lazy_reading_agrees_two_faults :
    (tokenize "var a = #" = .error ⟨⟨1, 9⟩, '#', "unrecognized character"⟩ ∧
      ∃ ts : List Token,
        lex "var a = #" = ts.map .ok ++ [.error ⟨⟨1, 9⟩, '#', "unrecognized character"⟩] ∧
        Viable ts) ∧
    (tokenize "var a ; = #" = .error ⟨⟨1, 11⟩, '#', "unrecognized character"⟩ ∧
      ∃ ts : List Token,
        lex "var a ; = #" = ts.map .ok ++ [.error ⟨⟨1, 11⟩, '#', "unrecognized character"⟩] ∧
        ¬ Viable ts ∧
        ∃ u, Program.parse "var a ; = #" = .error (.unexpected u) ∧
          (∃ t ∈ ts, u.position = t.position) ∧ u.position < ⟨1, 11⟩) := by
  constructor
  · have htokens : tokenize "var a = #" = .error ⟨⟨1, 9⟩, '#', "unrecognized character"⟩ := by
      decide +kernel
    obtain ⟨ts, hlex, hiff, -⟩ := (lazy_reading_agrees "var a = #").2.2 _ htokens
    exact ⟨htokens, ts, hlex, hiff.mp (by decide +kernel)⟩
  · have htokens : tokenize "var a ; = #" = .error ⟨⟨1, 11⟩, '#', "unrecognized character"⟩ := by
      decide +kernel
    obtain ⟨ts, hlex, hiff, hearlier⟩ := (lazy_reading_agrees "var a ; = #").2.2 _ htokens
    have hviable : ¬ Viable ts := by
      rw [← hiff]
      decide +kernel
    obtain ⟨u, hparse, hplace, hbefore⟩ := hearlier hviable
    exact ⟨htokens, ts, hlex, hviable, u, hparse, hplace, hbefore (by decide)⟩

/-! ## A source that is too long -/

/-- A brace that closes nothing, and a character that begins nothing further on in the same line. -/
theorem lex_brace_spaces_at (n : Nat) :
    lex (String.ofList ('\x7d' :: (List.replicate n ' ' ++ ['@'])))
      = [.ok ⟨.punct .closeBrace, ⟨1, 1⟩⟩,
        .error ⟨⟨1, .ofNat (n + 2)⟩, '@', "unrecognized character"⟩] := by
  have hskip : trivia (List.replicate n ' ' ++ ['@']) = (List.replicate n ' ', ['@']) := by
    rw [trivia_gap_append (gap_spaces n), trivia_solid (.cons rfl (by decide) []),
      List.append_nil]
  have hcut : cut '@' [] = .fault 0 '@' .unrecognized := rfl
  have hrow := scan_row (row_brace (List.replicate n ' ' ++ ['@'])) .start
  rw [lex, String.toList_ofList, ← start_after_spaces]
  refine hrow.trans ?_
  rw [scan_fault (by rw [hskip]) hcut, hskip, Position.moveRight_zero]
  rfl

/-- **Two faults that are `2 ^ 32` columns apart are told at the same place**, so the one that is
reported does not stand before the other. -/
theorem faults_told_at_one_place :
    let source := String.ofList ('\x7d' :: (List.replicate 4294967295 ' ' ++ ['@']))
    let e : LexicalError := ⟨⟨1, 1⟩, '@', "unrecognized character"⟩
    let ts : List Token := [⟨.punct .closeBrace, ⟨1, 1⟩⟩]
    tokenize source = .error e ∧ lex source = ts.map .ok ++ [.error e] ∧ ¬ Viable ts ∧
    ¬ ∃ u, Program.parse source = .error (.unexpected u) ∧ u.position < e.position := by
  intro source e ts
  have hlex : lex source = ts.map .ok ++ [.error e] := lex_brace_spaces_at 4294967295
  have hrefused : ProgramDraft.start.step ⟨.punct .closeBrace, ⟨1, 1⟩⟩ = none := rfl
  have hviable : ¬ Viable ts := not_viable_of_refused (.nil _) hrefused []
  refine ⟨tokenize_eq_error_iff.mpr ⟨ts, hlex⟩, hlex, hviable, ?_⟩
  rintro ⟨u, hparse, hbefore⟩
  rcases parse_of_lex_error hlex with ⟨hviable', -⟩ | ⟨-, v, hparse', t, ht, hplace⟩
  · exact hviable hviable'
  · rw [hparse] at hparse'
    cases hparse'
    rw [hplace, List.mem_singleton.mp ht] at hbefore
    exact absurd hbefore (by decide)

end ApiScenario
