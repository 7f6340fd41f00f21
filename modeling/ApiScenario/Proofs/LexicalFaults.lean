import ApiScenario.Proofs.LinesAndColumns
import ApiScenario.Proofs.SourceSplit

/-!
# Where lexical faults are reported

A text that cannot be cut into tokens has a first piece that is none, told here without the lexer
(`Faulty`). There are five ways to be none, each with its message. Four of them are reported at the
first character of the piece. A backslash that escapes nothing is reported where it stands, however far
into its literal; all that comes before it in the literal can be read, so no line ends there and its
column can be counted from the opening quote.

What the lexer finds at fault is such a piece (`faulty_of_cut`), and the error leads to the character
that it is about (`lexical_error_points_at_fault`).
-/

namespace ApiScenario

open Lexer Piece

/-! ## Pieces that are no tokens -/

/-- A piece that is no token and what follows it, the front of it that stands before the place at
fault, the character at fault, and what is said about it. -/
inductive Faulty : List Char → List Char → Char → String → Prop
  | unrecognized {c : Char} {rest : List Char} :
      c ≠ '"' → ¬ ['/', '*'] <+: c :: rest → (∀ p : Punct, p.char ≠ c) →
      (∀ front, front <+: c :: rest → ¬ Numeral front ∧ ¬ IsWord front) →
      Faulty (c :: rest) [] c "unrecognized character"
  | openString {rest : List Char} :
      (∀ body after, Enclosed body → rest ≠ body ++ '"' :: after) →
      Faulty ('"' :: rest) [] '"' "unterminated string literal"
  | openComment {rest : List Char} :
      ¬ ['*', '/'] <:+: rest → Faulty ('/' :: '*' :: rest) [] '/' "unterminated block comment"
  | outOfRange {c : Char} {cs rest : List Char} :
      Longest Numeral (c :: cs) rest →
      Decimal.value (c :: cs) < -9223372036854775808 ∨ 9223372036854775807 < Decimal.value (c :: cs) →
      Faulty (c :: cs ++ rest) [] c "integer literal out of range"
  | badEscape {front value more rest : List Char} {letter : Char} :
      LiteralBody front value → (∀ c, (letter, c) ∉ escapes) → Enclosed more →
      Faulty ('"' :: (front ++ '\\' :: letter :: (more ++ '"' :: rest))) ('"' :: front) letter
        "unknown escape sequence"

/-- The character at fault begins its piece, or it follows a backslash. -/
theorem Faulty.points {piece front : List Char} {found : Char} {reason : String}
    (h : Faulty piece front found reason) :
    (reason ∈ ["unrecognized character", "unterminated string literal",
        "unterminated block comment", "integer literal out of range"] ∧
      front = [] ∧ piece.head? = some found) ∨
    (reason = "unknown escape sequence" ∧ front ++ ['\\', found] <+: piece) := by
  cases h with
  | unrecognized => exact .inl ⟨by simp, rfl, rfl⟩
  | openString => exact .inl ⟨by simp, rfl, rfl⟩
  | openComment => exact .inl ⟨by simp, rfl, rfl⟩
  | outOfRange => exact .inl ⟨by simp, rfl, rfl⟩
  | @badEscape _ _ more rest => exact .inr ⟨rfl, more ++ '"' :: rest, by simp⟩

/-! ## What the lexer finds at fault -/

/-- What a fault at the front of a text is: a literal that is not closed or cannot be read, a comment
that is not closed, an integer that does not fit, or a character that begins nothing. -/
theorem cut_fault {c found : Char} {cs : List Char} {offset : Nat} {fault : Fault}
    (h : cut c cs = .fault offset found fault) :
    (c = '"' ∧ Literal.close? cs = none ∧ offset = 0 ∧ found = '"' ∧ fault = .unterminatedString) ∨
    (c = '"' ∧ ∃ body rest e, Literal.close? cs = some (body, rest) ∧
      Literal.unescape body = .error e ∧ offset = e.offset + 1 ∧ found = e.found ∧
      fault = .unknownEscape) ∨
    ((c = '/' ∧ cs.head? = some '*') ∧ offset = 0 ∧ found = c ∧ fault = .unterminatedComment) ∨
    (beginsInteger c cs = true ∧ Decimal.read? (c :: cs.takeWhile Char.isDigit) = none ∧
      offset = 0 ∧ found = c ∧ fault = .integerOutOfRange) ∨
    (c ≠ '"' ∧ ¬ (c = '/' ∧ cs.head? = some '*') ∧ ¬ beginsInteger c cs = true ∧
      ¬ Identifier.isFirst c = true ∧ Punct.ofChar? c = none ∧
      offset = 0 ∧ found = c ∧ fault = .unrecognized) := by
  unfold cut at h
  split at h
  · next hquote =>
    unfold cutLiteral at h
    split at h
    · next hclose =>
      cases h
      exact .inl ⟨hquote, hclose, rfl, rfl, rfl⟩
    · next body rest hclose =>
      split at h
      · cases h
      · next e hread =>
        cases h
        exact .inr (.inl ⟨hquote, body, rest, e, hclose, hread, rfl, rfl, rfl⟩)
  · next hquote =>
    split at h
    · next hcomment =>
      cases h
      exact .inr (.inr (.inl ⟨hcomment, rfl, rfl, rfl⟩))
    · next hcomment =>
      split at h
      · next hint =>
        unfold cutInteger at h
        dsimp only at h
        split at h
        · cases h
        · next hread =>
          cases h
          exact .inr (.inr (.inr (.inl ⟨hint, hread, rfl, rfl, rfl⟩)))
      · next hint =>
        split at h
        · cases h
        · next hfirst =>
          unfold cutMark at h
          split at h
          · cases h
          · next hmark =>
            cases h
            exact .inr (.inr (.inr (.inr ⟨hquote, hcomment, hint, hfirst, hmark, rfl, rfl, rfl⟩)))

/-- A comment that is not closed holds no closing mark. -/
theorem not_infix_of_closeComment? {cs : List Char} (h : closeComment? cs = none) :
    ¬ ['*', '/'] <:+: cs := by
  fun_induction closeComment? cs with
  | case1 => simp
  | case2 => cases h
  | case3 c rest hopen ih =>
    rw [Option.map_eq_none_iff] at h
    rw [List.infix_cons_iff, not_or]
    refine ⟨?_, ih h⟩
    rintro ⟨tail, htail⟩
    cases htail
    exact hopen tail rfl rfl

/-- A comment at the front of what is left after skipping is not closed. -/
theorem closeComment?_of_solid {rest : List Char} (h : Solid ('/' :: '*' :: rest)) :
    closeComment? rest = none := by
  cases hclosed : closeComment? rest with
  | none => rfl
  | some found =>
    obtain ⟨body, after⟩ := found
    obtain ⟨inner, rfl, hinner⟩ := closeComment?_eq_some hclosed
    refine absurd ?_ (h.noUnit _ after (.block hinner))
    rw [← closeComment?_append hclosed]
    rfl

theorem map_eq_error {ε α β : Type} {x : Except ε α} {f : α → β} {e : ε} (h : x.map f = .error e) :
    x = .error e := by
  cases x with
  | error e' => exact congrArg _ (Except.error.inj h)
  | ok a => cases h

/-- A literal that cannot be read has a first backslash before a letter that means nothing. -/
theorem Enclosed.exists_badEscape {body : List Char} (h : Enclosed body) :
    ∀ {offset : Nat} {e : Literal.BadEscape}, Literal.unescapeFrom offset body = .error e →
      ∃ front value more, LiteralBody front value ∧ Enclosed more ∧
        body = front ++ '\\' :: e.found :: more ∧ e.offset = offset + front.length ∧
        ∀ c, (e.found, c) ∉ escapes := by
  induction h with
  | nil =>
    intro offset e hread
    cases hread
  | @plain c body hc _ ih =>
    intro offset e hread
    have hslash : c ≠ '\\' := fun he => hc (by simp [he])
    rw [Literal.unescapeFrom_cons hslash] at hread
    obtain ⟨front, value, more, hfront, hmore, rfl, hoffset, hbad⟩ := ih (map_eq_error hread)
    refine ⟨c :: front, c :: value, more, .plain hc hfront, hmore, rfl, ?_, hbad⟩
    rw [hoffset, List.length_cons]
    omega
  | @escaped letter body hbody ih =>
    intro offset e hread
    rw [Literal.unescapeFrom] at hread
    split at hread
    · next d hd =>
      obtain ⟨front, value, more, hfront, hmore, rfl, hoffset, hbad⟩ := ih (map_eq_error hread)
      refine ⟨'\\' :: letter :: front, d :: value, more,
        .escaped ((unescapeChar?_eq_some_iff letter d).mp hd) hfront, hmore, rfl, ?_, hbad⟩
      rw [hoffset, List.length_cons, List.length_cons]
      omega
    · next hnone =>
      cases hread
      refine ⟨[], [], body, .nil, hbody, rfl, rfl, ?_⟩
      intro c hmem
      rw [(unescapeChar?_eq_some_iff letter c).mpr hmem] at hnone
      cases hnone

/-- A character that begins nothing is not recognized. -/
theorem faulty_unrecognized {c : Char} {cs : List Char} (hquote : c ≠ '"')
    (hcomment : ¬ (c = '/' ∧ cs.head? = some '*')) (hint : ¬ beginsInteger c cs = true)
    (hfirst : ¬ Identifier.isFirst c = true) (hmark : Punct.ofChar? c = none) :
    Faulty (c :: cs) [] c "unrecognized character" := by
  refine .unrecognized hquote ?_ ?_ ?_
  · rintro ⟨tail, htail⟩
    cases htail
    exact hcomment ⟨rfl, rfl⟩
  · rintro p rfl
    rw [Punct.ofChar?_char] at hmark
    cases hmark
  · rintro front ⟨tail, htail⟩
    constructor
    · intro hnumeral
      cases hnumeral with
      | plain hd =>
        cases htail
        exact hint (by simp [beginsInteger, hd])
      | minus hd =>
        cases htail
        exact hint (by simp [beginsInteger, hd])
    · intro hword
      cases front with
      | nil => cases hword
      | cons d front =>
        cases htail
        simp only [IsWord, Identifier.isIdentifier, Bool.and_eq_true] at hword
        exact hfirst hword.1

/-- An integer that is not read is out of range. -/
theorem faulty_integer {c : Char} {cs : List Char} (hint : beginsInteger c cs = true)
    (hread : Decimal.read? (c :: cs.takeWhile Char.isDigit) = none) :
    Faulty (c :: cs) [] c "integer literal out of range" := by
  have hrange : Decimal.value (c :: cs.takeWhile Char.isDigit) < -9223372036854775808 ∨
      9223372036854775807 < Decimal.value (c :: cs.takeWhile Char.isDigit) := by
    by_contra hin
    have hsome := (read?_eq_some_iff (c :: cs.takeWhile Char.isDigit) _).mpr
      ⟨by omega, by omega, rfl⟩
    rw [hread] at hsome
    cases hsome
  have hfaulty := Faulty.outOfRange (longestNumeral_of_begins hint) hrange
  rwa [List.cons_append, List.takeWhile_append_dropWhile] at hfaulty

/-- **What the lexer finds at fault is a faulty piece**, reported behind a front of it that stays in its
line. -/
theorem faulty_of_cut {c found : Char} {cs : List Char} {offset : Nat} {fault : Fault}
    (hsolid : Solid (c :: cs)) (h : cut c cs = .fault offset found fault) :
    ∃ front, Faulty (c :: cs) front found fault.reason ∧ front.length = offset ∧ '\n' ∉ front := by
  obtain ⟨rfl, hclose, rfl, rfl, rfl⟩ | ⟨rfl, body, rest, e, hclose, hread, rfl, rfl, rfl⟩ |
    ⟨⟨rfl, hstar⟩, rfl, rfl, rfl⟩ | ⟨hint, hread, rfl, rfl, rfl⟩ |
    ⟨hquote, hcomment, hint, hfirst, hmark, rfl, rfl, rfl⟩ := cut_fault h
  · refine ⟨[], .openString ?_, rfl, by simp⟩
    rintro body after hbody rfl
    rw [hbody.close?] at hclose
    cases hclose
  · obtain ⟨front, value, more, hfront, hmore, rfl, hoffset, hbad⟩ :=
      (enclosed_of_close? hclose).exists_badEscape hread
    refine ⟨'"' :: front, ?_, ?_, ?_⟩
    · rw [Literal.close?_eq hclose, List.append_assoc]
      exact .badEscape hfront hbad hmore
    · rw [hoffset, List.length_cons, Nat.zero_add]
    · rw [List.mem_cons, not_or]
      exact ⟨by decide, hfront.notMem_lineFeed⟩
  · obtain ⟨rest, rfl⟩ := List.head?_eq_some_iff.mp hstar
    exact ⟨[], .openComment (not_infix_of_closeComment? (closeComment?_of_solid hsolid)), rfl,
      by simp⟩
  · exact ⟨[], faulty_integer hint hread, rfl, by simp⟩
  · exact ⟨[], faulty_unrecognized hquote hcomment hint hfirst hmark, rfl, by simp⟩

/-! ## Whole texts -/

/-- Where cutting a text fails, its pieces come to an end, and what is left after a gap is at fault. -/
theorem exists_fault_of_tokenize {source : String} {e : LexicalError}
    (h : tokenize source = .error e) :
    ∃ ps gap piece front, source.toList = texts ps ++ (gap ++ piece) ∧ Row ps (gap ++ piece) ∧
      Gap gap ∧ Stuck piece ∧ Faulty piece front e.found e.reason ∧
      e.position = .behind (texts ps ++ (gap ++ front)) := by
  obtain ⟨ts, hlex⟩ := tokenize_eq_error_iff.mp h
  obtain ⟨ps, gap, left, last, hsource, hrow, hscan, hending⟩ := scan_split .start source.toList
  have hlast : [.error e] = [last] := (List.append_inj' (hlex.symm.trans hscan) rfl).2
  cases hlast
  cases hending with
  | failed hgap hstuck _ =>
    obtain ⟨c, rest, rfl⟩ := List.exists_cons_of_ne_nil hstuck.ne_nil
    have hskip : trivia (gap ++ c :: rest) = (gap, c :: rest) := by
      rw [trivia_gap_append hgap, trivia_solid hstuck.solid, List.append_nil]
    cases hcut : cut c rest with
    | token kind lexeme rest' =>
      obtain ⟨more, rfl, rfl⟩ := cut_front hcut
      exact absurd rfl (hstuck.noLexeme _ _ _ (lexeme_of_cut hcut))
    | fault offset found fault =>
      -- The pieces are read one by one, and the last item is what is found behind them.
      rw [hsource, scan_row hrow, scan_fault (by rw [hskip]) hcut, hskip] at hscan
      cases List.append_cancel_left hscan
      obtain ⟨front, hfaulty, hlength, hline⟩ := faulty_of_cut hstuck.solid hcut
      refine ⟨ps, gap, c :: rest, front, hsource, hrow, hgap, hstuck, hfaulty, ?_⟩
      show ((Position.start.after (texts ps)).after gap).moveRight offset = _
      rw [← hlength, ← Position.after_of_notMem hline, ← Position.after_append,
        ← Position.after_append, Position.start_after]

/-- Something is left of a faulty piece behind the place at fault, and no line feed comes first. -/
theorem Faulty.exists_rest {piece front : List Char} {found : Char} {reason : String}
    (h : Faulty piece front found reason) (hsolid : Solid piece) :
    ∃ c rest, piece = front ++ c :: rest ∧ c ≠ '\n' := by
  rcases h.points with ⟨-, rfl, hhead⟩ | ⟨-, after, rfl⟩
  · obtain ⟨rest, rfl⟩ := List.head?_eq_some_iff.mp hhead
    refine ⟨found, rest, rfl, ?_⟩
    -- A line feed would have been skipped.
    rintro rfl
    exact hsolid.noUnit ['\n'] rest (.blank (by decide)) rfl
  · exact ⟨'\\', found :: after, by simp, by decide⟩

/-- **Lexical errors point at the character at fault.** A text that cannot be cut into tokens has
pieces, a gap and something that cannot be read, and there are five messages for it. With four of them
the place is that of the first character of what cannot be read, and this is the character found. With
the fifth it is that of the first backslash in a literal that escapes nothing, and the character found
comes next. In a text of fewer than `2 ^ 32` characters the place is exact and leads to that
character. -/
theorem lexical_error_points_at_fault (source : String) (e : LexicalError)
    (h : tokenize source = .error e) :
    ∃ (ps : List Piece) (gap piece front : List Char),
      source.toList = texts ps ++ (gap ++ piece) ∧ Row ps (gap ++ piece) ∧ Gap gap ∧ Stuck piece ∧
      Faulty piece front e.found e.reason ∧ e.position = .behind (texts ps ++ (gap ++ front)) ∧
      (source.length < UInt32.size → e.position.StandsBehind (texts ps ++ (gap ++ front))) ∧
      ((e.reason ∈ ["unrecognized character", "unterminated string literal",
            "unterminated block comment", "integer literal out of range"] ∧
          front = [] ∧ piece.head? = some e.found ∧
          (source.length < UInt32.size →
            Position.charIn? source.toList e.position = some e.found)) ∨
        (e.reason = "unknown escape sequence" ∧ front ++ ['\\', e.found] <+: piece ∧
          (source.length < UInt32.size →
            Position.charIn? source.toList e.position = some '\\'))) := by
  obtain ⟨ps, gap, piece, front, hsource, hrow, hgap, hstuck, hfaulty, hplace⟩ :=
    exists_fault_of_tokenize h
  obtain ⟨c, rest, hpiece, hc⟩ := hfaulty.exists_rest hstuck.solid
  have hsplit : source.toList = texts ps ++ (gap ++ front) ++ c :: rest := by
    rw [hsource, hpiece]
    simp only [List.append_assoc]
  have hexact : source.length < UInt32.size →
      e.position.StandsBehind (texts ps ++ (gap ++ front)) := by
    intro hsize
    rw [← String.length_toList, hsplit] at hsize
    exact hplace ▸ Position.standsBehind_of_append (List.cons_ne_nil c rest) hsize
  have hchar : source.length < UInt32.size →
      Position.charIn? source.toList e.position = some c := fun hsize =>
    hsplit ▸ Position.charIn?_of_standsBehind (hexact hsize) hc rest
  refine ⟨ps, gap, piece, front, hsource, hrow, hgap, hstuck, hfaulty, hplace, hexact, ?_⟩
  rcases hfaulty.points with ⟨hfour, rfl, hhead⟩ | ⟨hescape, hfront⟩
  · obtain rfl : c = e.found := by
      rw [hpiece] at hhead
      exact Option.some.inj hhead
    exact .inl ⟨hfour, rfl, hhead, hchar⟩
  · obtain rfl : c = '\\' := by
      obtain ⟨after, hafter⟩ := hfront
      rw [hpiece, List.append_assoc] at hafter
      exact (List.cons.inj (List.append_cancel_left hafter)).1.symm
    exact .inr ⟨hescape, hfront, hchar⟩

/-- A backslash before a line break is reported in the line of the literal, behind an escape that means
something. -/
theorem lexical_error_points_at_fault_line_break :
    tokenize "a\n\"é\\t\\\n\"" = .error ⟨⟨2, 5⟩, '\n', "unknown escape sequence"⟩ ∧
    ∃ (ps : List Piece) (gap piece front : List Char),
      "a\n\"é\\t\\\n\"".toList = texts ps ++ (gap ++ piece) ∧ Row ps (gap ++ piece) ∧
      Faulty piece front '\n' "unknown escape sequence" ∧
      Position.StandsBehind ⟨2, 5⟩ (texts ps ++ (gap ++ front)) ∧ front ++ ['\\', '\n'] <+: piece ∧
      Position.charIn? "a\n\"é\\t\\\n\"".toList ⟨2, 5⟩ = some '\\' := by
  have htokenize : tokenize "a\n\"é\\t\\\n\""
      = .error ⟨⟨2, 5⟩, '\n', "unknown escape sequence"⟩ := by
    decide +kernel
  have hsize : "a\n\"é\\t\\\n\"".length < UInt32.size := by decide
  obtain ⟨ps, gap, piece, front, hsource, hrow, -, -, hfaulty, -, hexact,
      ⟨hfour, -⟩ | ⟨-, hpiece, hchar⟩⟩ := lexical_error_points_at_fault _ _ htokenize
  · simp at hfour
  · exact ⟨htokenize, ps, gap, piece, front, hsource, hrow, hfaulty, hexact hsize, hpiece,
      hchar hsize⟩

end ApiScenario
