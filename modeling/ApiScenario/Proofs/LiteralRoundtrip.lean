import ApiScenario.Proofs.SpelledTokens
import ApiScenario.Proofs.TokenPlaces

/-!
# Literals, written and read

Writing a text as a literal and reading literals undo each other wherever the literal stands. Behind a
written literal a source goes on as it would alone, whatever it is: all of its items are the same, and
each stands behind the literal and the front of the source that it stood behind. The other way round a
literal is written as it was read, a tab within it apart, which can stand in a literal as it is and is
written as an escape (`quoted_of_literalBody`).
-/

namespace ApiScenario

open Lexer Piece

/-! ## Literals as they are written -/

namespace Literal

/-- A text with every tab in it written as an escape. -/
def escapeTabs (cs : List Char) : List Char :=
  cs.flatMap fun c => if c = '\t' then ['\\', 't'] else [c]

theorem notMem_quoted (s : List Char) : '\n' ∉ quoted s := by
  have hbody : '\n' ∉ escape s := (literalBody_escape s).notMem_lineFeed
  simp [quoted, hbody]

/-- What stands for itself in a literal is written as it is, unless it is a tab. -/
theorem escapeChar_plain {c : Char} (h : c ∉ ['"', '\\', '\n', '\r']) :
    escapeChar c = if c = '\t' then ['\\', 't'] else [c] := by
  unfold escapeChar
  split <;> simp_all

/-- What a letter behind a backslash stands for is written with that letter. -/
theorem escapeChar_escaped {letter c : Char} (h : (letter, c) ∈ escapes) :
    escapeChar c = ['\\', letter] ∧ letter ≠ '\t' := by
  simp only [escapes, List.mem_cons, Prod.mk.injEq, List.not_mem_nil, or_false] at h
  rcases h with ⟨rfl, rfl⟩ | ⟨rfl, rfl⟩ | ⟨rfl, rfl⟩ | ⟨rfl, rfl⟩ | ⟨rfl, rfl⟩ <;>
    exact ⟨rfl, by decide⟩

theorem escape_of_literalBody {body value : List Char} (h : LiteralBody body value) :
    escape value = escapeTabs body := by
  induction h with
  | nil => rfl
  | plain hc _ ih =>
    rw [escape_cons, ih, escapeChar_plain hc]
    rfl
  | escaped hletter _ ih =>
    obtain ⟨hchar, htab⟩ := escapeChar_escaped hletter
    rw [escape_cons, ih, hchar]
    simp [escapeTabs, htab]

/-- **A literal is written as it was read**, tabs apart. -/
theorem quoted_of_literalBody {body value : List Char} (h : LiteralBody body value) :
    quoted value = escapeTabs ('"' :: (body ++ ['"'])) := by
  rw [quoted, escape_of_literalBody h]
  simp [escapeTabs]

end Literal

/-! ## Literals in a source -/

/-- The end of a row is a row. -/
theorem Piece.Row.of_append {ps qs : List Piece} {rest : List Char} (h : Row (ps ++ qs) rest) :
    Row qs rest := by
  induction ps with
  | nil => exact h
  | cons p ps ih =>
    cases h with
    | cons _ _ hrow => exact ih hrow

/-- A token that is not the end of its source has a lexeme, and stands where this begins. -/
theorem exists_lexeme_of_mem_lex {source : String} {t : Token} (h : .ok t ∈ lex source)
    (hkind : t.kind ≠ .eof) :
    ∃ before lexeme after, source.toList = before ++ (lexeme ++ after) ∧
      Lexeme lexeme after t.kind ∧ t.position = .behind before := by
  obtain ⟨ps, tail, left, last, hsource, hrow, hscan, hending⟩ := scan_split .start source.toList
  rw [lex, hscan, List.mem_append, List.mem_singleton] at h
  rcases h with h | rfl
  · obtain ⟨u, hu, he⟩ := List.mem_map.mp h
    cases he
    obtain ⟨before, p, after, rfl, rfl⟩ := exists_piece_of_mem_tokens hu
    cases hrow.of_append with
    | cons _ hlexeme _ =>
      exact ⟨_, _, _, hsource.trans (texts_around before after p _), hlexeme,
        Position.start_after _⟩
  · cases hending with
    | complete => exact absurd rfl hkind

/-- **Writing and reading literals are inverse in any context.** A written literal before any source is
read as its text, and the items of the source follow: each of them stands behind some front of the
source, and now behind the literal and this front. A literal that is read anywhere in a source is the
one that is written for its text, but for tabs. -/
theorem literal_roundtrip :
    (∀ s r : String, ∃ fronts : List (List Char),
      List.Forall₂ (fun x front => Lexed.place x = .behind front ∧ front <+: r.toList)
        (lex r) fronts ∧
      lex (String.ofList (Literal.quoted s.toList) ++ r)
        = .ok ⟨.str s, .start⟩ ::
          List.zipWith (fun x front => x.movedTo (.behind (Literal.quoted s.toList ++ front)))
            (lex r) fronts) ∧
    (∀ (source t : String) (place : Position), .ok ⟨.str t, place⟩ ∈ lex source →
      ∃ before lexeme after, source.toList = before ++ (lexeme ++ after) ∧ place = .behind before ∧
        Lexeme lexeme after (.str t) ∧ Literal.quoted t.toList = Literal.escapeTabs lexeme) := by
  constructor
  · intro s r
    have hlexeme : Lexeme (TokenKind.str s).spelling r.toList (.str s) :=
      lexeme_spelling (k := .str s) trivial r.toList fun _ _ => rfl
    obtain ⟨fronts, -, hbehind, hscan⟩ := scan_fronts .start r.toList
    have hplaces : ∀ x front, Lexed.Behind .start r.toList x front →
        Lexed.place x = .behind front ∧ front <+: r.toList :=
      fun x front h => ⟨h.place_eq.trans (Position.start_after front), h.isPrefix⟩
    refine ⟨fronts, hbehind.imp hplaces, ?_⟩
    show scan .start (String.ofList (Literal.quoted s.toList) ++ r).toList = _
    rw [String.toList_append, String.toList_ofList]
    refine (scan_piece .start .nil hlexeme).trans (congrArg _ ((hscan _).trans ?_))
    simp only [← Position.start_after, Position.after_append]
    rfl
  · intro source t place h
    obtain ⟨before, lexeme, after, hsource, hlexeme, hplace⟩ :=
      exists_lexeme_of_mem_lex h (by simp)
    refine ⟨before, lexeme, after, hsource, hplace, hlexeme, ?_⟩
    generalize hkind : TokenKind.str t = kind at hlexeme
    cases hlexeme with
    | str hbody =>
      cases hkind
      rw [String.toList_ofList]
      exact Literal.quoted_of_literalBody hbody
    | _ => cases hkind

/-- An escaped quote and a comment mark stay in their literal, and what follows is not drawn into it. A
literal with a tab is written with an escape in its place. -/
theorem literal_roundtrip_hostile :
    (∃ fronts : List (List Char),
      List.Forall₂ (fun x front => Lexed.place x = .behind front ∧ front <+: "\"open".toList)
        (lex "\"open") fronts ∧
      [.ok ⟨.str "\\\"/*\n", ⟨1, 1⟩⟩, .error ⟨⟨1, 11⟩, '"', "unterminated string literal"⟩]
        = (.ok ⟨.str "\\\"/*\n", .start⟩ : Lexed) ::
          List.zipWith (fun x front =>
            x.movedTo (.behind (Literal.quoted "\\\"/*\n".toList ++ front))) (lex "\"open") fronts) ∧
    .ok ⟨.str "\t\n", ⟨1, 3⟩⟩ ∈ lex "x \"\t\\n\" y" ∧
    ∃ before lexeme after, "x \"\t\\n\" y".toList = before ++ (lexeme ++ after) ∧
      ⟨1, 3⟩ = Position.behind before ∧ Lexeme lexeme after (.str "\t\n") ∧
      Literal.quoted "\t\n".toList = Literal.escapeTabs lexeme := by
  have hread : lex (String.ofList (Literal.quoted "\\\"/*\n".toList) ++ "\"open")
      = [.ok ⟨.str "\\\"/*\n", ⟨1, 1⟩⟩,
        .error ⟨⟨1, 11⟩, '"', "unterminated string literal"⟩] := by
    decide +kernel
  have hmem : .ok ⟨.str "\t\n", ⟨1, 3⟩⟩ ∈ lex "x \"\t\\n\" y" := by decide +kernel
  obtain ⟨fronts, hfronts, hlex⟩ := literal_roundtrip.1 "\\\"/*\n" "\"open"
  exact ⟨⟨fronts, hfronts, hread.symm.trans hlex⟩, hmem, literal_roundtrip.2 _ _ _ hmem⟩

end ApiScenario
