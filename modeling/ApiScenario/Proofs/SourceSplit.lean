import ApiScenario.Proofs.Lexemes
import ApiScenario.Proofs.TokenGrammar

/-!
# Texts as gaps and lexemes

The lexer loses nothing of a text and adds nothing to it. Every text is a row of pieces, each a gap
and a lexeme, behind which comes its end or something that is neither gap nor lexeme
(`scan_split`). The other way round the tokens of a text can be told from any such row, since there
is only one (`scan_row`).
-/

namespace ApiScenario

open Lexer

/-! ## Rows of pieces -/

/-- A token in its text: the gap before it, its lexeme and what it is read as. -/
structure Piece where
  gap : List Char
  lexeme : List Char
  kind : TokenKind

namespace Piece

/-- The text of pieces in a row. -/
def texts (ps : List Piece) : List Char := ps.flatMap fun p => p.gap ++ p.lexeme

@[simp] theorem texts_nil : texts [] = [] := rfl

@[simp] theorem texts_cons (p : Piece) (ps : List Piece) :
    texts (p :: ps) = p.gap ++ (p.lexeme ++ texts ps) := by
  simp [texts]

/-- Pieces in a row that are what they say they are when `rest` follows. -/
inductive Row : List Piece → List Char → Prop
  | nil {rest : List Char} : Row [] rest
  | cons {p : Piece} {ps : List Piece} {rest : List Char} :
      Gap p.gap → Lexeme p.lexeme (texts ps ++ rest) p.kind → Row ps rest → Row (p :: ps) rest

/-- The tokens of pieces, the first of which begins at `place`. -/
def tokens (place : Position) : List Piece → List Token
  | [] => []
  | p :: ps => ⟨p.kind, place.after p.gap⟩ :: tokens ((place.after p.gap).after p.lexeme) ps

theorem map_kind_tokens (place : Position) (ps : List Piece) :
    (tokens place ps).map Token.kind = ps.map Piece.kind := by
  induction ps generalizing place with
  | nil => rfl
  | cons p ps ih =>
    rw [tokens, List.map_cons, List.map_cons, ih]

/-- Each piece of a row is a lexeme before all that follows it. -/
theorem Row.exists_lexeme {ps : List Piece} {rest : List Char} (h : Row ps rest) :
    ∀ p ∈ ps, ∃ following, Lexeme p.lexeme following p.kind := by
  induction h with
  | nil => simp
  | cons _ hlexeme _ ih =>
    intro q hq
    rcases List.mem_cons.mp hq with rfl | hq
    · exact ⟨_, hlexeme⟩
    · exact ih q hq

theorem Row.lexeme_ne_nil {ps : List Piece} {rest : List Char} (h : Row ps rest) :
    ∀ p ∈ ps, p.lexeme ≠ [] := by
  intro p hp
  obtain ⟨following, hlexeme⟩ := h.exists_lexeme p hp
  exact hlexeme.ne_nil

theorem Row.kind_ne_eof {ps : List Piece} {rest : List Char} (h : Row ps rest) :
    ∀ p ∈ ps, p.kind ≠ .eof := by
  intro p hp
  obtain ⟨following, hlexeme⟩ := h.exists_lexeme p hp
  obtain ⟨c, cs, -, hcut⟩ := cut_of_lexeme hlexeme
  exact cut_ne_eof hcut

/-- The end of a text is not among the tokens of pieces. -/
theorem Row.kind_tokens_ne_eof {ps : List Piece} {rest : List Char} (h : Row ps rest)
    (place : Position) : ∀ t ∈ tokens place ps, t.kind ≠ .eof := by
  intro t ht
  have hkind : t.kind ∈ ps.map Piece.kind := map_kind_tokens place ps ▸ List.mem_map_of_mem ht
  obtain ⟨p, hp, he⟩ := List.mem_map.mp hkind
  exact he ▸ h.kind_ne_eof p hp

end Piece

open Piece

/-! ## Reading a row -/

theorem trivia_gap_lexeme {gap lexeme rest : List Char} {kind : TokenKind} (hgap : Gap gap)
    (hlexeme : Lexeme lexeme rest kind) :
    trivia (gap ++ (lexeme ++ rest)) = (gap, lexeme ++ rest) := by
  rw [trivia_gap_append hgap, trivia_solid hlexeme.solid, List.append_nil]

/-- One piece at the front of a text is one token at the front of its tokens. -/
theorem scan_piece (place : Position) {gap lexeme rest : List Char} {kind : TokenKind}
    (hgap : Gap gap) (hlexeme : Lexeme lexeme rest kind) :
    scan place (gap ++ (lexeme ++ rest))
      = .ok ⟨kind, place.after gap⟩ :: scan ((place.after gap).after lexeme) rest := by
  obtain ⟨c, cs, happ, hcut⟩ := cut_of_lexeme hlexeme
  have hskip := trivia_gap_lexeme hgap hlexeme
  have hleft : (trivia (gap ++ (lexeme ++ rest))).2 = c :: cs := by rw [hskip, happ]
  rw [scan_token hleft hcut, hskip]

/-- **A row of pieces is read piece by piece, whatever follows.** -/
theorem scan_row {ps : List Piece} {rest : List Char} (h : Row ps rest) :
    ∀ place : Position, scan place (texts ps ++ rest)
      = (tokens place ps).map .ok ++ scan (place.after (texts ps)) rest := by
  induction h with
  | nil => intro place; rfl
  | @cons p ps rest hgap hlexeme _ ih =>
    intro place
    rw [texts_cons, List.append_assoc, List.append_assoc, scan_piece place hgap hlexeme, ih]
    simp [tokens]

/-- A row of pieces up to a gap at the end of the text gives all tokens of the text. -/
theorem scan_row_lastGap {ps : List Piece} {tail : List Char} (h : Row ps tail)
    (htail : LastGap tail) (place : Position) :
    scan place (texts ps ++ tail)
      = (tokens place ps).map .ok ++ [.ok ⟨.eof, place.after (texts ps ++ tail)⟩] := by
  have hskip := trivia_lastGap htail
  rw [scan_row h, scan_end (by rw [hskip]), hskip, Position.after_append]

/-- The tokens of a text that is a row of pieces up to its end. -/
theorem tokenize_row {ps : List Piece} {tail : List Char} (h : Row ps tail)
    (htail : LastGap tail) :
    ∃ ts, tokenize (String.ofList (texts ps ++ tail)) = .ok ts ∧
      ts.map Token.kind = ps.map Piece.kind ++ [.eof] := by
  refine ⟨tokens .start ps ++ [⟨.eof, Position.start.after (texts ps ++ tail)⟩], ?_, ?_⟩
  · rw [tokenize, lex, String.toList_ofList, scan_row_lastGap h htail]
    rw [← collect_map_ok, List.map_append]
    rfl
  · rw [List.map_append, map_kind_tokens]
    rfl

/-! ## Every text is a row -/

/-- Something that is neither gap nor lexeme. -/
structure Stuck (left : List Char) : Prop where
  ne_nil : left ≠ []
  solid : Solid left
  noLexeme : ∀ lexeme rest kind, Lexeme lexeme rest kind → left ≠ lexeme ++ rest

/-- What the lexer finds a fault in is no lexeme. -/
theorem stuck_of_cut {c : Char} {cs : List Char} (hsolid : Solid (c :: cs)) {offset : Nat}
    {found : Char} {fault : Fault} (hcut : cut c cs = .fault offset found fault) :
    Stuck (c :: cs) where
  ne_nil := by simp
  solid := hsolid
  noLexeme lexeme rest kind hlexeme he := by
    obtain ⟨d, ds, happ, hcut'⟩ := cut_of_lexeme hlexeme
    rw [← he] at happ
    cases happ
    rw [hcut] at hcut'
    cases hcut'

/-- How a text ends behind its pieces, when the first character behind them stands at `place`: with a
gap, or with a gap and something that cannot be read. -/
inductive Ending (place : Position) : List Char → List Char → Lexed → Prop
  | complete {tail : List Char} :
      LastGap tail → Ending place tail [] (.ok ⟨.eof, place.after tail⟩)
  | failed {tail left : List Char} {e : LexicalError} {n : Nat} :
      Gap tail → Stuck left → e.position = (place.after tail).moveRight n →
      Ending place tail left (.error e)

/-- **A text is a row of pieces up to its end or to something that cannot be read.** -/
theorem scan_split (place : Position) (cs : List Char) :
    ∃ ps tail left last, cs = texts ps ++ (tail ++ left) ∧ Row ps (tail ++ left) ∧
      scan place cs = (tokens place ps).map .ok ++ [last] ∧
      Ending (place.after (texts ps)) tail left last := by
  fun_induction scan place cs with
  | case1 place cs _ hleft =>
    have happ := trivia_append cs
    rw [hleft] at happ
    exact ⟨[], _, [], _, happ.symm, .nil, rfl, .complete (gap_of_trivia cs).1⟩
  | case2 place cs _ c rest hleft kind lexeme rest' hcut ih =>
    -- The row behind the lexeme was found in the text that really follows it, so the lexeme
    -- reaches as far as it can in the longer row too.
    obtain ⟨ps, tail, left, last, rfl, hrow, hscan, hending⟩ := ih
    have hgap : Gap (trivia cs).1 := (gap_of_trivia cs).2 (by simp [hleft])
    have hlexeme := lexeme_of_cut hcut
    obtain ⟨more, rfl, happ⟩ := cut_front hcut
    refine ⟨⟨(trivia cs).1, c :: more, kind⟩ :: ps, tail, left, last, ?_, .cons hgap hlexeme hrow,
      ?_, ?_⟩
    · have hcs := trivia_append cs
      rw [hleft, ← happ] at hcs
      refine hcs.symm.trans ?_
      simp
    · rw [hscan]
      rfl
    · rw [texts_cons, Position.after_append, Position.after_append]
      exact hending
  | case3 place cs _ c rest hleft offset found fault hcut =>
    have happ := trivia_append cs
    rw [hleft] at happ
    have hgap : Gap (trivia cs).1 := (gap_of_trivia cs).2 (by simp [hleft])
    have hsolid := solid_trivia cs
    rw [hleft] at hsolid
    exact ⟨[], _, c :: rest, _, happ.symm, .nil, rfl,
      .failed hgap (stuck_of_cut hsolid hcut) rfl⟩

/-- **The lexer neither drops nor invents text.** The grammar of tokens takes every text. The items
are tokens, one for each piece of the text, and a last one: the end of the text, where nothing but a
gap is left, or an error, where the rest begins with something that cannot be read. -/
theorem lex_splits_source (source : String) :
    (∃ lumps skipped, TokenGrammar.tokens source.toList = some (lumps, skipped) ∧
      lex source = TokenGrammar.items .start skipped lumps) ∧
    ∃ (ps : List Piece) (tail left : List Char) (ts : List Token) (last : Lexed),
      source.toList = texts ps ++ tail ++ left ∧
      Row ps (tail ++ left) ∧ (∀ p ∈ ps, p.lexeme ≠ []) ∧
      lex source = ts.map .ok ++ [last] ∧
      ts.map Token.kind = ps.map Piece.kind ∧ (∀ t ∈ ts, t.kind ≠ .eof) ∧
      ((∃ t, last = .ok t ∧ t.kind = .eof ∧ LastGap tail ∧ left = []) ∨
        (∃ e n, last = .error e ∧ Gap tail ∧ Stuck left ∧
          e.position = (Position.start.after (texts ps ++ tail)).moveRight n)) := by
  constructor
  · obtain ⟨lumps, skipped, htokens, hscan⟩ := TokenGrammar.tokens_eq_some source.toList
    exact ⟨lumps, skipped, htokens, hscan .start⟩
  · obtain ⟨ps, tail, left, last, hsource, hrow, hscan, hending⟩ :=
      scan_split .start source.toList
    refine ⟨ps, tail, left, tokens .start ps, last, ?_, hrow, hrow.lexeme_ne_nil, hscan,
      map_kind_tokens .start ps, hrow.kind_tokens_ne_eof .start, ?_⟩
    · rw [hsource, List.append_assoc]
    · cases hending with
      | complete htail => exact .inl ⟨_, rfl, rfl, htail, rfl⟩
      | @failed _ e n htail hstuck hplace =>
        refine .inr ⟨e, n, rfl, htail, hstuck, ?_⟩
        rw [hplace, Position.after_append]

end ApiScenario
