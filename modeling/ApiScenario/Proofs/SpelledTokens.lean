import ApiScenario.Proofs.SourceSplit
import ApiScenario.Token.Spelling

/-!
# Spelled tokens are read again

Tokens that are spelled one after the other, with any gaps between them, are read as the tokens that
they are (`tokenize_laidOut`). A gap can be empty except where two tokens would run together: a word
would take in letters, digits and underscores, and an integer would take in digits.
-/

namespace ApiScenario

open Lexer

/-! ## Tokens that can be spelled -/

/-- A name is an identifier and no keyword. -/
def IsName (name : String) : Prop :=
  Identifier.isIdentifier name.toList = true ∧ ∀ k : Keyword, k.word ≠ name

theorem isName_of_ofWord? {name : String} (h : Identifier.isIdentifier name.toList = true)
    (hnone : Keyword.ofWord? name = none) : IsName name := by
  refine ⟨h, ?_⟩
  rintro k rfl
  rw [Keyword.ofWord?_word] at hnone
  cases hnone

namespace TokenKind

/-- All tokens with names that are names have a spelling, the end of a text apart. -/
def IsSpelled : TokenKind → Prop
  | eof => False
  | ident name => IsName name
  | keyword _ => True
  | str _ => True
  | int _ => True
  | punct _ => True

/-- Whether a character directly behind a token would be read as part of it. -/
def takesIn : TokenKind → Char → Bool
  | keyword _, c => Identifier.isNext c
  | ident _, c => Identifier.isNext c
  | int _, c => c.isDigit
  | str _, _ => false
  | punct _, _ => false
  | eof, _ => false

/-- Whether two tokens run together when there is no gap between them. -/
def sticksTo (k next : TokenKind) : Bool := next.spelling.head?.any k.takesIn

end TokenKind

theorem numeral_digits (n : Nat) :
    ∃ d ds, Nat.toDigits 10 n = d :: ds ∧ d.isDigit = true ∧ ∀ e ∈ ds, e.isDigit = true := by
  have hall : ∀ c ∈ Nat.toDigits 10 n, c.isDigit = true :=
    fun c hc => Nat.isDigit_of_mem_toDigits (by omega) (by omega) hc
  obtain ⟨d, ds, hd⟩ := List.exists_cons_of_ne_nil (Nat.toDigits_ne_nil (n := n) (b := 10))
  rw [hd] at hall
  exact ⟨d, ds, hd, hall d (by simp), fun e he => hall e (by simp [he])⟩

theorem numeral_chars (n : Int64) : Numeral (Decimal.chars n) := by
  obtain ⟨d, ds, hdigits, hd, hds⟩ := numeral_digits n.toInt.natAbs
  unfold Decimal.chars Decimal.ofInt
  rw [hdigits]
  split
  · exact .minus hd hds
  · exact .plain hd hds

theorem literalBody_escape (s : List Char) : LiteralBody (Literal.escape s) s := by
  induction s with
  | nil => exact .nil
  | cons c s ih =>
    rw [Literal.escape_cons]
    rcases Literal.escapeChar_cases c with ⟨he, hslash, hquote, hn, hr⟩ | ⟨d, he, hd⟩
    · rw [he]
      refine .plain ?_ ih
      simp [hslash, hquote, hn, hr]
    · rw [he]
      exact .escaped ((unescapeChar?_eq_some_iff d c).mp hd) ih

/-- A keyword is a word. -/
theorem isWord_keyword (k : Keyword) : IsWord k.word.toList := by
  unfold IsWord
  cases k <;> decide +kernel

/-- **The spelling of a token is a lexeme of it, unless what follows would be taken in.** -/
theorem lexeme_spelling {k : TokenKind} (hk : k.IsSpelled) (rest : List Char)
    (hout : ∀ c, rest.head? = some c → k.takesIn c = false) : Lexeme k.spelling rest k := by
  cases k with
  | keyword k => exact .keyword k ((longestWord_iff _ _).mpr ⟨isWord_keyword k, hout⟩)
  | ident name => exact .ident ((longestWord_iff _ _).mpr ⟨hk.1, hout⟩) hk.2
  | str value =>
    have hlexeme : Lexeme ('"' :: (Literal.escape value.toList ++ ['"'])) rest
        (.str (String.ofList value.toList)) := .str (literalBody_escape value.toList)
    rwa [String.ofList_toList] at hlexeme
  | int n =>
    have hvalue : Decimal.value (Decimal.chars n) = n.toInt := Decimal.value_ofInt n.toInt
    have hmin : -9223372036854775808 ≤ n.toInt := Int64.minValue_le_toInt n
    have hmax : n.toInt ≤ 9223372036854775807 := Int64.toInt_le n
    have hlexeme : Lexeme (Decimal.chars n) rest
        (.int (Int64.ofInt (Decimal.value (Decimal.chars n)))) :=
      .int ((longestNumeral_iff _ _).mpr ⟨numeral_chars n, hout⟩) (by rwa [hvalue]) (by rwa [hvalue])
    rwa [hvalue, Int64.ofInt_toInt] at hlexeme
  | punct p => exact .punct p
  | eof => exact hk.elim

theorem spelling_ne_nil {k : TokenKind} (hk : k.IsSpelled) : k.spelling ≠ [] :=
  (lexeme_spelling hk [] (by simp)).ne_nil

/-! ## Gaps that are wide enough -/

/-- Spelled tokens, each with the gap behind it, after a first gap. -/
def laidOut (gap : List Char) : List (TokenKind × List Char) → List Char
  | [] => gap
  | (k, next) :: rest => gap ++ (k.spelling ++ laidOut next rest)

/-- Tokens that can be spelled, with gaps between them that are empty only where the two tokens around
them do not run together. -/
inductive WellSpaced : List Char → List (TokenKind × List Char) → Prop
  | last {gap : List Char} : LastGap gap → WellSpaced gap []
  | token {gap next : List Char} {k : TokenKind} {rest : List (TokenKind × List Char)} :
      Gap gap → k.IsSpelled →
      (∀ k' next' rest', rest = (k', next') :: rest' → k.sticksTo k' = true → next ≠ []) →
      WellSpaced next rest → WellSpaced gap ((k, next) :: rest)

theorem Gap.head {gap : List Char} (h : Gap gap) {c : Char} (hc : gap.head? = some c) :
    c = '/' ∨ isBlank c = true := by
  cases h with
  | nil => cases hc
  | cons hunit _ =>
    cases hunit with
    | blank hblank =>
      cases hc
      exact .inr (isBlank_iff.mpr hblank)
    | line => cases hc; exact .inl rfl
    | block => cases hc; exact .inl rfl

theorem LastGap.head {gap : List Char} (h : LastGap gap) {c : Char} (hc : gap.head? = some c) :
    c = '/' ∨ isBlank c = true := by
  cases h with
  | closed h => exact h.head hc
  | @line front text h =>
    cases front with
    | nil => cases hc; exact .inl rfl
    | cons d front => exact h.head hc

/-- No token takes in a gap. -/
theorem takesIn_eq_false {c : Char} (h : c = '/' ∨ isBlank c = true) (k : TokenKind) :
    k.takesIn c = false := by
  rw [isBlank_iff] at h
  simp only [List.mem_cons, List.not_mem_nil, or_false] at h
  rcases h with rfl | rfl | rfl | rfl | rfl <;> cases k <;> rfl

/-- What follows a token that stands well spaced is not taken in by it. -/
theorem takesIn_laidOut {k : TokenKind} {next : List Char} {rest : List (TokenKind × List Char)}
    (hwide : ∀ k' next' rest', rest = (k', next') :: rest' → k.sticksTo k' = true → next ≠ [])
    (h : WellSpaced next rest) :
    ∀ c, (laidOut next rest).head? = some c → k.takesIn c = false := by
  intro c hc
  cases h with
  | last hgap => exact takesIn_eq_false (hgap.head hc) k
  | @token _ next' k' rest' hgap hk' _ _ =>
    cases next with
    | cons d next =>
      exact takesIn_eq_false (hgap.head hc) k
    | nil =>
      -- Without a gap the next character is the first of the next token.
      obtain ⟨d, ds, hd⟩ := List.exists_cons_of_ne_nil (spelling_ne_nil hk')
      have hsticks : k.sticksTo k' = false := by
        rw [← Bool.not_eq_true]
        exact fun hs => hwide k' next' rest' rfl hs rfl
      rw [laidOut, List.nil_append, hd] at hc
      cases hc
      simpa [TokenKind.sticksTo, hd] using hsticks

/-- Well spaced tokens are a row of pieces. -/
theorem row_laidOut {gap : List Char} {ks : List (TokenKind × List Char)} (h : WellSpaced gap ks) :
    ∃ ps tail, laidOut gap ks = Piece.texts ps ++ tail ∧ Piece.Row ps tail ∧ LastGap tail ∧
      ps.map Piece.kind = ks.map Prod.fst := by
  induction h with
  | @last gap hgap => exact ⟨[], gap, rfl, .nil, hgap, rfl⟩
  | @token gap next k rest hgap hk hwide hrest ih =>
    obtain ⟨ps, tail, htext, hrow, htail, hkinds⟩ := ih
    have hlexeme := lexeme_spelling hk (laidOut next rest) (takesIn_laidOut hwide hrest)
    rw [htext] at hlexeme
    refine ⟨⟨gap, k.spelling, k⟩ :: ps, tail, ?_, .cons hgap hlexeme hrow, htail, ?_⟩
    · rw [laidOut, htext]
      simp
    · rw [List.map_cons, List.map_cons, hkinds]

/-- **Lexing undoes spelling, whatever stands between the tokens.** -/
theorem tokenize_laidOut (gap : List Char) (ks : List (TokenKind × List Char))
    (h : WellSpaced gap ks) :
    ∃ ts, tokenize (String.ofList (laidOut gap ks)) = .ok ts ∧
      ts.map Token.kind = ks.map Prod.fst ++ [.eof] := by
  obtain ⟨ps, tail, htext, hrow, htail, hkinds⟩ := row_laidOut h
  obtain ⟨ts, htokens, hts⟩ := tokenize_row hrow htail
  refine ⟨ts, ?_, ?_⟩
  · rw [htext, htokens]
  · rw [hts, hkinds]

/-- Where nothing forces a gap there need not be one, and comments end where they are closed first. -/
theorem tokenize_laidOut_crowded :
    ∃ ts, tokenize "/***/12-5 a-5/*/*/test-9223372036854775808\"/*\\\"\"//\r\"\"test//x" = .ok ts ∧
      ts.map Token.kind = [.int 12, .int (-5), .ident "a", .int (-5), .keyword .test,
        .int (-9223372036854775808), .str "/*\"", .str "", .keyword .test, .eof] := by
  have hstars : GapUnit ('/' :: '*' :: (['*'] ++ ['*', '/'])) := .block (by decide)
  have hslash : GapUnit ('/' :: '*' :: (['/'] ++ ['*', '/'])) := .block (by decide)
  have hline : GapUnit ('/' :: '/' :: ([] ++ ['\r'])) := .line (by simp) (by simp) (by simp)
  have hlast : LastGap ([] ++ '/' :: '/' :: ['x']) := .line .nil (by decide) (by decide)
  have hname : (TokenKind.ident "a").IsSpelled :=
    isName_of_ofWord? (by decide +kernel) (by decide +kernel)
  have hspaced : WellSpaced ['/', '*', '*', '*', '/'] [(.int 12, []), (.int (-5), [' ']),
      (.ident "a", []), (.int (-5), ['/', '*', '/', '*', '/']), (.keyword .test, []),
      (.int (-9223372036854775808), []), (.str "/*\"", ['/', '/', '\r']), (.str "", []),
      (.keyword .test, ['/', '/', 'x'])] :=
    .token hstars.gap trivial (by rintro _ _ _ ⟨⟩; decide) <|
    .token .nil trivial (by rintro _ _ _ ⟨⟩; decide) <|
    .token (GapUnit.blank (by decide)).gap hname (by rintro _ _ _ ⟨⟩; decide) <|
    .token .nil trivial (by rintro _ _ _ ⟨⟩; decide) <|
    .token hslash.gap trivial (by rintro _ _ _ ⟨⟩; decide) <|
    .token .nil trivial (by rintro _ _ _ ⟨⟩; decide) <|
    .token .nil trivial (by rintro _ _ _ ⟨⟩; decide) <|
    .token hline.gap trivial (by rintro _ _ _ ⟨⟩; decide) <|
    .token .nil trivial (by rintro _ _ _ ⟨⟩) <|
    .last hlast
  obtain ⟨ts, htokens, hkinds⟩ := tokenize_laidOut _ _ hspaced
  refine ⟨ts, ?_, hkinds⟩
  rw [← htokens]
  congr 1

end ApiScenario
