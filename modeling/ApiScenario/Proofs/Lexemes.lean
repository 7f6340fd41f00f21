import ApiScenario.Proofs.Gaps
import ApiScenario.Proofs.TokenStream

/-!
# Lexemes

What the tokens of a text look like, told without the lexer. A lexeme is read together with what
follows it, since words and numerals reach as far as they can.

The lexer cuts off what is a lexeme (`cut_of_lexeme`), and what it cuts off is one
(`lexeme_of_cut`).
-/

namespace ApiScenario

open Lexer

/-! ## Fronts that reach as far as they can -/

/-- A front of a text that has a property, and that no longer front with the property continues. -/
def Longest (P : List Char → Prop) (front rest : List Char) : Prop :=
  P front ∧ ∀ more, more <+: rest → P (front ++ more) → more = []

/-- If a property only asks for characters of a class, the longest front ends before the first
character outside of it. -/
theorem longest_iff {P : List Char → Prop} {p : Char → Bool} {front : List Char}
    (h : P front → ∀ more, P (front ++ more) ↔ ∀ c ∈ more, p c = true) (rest : List Char) :
    Longest P front rest ↔ P front ∧ ∀ c, rest.head? = some c → p c = false := by
  constructor
  · rintro ⟨hfront, hlongest⟩
    refine ⟨hfront, ?_⟩
    intro c hc
    cases hp : p c with
    | false => rfl
    | true =>
      have hmore : P (front ++ [c]) := by
        rw [h hfront]
        intro d hd
        rwa [List.mem_singleton.mp hd]
      have hprefix : [c] <+: rest := by
        obtain ⟨tail, rfl⟩ := List.head?_eq_some_iff.mp hc
        exact ⟨tail, rfl⟩
      cases hlongest [c] hprefix hmore
  · rintro ⟨hfront, hout⟩
    refine ⟨hfront, ?_⟩
    intro more hprefix hmore
    cases more with
    | nil => rfl
    | cons c more =>
      have hin : p c = true := (h hfront _).mp hmore c (by simp)
      have hhead : rest.head? = some c := by
        obtain ⟨tail, rfl⟩ := hprefix
        rfl
      rw [hout c hhead] at hin
      cases hin

/-! ## What tokens look like -/

/-- A letter or underscore, then letters, digits and underscores. -/
def IsWord (cs : List Char) : Prop := Identifier.isIdentifier cs = true

/-- A digit or more, after a minus sign or none. -/
inductive Numeral : List Char → Prop
  | plain {d : Char} {ds : List Char} :
      d.isDigit = true → (∀ e ∈ ds, e.isDigit = true) → Numeral (d :: ds)
  | minus {d : Char} {ds : List Char} :
      d.isDigit = true → (∀ e ∈ ds, e.isDigit = true) → Numeral ('-' :: d :: ds)

/-- The letters that can follow a backslash, and what they stand for. -/
def escapes : List (Char × Char) :=
  [('"', '"'), ('\\', '\\'), ('n', '\n'), ('r', '\r'), ('t', '\t')]

/-- What stands between the quotes of a literal, and the text that it means. -/
inductive LiteralBody : List Char → List Char → Prop
  | nil : LiteralBody [] []
  | plain {c : Char} {body value : List Char} :
      c ∉ ['"', '\\', '\n', '\r'] → LiteralBody body value → LiteralBody (c :: body) (c :: value)
  | escaped {letter c : Char} {body value : List Char} :
      (letter, c) ∈ escapes → LiteralBody body value →
      LiteralBody ('\\' :: letter :: body) (c :: value)

/-- A lexeme, what follows it, and the token that it is read as. -/
inductive Lexeme : List Char → List Char → TokenKind → Prop
  | keyword {rest : List Char} (k : Keyword) :
      Longest IsWord k.word.toList rest → Lexeme k.word.toList rest (.keyword k)
  | ident {rest : List Char} {name : String} :
      Longest IsWord name.toList rest → (∀ k : Keyword, k.word ≠ name) →
      Lexeme name.toList rest (.ident name)
  | int {cs rest : List Char} :
      Longest Numeral cs rest →
      -9223372036854775808 ≤ Decimal.value cs → Decimal.value cs ≤ 9223372036854775807 →
      Lexeme cs rest (.int (Int64.ofInt (Decimal.value cs)))
  | str {body value rest : List Char} :
      LiteralBody body value → Lexeme ('"' :: (body ++ ['"'])) rest (.str (String.ofList value))
  | punct {rest : List Char} (p : Punct) : Lexeme [p.char] rest (.punct p)

/-! ## Words -/

theorem longestWord_iff (front rest : List Char) :
    Longest IsWord front rest ↔
      IsWord front ∧ ∀ c, rest.head? = some c → Identifier.isNext c = false := by
  refine longest_iff ?_ rest
  intro hfront more
  cases front with
  | nil => cases hfront
  | cons c cs =>
    simp only [IsWord, Identifier.isIdentifier, Bool.and_eq_true, List.all_eq_true] at hfront
    simp only [IsWord, List.cons_append, Identifier.isIdentifier, Bool.and_eq_true,
      List.all_eq_true, List.forall_mem_append, hfront.1, true_and]
    exact and_iff_right hfront.2

/-- Letters come behind digits. -/
theorem le_toNat_of_isAlpha {c : Char} (h : c.isAlpha = true) : 'A'.toNat ≤ c.toNat := by
  rcases Bool.or_eq_true_iff.mp (show (c.isUpper || c.isLower) = true from h) with hupper | hlower
  · exact (of_decide_eq_true hupper).1
  · have hle : 'a'.toNat ≤ c.toNat := of_decide_eq_true (Bool.and_eq_true_iff.mp hlower).1
    exact Nat.le_trans (by decide) hle

theorem isDigit_of_isFirst {c : Char} (h : Identifier.isFirst c = true) : c.isDigit = false := by
  rw [Identifier.isFirst, Bool.or_eq_true, beq_iff_eq] at h
  rcases h with halpha | rfl
  · rw [← Bool.not_eq_true, Char.isDigit_iff_toNat]
    rintro ⟨-, hle⟩
    exact absurd (Nat.le_trans (le_toNat_of_isAlpha halpha) hle) (by decide)
  · rfl

/-- A character that begins a word begins nothing else. -/
theorem cut_eq_cutWord {c : Char} (h : Identifier.isFirst c = true) (cs : List Char) :
    cut c cs = cutWord c cs := by
  have hquote : c ≠ '"' := by rintro rfl; cases h
  have hslash : c ≠ '/' := by rintro rfl; cases h
  have hminus : c ≠ '-' := by rintro rfl; cases h
  have hint : beginsInteger c cs = false := by
    simp [beginsInteger, isDigit_of_isFirst h, hminus]
  simp [cut, hquote, hslash, hint, h]

theorem cut_word {word rest : List Char} (h : Longest IsWord word rest) :
    ∃ c cs, word ++ rest = c :: cs ∧ cut c cs = .token (wordKind (String.ofList word)) word rest := by
  obtain ⟨hword, hout⟩ := (longestWord_iff word rest).mp h
  cases word with
  | nil => cases hword
  | cons c cs =>
    simp only [IsWord, Identifier.isIdentifier, Bool.and_eq_true, List.all_eq_true] at hword
    obtain ⟨htake, hdrop⟩ := takeWhile_append_of_boundary rest hword.2 hout
    refine ⟨c, cs ++ rest, rfl, ?_⟩
    rw [cut_eq_cutWord hword.1, cutWord, htake, hdrop]

theorem wordKind_keyword (k : Keyword) : wordKind k.word = .keyword k := by
  rw [wordKind, Keyword.ofWord?_word]

theorem wordKind_ident {name : String} (h : ∀ k : Keyword, k.word ≠ name) :
    wordKind name = .ident name := by
  unfold wordKind
  split
  · next k hk => exact absurd (Keyword.word_of_ofWord? hk) (h k)
  · rfl

/-- A word is the lexeme of its keyword or its name. -/
theorem lexeme_word {word rest : List Char} (h : Longest IsWord word rest) :
    Lexeme word rest (wordKind (String.ofList word)) := by
  unfold wordKind
  split
  · next k hk =>
    have hword : k.word.toList = word := by
      rw [Keyword.word_of_ofWord? hk, String.toList_ofList]
    rw [← hword] at h ⊢
    exact .keyword k h
  · next hk =>
    have hne : ∀ k : Keyword, k.word ≠ String.ofList word := by
      rintro k he
      rw [← he, Keyword.ofWord?_word] at hk
      cases hk
    have hlexeme : Lexeme (String.ofList word).toList rest (.ident (String.ofList word)) :=
      .ident (by rwa [String.toList_ofList]) hne
    rwa [String.toList_ofList] at hlexeme

/-! ## Numerals -/

theorem numeral_cons_iff {d : Char} (hd : d.isDigit = true) (ds : List Char) :
    Numeral (d :: ds) ↔ ∀ e ∈ ds, e.isDigit = true := by
  constructor
  · intro h
    cases h with
    | plain _ hall => exact hall
    | minus => cases hd
  · exact fun hall => .plain hd hall

theorem numeral_minus_iff {d : Char} (hd : d.isDigit = true) (ds : List Char) :
    Numeral ('-' :: d :: ds) ↔ ∀ e ∈ ds, e.isDigit = true := by
  constructor
  · intro h
    cases h with
    | plain hminus => cases hminus
    | minus _ hall => exact hall
  · exact fun hall => .minus hd hall

theorem longestNumeral_iff (front rest : List Char) :
    Longest Numeral front rest ↔
      Numeral front ∧ ∀ c, rest.head? = some c → c.isDigit = false := by
  refine longest_iff ?_ rest
  intro hfront more
  have hsplit : ∀ ds : List Char, (∀ e ∈ ds, e.isDigit = true) →
      ((∀ e ∈ ds ++ more, e.isDigit = true) ↔ ∀ c ∈ more, c.isDigit = true) := by
    intro ds hds
    rw [List.forall_mem_append]
    exact and_iff_right hds
  cases hfront with
  | plain hd hds => rw [← hsplit _ hds, List.cons_append, numeral_cons_iff hd]
  | minus hd hds => rw [← hsplit _ hds, List.cons_append, List.cons_append, numeral_minus_iff hd]

/-- A digit, or a minus sign before a digit, begins nothing but a numeral. -/
theorem cut_eq_cutInteger {c : Char} {cs : List Char} (h : beginsInteger c cs = true) :
    cut c cs = cutInteger c cs := by
  have hquote : c ≠ '"' := by rintro rfl; cases h
  have hslash : c ≠ '/' := by rintro rfl; cases h
  simp [cut, hquote, hslash, h]

theorem read?_eq_some_iff (cs : List Char) (n : Int64) :
    Decimal.read? cs = some n ↔
      -9223372036854775808 ≤ Decimal.value cs ∧ Decimal.value cs ≤ 9223372036854775807 ∧
        n = Int64.ofInt (Decimal.value cs) := by
  have hmin : Int64.minValue.toInt = -9223372036854775808 := by decide
  have hmax : Int64.maxValue.toInt = 9223372036854775807 := by decide
  unfold Decimal.read? Decimal.fit?
  rw [hmin, hmax]
  split
  · next h => simp [h, eq_comm]
  · next h =>
    rw [← and_assoc]
    simp [h]

theorem cut_numeral {cs rest : List Char} {n : Int64} (h : Longest Numeral cs rest)
    (hn : Decimal.read? cs = some n) :
    ∃ d ds, cs ++ rest = d :: ds ∧ cut d ds = .token (.int n) cs rest := by
  obtain ⟨hnum, hout⟩ := (longestNumeral_iff cs rest).mp h
  cases hnum with
  | @plain d ds hd hds =>
    obtain ⟨htake, hdrop⟩ := takeWhile_append_of_boundary rest hds hout
    refine ⟨d, ds ++ rest, rfl, ?_⟩
    rw [cut_eq_cutInteger (by simp [beginsInteger, hd])]
    simp only [cutInteger, htake, hdrop, hn]
  | @minus d ds hd hds =>
    have hall : ∀ e ∈ d :: ds, e.isDigit = true := List.forall_mem_cons.mpr ⟨hd, hds⟩
    obtain ⟨htake, hdrop⟩ := takeWhile_append_of_boundary rest hall hout
    refine ⟨'-', d :: ds ++ rest, rfl, ?_⟩
    rw [cut_eq_cutInteger (by simp [beginsInteger, hd])]
    simp only [cutInteger, htake, hdrop, hn]

/-- A digit, or a minus sign before a digit, and the digits behind it are a numeral that reaches as
far as it can. -/
theorem longestNumeral_of_begins {c : Char} {cs : List Char} (h : beginsInteger c cs = true) :
    Longest Numeral (c :: cs.takeWhile Char.isDigit) (cs.dropWhile Char.isDigit) := by
  refine (longestNumeral_iff _ _).mpr ⟨?_, boundary_dropWhile Char.isDigit cs⟩
  simp only [beginsInteger, Bool.or_eq_true, Bool.and_eq_true, beq_iff_eq] at h
  rcases h with hdigit | ⟨rfl, hhead⟩
  · exact .plain hdigit mem_takeWhile
  · cases cs with
    | nil => cases hhead
    | cons d ds =>
      have hd : d.isDigit = true := hhead
      rw [List.takeWhile_cons_of_pos hd]
      exact .minus hd mem_takeWhile

theorem lexeme_numeral {c : Char} {cs : List Char} {n : Int64} (h : beginsInteger c cs = true)
    (hn : Decimal.read? (c :: cs.takeWhile Char.isDigit) = some n) :
    Lexeme (c :: cs.takeWhile Char.isDigit) (cs.dropWhile Char.isDigit) (.int n) := by
  obtain ⟨hmin, hmax, rfl⟩ := (read?_eq_some_iff _ n).mp hn
  exact .int (longestNumeral_of_begins h) hmin hmax

/-! ## Literals -/

theorem unescapeChar?_eq_some_iff (letter c : Char) :
    Literal.unescapeChar? letter = some c ↔ (letter, c) ∈ escapes := by
  unfold Literal.unescapeChar? escapes
  split <;> simp_all [eq_comm]

/-- What can stand between the quotes of a literal, whether or not it means a text. -/
inductive Enclosed : List Char → Prop
  | nil : Enclosed []
  | plain {c : Char} {body : List Char} :
      c ∉ ['"', '\\', '\n', '\r'] → Enclosed body → Enclosed (c :: body)
  | escaped {c : Char} {body : List Char} : Enclosed body → Enclosed ('\\' :: c :: body)

/-- A literal is closed by the first quote that no backslash stands before. -/
theorem Enclosed.close? {body : List Char} (h : Enclosed body) (rest : List Char) :
    Literal.close? (body ++ '"' :: rest) = some (body, rest) := by
  induction h with
  | nil => rfl
  | plain hc _ ih =>
    simp only [List.mem_cons, List.not_mem_nil, or_false, not_or] at hc
    obtain ⟨hquote, hslash, hn, hr⟩ := hc
    rw [List.cons_append, Literal.close?_cons hslash hquote hn hr, ih]
    rfl
  | escaped _ ih =>
    rw [List.cons_append, List.cons_append, Literal.close?, ih]
    rfl

theorem enclosed_of_close? {cs body rest : List Char}
    (h : Literal.close? cs = some (body, rest)) : Enclosed body := by
  fun_induction Literal.close? cs generalizing body rest with
  | case1 => cases h
  | case2 r =>
    cases h
    exact .nil
  | case3 c r ih =>
    obtain ⟨⟨b, r'⟩, hb, he⟩ := Option.map_eq_some_iff.mp h
    cases he
    exact .escaped (ih hb)
  | case4 => cases h
  | case5 => cases h
  | case6 => cases h
  | case7 c r hquote hmore hend hn hr ih =>
    obtain ⟨⟨b, r'⟩, hb, he⟩ := Option.map_eq_some_iff.mp h
    cases he
    refine .plain ?_ (ih hb)
    simp only [List.mem_cons, List.not_mem_nil, or_false, not_or]
    exact ⟨hquote, ne_backslash hmore hend, hn, hr⟩

theorem LiteralBody.enclosed {body value : List Char} (h : LiteralBody body value) :
    Enclosed body := by
  induction h with
  | nil => exact .nil
  | plain hc _ ih => exact .plain hc ih
  | escaped _ _ ih => exact .escaped ih

/-- What can be read stays in its line. -/
theorem LiteralBody.notMem_lineFeed {body value : List Char} (h : LiteralBody body value) :
    '\n' ∉ body := by
  induction h with
  | nil => simp
  | plain hc _ ih =>
    rw [List.mem_cons, not_or]
    exact ⟨fun he => hc (by simp [← he]), ih⟩
  | escaped hletter _ ih =>
    rw [List.mem_cons, List.mem_cons, not_or, not_or]
    refine ⟨by decide, ?_, ih⟩
    rintro rfl
    simp [escapes] at hletter

theorem LiteralBody.unescapeFrom {body value : List Char} (h : LiteralBody body value) :
    ∀ offset, Literal.unescapeFrom offset body = .ok value := by
  induction h with
  | nil => intro offset; rfl
  | plain hc _ ih =>
    intro offset
    simp only [List.mem_cons, List.not_mem_nil, or_false, not_or] at hc
    rw [Literal.unescapeFrom_cons hc.2.1, ih]
    rfl
  | escaped hletter _ ih =>
    intro offset
    rw [Literal.unescapeFrom, (unescapeChar?_eq_some_iff _ _).mpr hletter]
    dsimp only
    rw [ih]
    rfl

theorem map_eq_ok {ε α β : Type} {x : Except ε α} {f : α → β} {b : β} (h : x.map f = .ok b) :
    ∃ a, x = .ok a ∧ f a = b := by
  cases x with
  | error e => cases h
  | ok a => exact ⟨a, rfl, Except.ok.inj h⟩

/-- What has been closed and read is the body of a literal. -/
theorem Enclosed.literalBody {body : List Char} (h : Enclosed body) :
    ∀ {offset : Nat} {value : List Char}, Literal.unescapeFrom offset body = .ok value →
      LiteralBody body value := by
  induction h with
  | nil =>
    intro offset value hread
    cases hread
    exact .nil
  | @plain c body hc _ ih =>
    intro offset value hread
    have hslash : c ≠ '\\' := fun he => hc (by simp [he])
    rw [Literal.unescapeFrom_cons hslash] at hread
    obtain ⟨v, hv, rfl⟩ := map_eq_ok hread
    exact .plain hc (ih hv)
  | @escaped letter body _ ih =>
    intro offset value hread
    rw [Literal.unescapeFrom] at hread
    split at hread
    · next d hd =>
      obtain ⟨v, hv, rfl⟩ := map_eq_ok hread
      exact .escaped ((unescapeChar?_eq_some_iff letter d).mp hd) (ih hv)
    · cases hread

/-! ## All tokens -/

theorem not_gap_of_class {p : Char → Bool} {c : Char} (hc : p c = true)
    (hp : [' ', '\t', '\r', '\n', '/'].any p = false) : isBlank c = false ∧ c ≠ '/' := by
  have hne : ∀ d ∈ [' ', '\t', '\r', '\n', '/'], c ≠ d := by
    rintro d hd rfl
    exact List.any_eq_false.mp hp c hd hc
  refine ⟨?_, hne '/' (by simp)⟩
  rw [← Bool.not_eq_true, isBlank_iff]
  intro hblank
  exact hne c (List.mem_append_left ['/'] hblank) rfl

/-- The first character of a lexeme is neither a blank nor a slash. -/
theorem Lexeme.eq_cons {lexeme rest : List Char} {kind : TokenKind} (h : Lexeme lexeme rest kind) :
    ∃ c cs, lexeme = c :: cs ∧ isBlank c = false ∧ c ≠ '/' := by
  have hword : ∀ {word : List Char}, Longest IsWord word rest →
      ∃ c cs, word = c :: cs ∧ isBlank c = false ∧ c ≠ '/' := by
    rintro word ⟨hword, -⟩
    cases word with
    | nil => cases hword
    | cons c cs =>
      simp only [IsWord, Identifier.isIdentifier, Bool.and_eq_true] at hword
      exact ⟨c, cs, rfl, not_gap_of_class hword.1 rfl⟩
  cases h with
  | keyword k hk => exact hword hk
  | ident hname => exact hword hname
  | int hnum =>
    cases hnum.1 with
    | plain hd => exact ⟨_, _, rfl, not_gap_of_class hd rfl⟩
    | minus => exact ⟨'-', _, rfl, rfl, by decide⟩
  | str => exact ⟨'"', _, rfl, rfl, by decide⟩
  | punct p => exact ⟨p.char, [], rfl, by cases p <;> rfl, by cases p <;> decide⟩

theorem Lexeme.ne_nil {lexeme rest : List Char} {kind : TokenKind} (h : Lexeme lexeme rest kind) :
    lexeme ≠ [] := by
  obtain ⟨c, cs, rfl, -⟩ := h.eq_cons
  simp

/-- Nothing is skipped before a lexeme. -/
theorem Lexeme.solid {lexeme rest : List Char} {kind : TokenKind} (h : Lexeme lexeme rest kind) :
    Solid (lexeme ++ rest) := by
  obtain ⟨c, cs, rfl, hblank, hslash⟩ := h.eq_cons
  exact Solid.cons hblank hslash (cs ++ rest)

/-- **The lexer cuts off a lexeme and reads it as its token.** -/
theorem cut_of_lexeme {lexeme rest : List Char} {kind : TokenKind} (h : Lexeme lexeme rest kind) :
    ∃ c cs, lexeme ++ rest = c :: cs ∧ cut c cs = .token kind lexeme rest := by
  cases h with
  | keyword k hk =>
    obtain ⟨c, cs, happ, hcut⟩ := cut_word hk
    rw [String.ofList_toList, wordKind_keyword] at hcut
    exact ⟨c, cs, happ, hcut⟩
  | ident hname hne =>
    obtain ⟨c, cs, happ, hcut⟩ := cut_word hname
    rw [String.ofList_toList, wordKind_ident hne] at hcut
    exact ⟨c, cs, happ, hcut⟩
  | int hnum hmin hmax => exact cut_numeral hnum ((read?_eq_some_iff _ _).mpr ⟨hmin, hmax, rfl⟩)
  | @str body value _ hbody =>
    refine ⟨'"', body ++ '"' :: rest, by simp, ?_⟩
    have hread : Literal.unescape body = .ok value := hbody.unescapeFrom 0
    rw [cut, if_pos rfl]
    simp only [cutLiteral, hbody.enclosed.close? rest, hread]
  | punct p => exact ⟨p.char, rest, rfl, by cases p <;> rfl⟩

/-- **What the lexer cuts off and reads as a token is a lexeme of the token.** -/
theorem lexeme_of_cut {c : Char} {cs lexeme rest : List Char} {kind : TokenKind}
    (h : cut c cs = .token kind lexeme rest) : Lexeme lexeme rest kind := by
  obtain ⟨-, body, value, hclose, hread, rfl, rfl⟩ | ⟨hint, n, rfl, rfl, hn, rfl⟩ |
    ⟨hfirst, rfl, rfl, rfl⟩ | ⟨p, hp, rfl, rfl, rfl⟩ := cut_token h
  · exact .str ((enclosed_of_close? hclose).literalBody hread)
  · exact lexeme_numeral hint hn
  · refine lexeme_word ((longestWord_iff _ _).mpr ⟨?_, boundary_dropWhile _ cs⟩)
    simp only [IsWord, Identifier.isIdentifier, hfirst, Bool.true_and]
    exact List.all_takeWhile
  · rw [← Punct.char_of_ofChar? hp]
    exact .punct p

end ApiScenario
