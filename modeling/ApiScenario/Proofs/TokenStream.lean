import ApiScenario.Token.Lexer

/-!
# The stream of tokens

What every stream of tokens looks like, whatever the text is: tokens, none of which is the end of
the text, and after them one last item, the end of the text or the piece that is no token
(`scan_shape`). Names come from words, so they are identifiers (`scan_ident`).
-/

namespace ApiScenario.Lexer

/-! ## One token -/

/-- What a token at the front of a text is: a literal, an integer, a word or a mark. -/
theorem cut_token {c : Char} {cs lexeme rest : List Char} {kind : TokenKind}
    (h : cut c cs = .token kind lexeme rest) :
    (c = '"' ∧ ∃ body value, Literal.close? cs = some (body, rest) ∧
      Literal.unescape body = .ok value ∧ kind = .str (String.ofList value) ∧
      lexeme = '"' :: (body ++ ['"'])) ∨
    (beginsInteger c cs = true ∧ ∃ n, lexeme = c :: cs.takeWhile Char.isDigit ∧
      rest = cs.dropWhile Char.isDigit ∧ Decimal.read? lexeme = some n ∧ kind = .int n) ∨
    (Identifier.isFirst c = true ∧ lexeme = c :: cs.takeWhile Identifier.isNext ∧
      rest = cs.dropWhile Identifier.isNext ∧ kind = wordKind (String.ofList lexeme)) ∨
    (∃ p, Punct.ofChar? c = some p ∧ kind = .punct p ∧ lexeme = [c] ∧ rest = cs) := by
  unfold cut at h
  split at h
  · next hquote =>
    unfold cutLiteral at h
    split at h
    · cases h
    · next body rest' hclose =>
      split at h
      · next value hvalue =>
        cases h
        exact .inl ⟨hquote, body, value, hclose, hvalue, rfl, rfl⟩
      · cases h
  · split at h
    · cases h
    · split at h
      · next hint =>
        unfold cutInteger at h
        dsimp only at h
        split at h
        · next n hn =>
          cases h
          exact .inr (.inl ⟨hint, n, rfl, rfl, hn, rfl⟩)
        · cases h
      · split at h
        · next hfirst =>
          cases h
          exact .inr (.inr (.inl ⟨hfirst, rfl, rfl, rfl⟩))
        · unfold cutMark at h
          split at h
          · next p hp =>
            cases h
            exact .inr (.inr (.inr ⟨p, hp, rfl, rfl, rfl⟩))
          · cases h

/-- A character of a literal is no backslash if it is none before another character and none at the
end. -/
theorem ne_backslash {c : Char} {rest : List Char}
    (hmore : ∀ d tail, c = '\\' → rest = d :: tail → False) (hend : c = '\\' → rest = [] → False) :
    c ≠ '\\' := by
  intro hc
  cases rest with
  | nil => exact hend hc rfl
  | cons d tail => exact hmore d tail hc rfl

/-- A word is a keyword or a name, and a name is spelled like the word. -/
theorem wordKind_cases (w : String) : (∃ k, wordKind w = .keyword k) ∨ wordKind w = .ident w := by
  unfold wordKind
  split
  · next k _ => exact .inl ⟨k, rfl⟩
  · exact .inr rfl

/-- No piece of text stands for the end of the text. -/
theorem cut_ne_eof {c : Char} {cs lexeme rest : List Char} {kind : TokenKind}
    (h : cut c cs = .token kind lexeme rest) : kind ≠ .eof := by
  obtain ⟨-, _, _, -, -, rfl, -⟩ | ⟨-, _, -, -, -, rfl⟩ | ⟨-, -, -, hk⟩ | ⟨_, -, rfl, -, -⟩ :=
    cut_token h
  · simp
  · simp
  · rcases wordKind_cases (String.ofList lexeme) with ⟨k, hw⟩ | hw <;> simp [hk, hw]
  · simp

/-- A name is an identifier. -/
theorem cut_ident {c : Char} {cs lexeme rest : List Char} {name : String}
    (h : cut c cs = .token (.ident name) lexeme rest) :
    Identifier.isIdentifier name.toList = true := by
  obtain ⟨-, _, _, -, -, hk, -⟩ | ⟨-, _, -, -, -, hk⟩ | ⟨hfirst, rfl, -, hk⟩ | ⟨_, -, hk, -, -⟩ :=
    cut_token h
  · cases hk
  · cases hk
  · rcases wordKind_cases (String.ofList (c :: cs.takeWhile Identifier.isNext)) with ⟨k, hw⟩ | hw
    · rw [hw] at hk; cases hk
    · rw [hw] at hk
      cases hk
      rw [String.toList_ofList, Identifier.isIdentifier, hfirst, Bool.true_and]
      exact List.all_takeWhile
  · cases hk

/-! ## One step of scanning -/

/-- A text that is skipped whole has no token but its end. -/
theorem scan_end {p : Position} {cs : List Char} (h : (trivia cs).2 = []) :
    scan p cs = [.ok ⟨.eof, p.after (trivia cs).1⟩] := by
  rw [scan]
  split
  · rfl
  · next he => rw [h] at he; cases he

theorem scan_token {p : Position} {cs rest lexeme rest' : List Char} {c : Char} {kind : TokenKind}
    (h : (trivia cs).2 = c :: rest) (hcut : cut c rest = .token kind lexeme rest') :
    scan p cs = .ok ⟨kind, p.after (trivia cs).1⟩ ::
      scan ((p.after (trivia cs).1).after lexeme) rest' := by
  rw [scan]
  split
  · next he => rw [h] at he; cases he
  · next he =>
    rw [h] at he
    cases he
    split
    · next hc => rw [hcut] at hc; cases hc; rfl
    · next hc => rw [hcut] at hc; cases hc

theorem scan_fault {p : Position} {cs rest : List Char} {c found : Char} {offset : Nat}
    {fault : Fault} (h : (trivia cs).2 = c :: rest) (hcut : cut c rest = .fault offset found fault) :
    scan p cs = [.error ⟨(p.after (trivia cs).1).moveRight offset, found, fault.reason⟩] := by
  rw [scan]
  split
  · next he => rw [h] at he; cases he
  · next he =>
    rw [h] at he
    cases he
    split
    · next hc => rw [hcut] at hc; cases hc
    · next hc => rw [hcut] at hc; cases hc; rfl

/-! ## All tokens -/

/-- **A stream of tokens ends with the end of the text or with an error, and has neither
before.** -/
theorem scan_shape (p : Position) (cs : List Char) :
    ∃ (ts : List Token) (last : Lexed), scan p cs = ts.map .ok ++ [last] ∧
      (∀ t ∈ ts, t.kind ≠ .eof) ∧ (∀ t, last = .ok t → t.kind = .eof) := by
  fun_induction scan p cs with
  | case1 p cs place _ =>
    refine ⟨[], .ok ⟨.eof, place⟩, rfl, by simp, ?_⟩
    rintro t ⟨⟩
    rfl
  | case2 p cs place c rest _ kind lexeme rest' hcut ih =>
    obtain ⟨ts, last, hscan, hts, hlast⟩ := ih
    refine ⟨⟨kind, place⟩ :: ts, last, by rw [hscan]; rfl, ?_, hlast⟩
    intro t ht
    rcases List.mem_cons.mp ht with rfl | ht
    · exact cut_ne_eof hcut
    · exact hts t ht
  | case3 p cs place c rest _ offset found fault _ =>
    refine ⟨[], .error ⟨place.moveRight offset, found, fault.reason⟩, rfl, by simp, ?_⟩
    rintro t ⟨⟩

/-- **Names in a stream of tokens are identifiers.** -/
theorem scan_ident (p : Position) (cs : List Char) {t : Token} {name : String}
    (ht : .ok t ∈ scan p cs) (hk : t.kind = .ident name) :
    Identifier.isIdentifier name.toList = true := by
  fun_induction scan p cs with
  | case1 p cs place _ =>
    cases List.mem_singleton.mp ht
    cases hk
  | case2 p cs place c rest _ kind lexeme rest' hcut ih =>
    rcases List.mem_cons.mp ht with he | ht
    · cases he
      cases hk
      exact cut_ident hcut
    · exact ih ht
  | case3 p cs place c rest _ offset found fault _ => cases List.mem_singleton.mp ht

/-- All tokens have been collected if there was no error among the items. -/
theorem collect_eq_ok : ∀ {items : List Lexed} {ts : List Token},
    collect items = .ok ts → items = ts.map .ok
  | [], _, h => by cases h; rfl
  | .error _ :: _, _, h => by cases h
  | .ok t :: rest, ts, h => by
    rw [collect] at h
    cases hc : collect rest with
    | error e => rw [hc] at h; cases h
    | ok us =>
      rw [hc] at h
      cases h
      rw [collect_eq_ok hc]
      rfl

theorem collect_map_ok (ts : List Token) : collect (ts.map .ok) = .ok ts := by
  induction ts with
  | nil => rfl
  | cons t ts ih =>
    rw [List.map_cons, collect, ih]
    rfl

/-- The tokens of a text end with the end of the text, which is nowhere else among them. -/
theorem tokenize_shape {source : String} {ts : List Token} (h : tokenize source = .ok ts) :
    lex source = ts.map .ok ∧
      ∃ us e, ts = us ++ [e] ∧ (∀ u ∈ us, u.kind ≠ .eof) ∧ e.kind = .eof := by
  have hlex : lex source = ts.map .ok := collect_eq_ok h
  refine ⟨hlex, ?_⟩
  obtain ⟨us, last, hscan, hus, hlast⟩ := scan_shape .start source.toList
  have heq : ts.map Except.ok = us.map Except.ok ++ [last] := hlex.symm.trans hscan
  obtain ⟨vs, es, rfl, hvs, hes⟩ := List.map_eq_append_iff.mp heq
  obtain ⟨e, rfl, he⟩ := List.map_eq_singleton_iff.mp hes
  obtain rfl : vs = us :=
    (List.map_inj_right (fun _ _ hab => by cases hab; rfl)).mp hvs
  exact ⟨vs, e, rfl, hus, hlast e he.symm⟩

theorem collect_map_error (ts : List Token) (e : LexicalError) :
    collect (ts.map .ok ++ [.error e]) = .error e := by
  induction ts with
  | nil => rfl
  | cons t ts ih =>
    rw [List.map_cons, List.cons_append, collect, ih]
    rfl

/-- Cutting a text fails with its last item, if it fails. -/
theorem tokenize_eq_error_iff {source : String} {e : LexicalError} :
    tokenize source = .error e ↔ ∃ ts : List Token, lex source = ts.map .ok ++ [.error e] := by
  constructor
  · intro h
    obtain ⟨ts, last, hlex, -, -⟩ := scan_shape .start source.toList
    have hcollect : collect (ts.map .ok ++ [last]) = .error e := hlex ▸ h
    cases last with
    | error e' =>
      rw [collect_map_error] at hcollect
      cases hcollect
      exact ⟨ts, hlex⟩
    | ok t =>
      have hok := collect_map_ok (ts ++ [t])
      rw [List.map_append, List.map_singleton, hcollect] at hok
      cases hok
  · rintro ⟨ts, hlex⟩
    rw [tokenize, hlex, collect_map_error]

/-- The end of the text is not among the tokens in front of a piece that is none. -/
theorem ne_eof_of_lex_error {source : String} {ts : List Token} {e : LexicalError}
    (h : lex source = ts.map .ok ++ [.error e]) : ∀ t ∈ ts, t.kind ≠ .eof := by
  obtain ⟨us, last, hlex, hus, -⟩ := scan_shape .start source.toList
  have heq : ts.map Except.ok ++ [.error e] = us.map Except.ok ++ [last] := h.symm.trans hlex
  have hts : ts = us :=
    (List.map_inj_right fun _ _ hab => by cases hab; rfl).mp (List.append_inj' heq rfl).1
  exact hts ▸ hus

end ApiScenario.Lexer
