import Mathlib.Data.List.Forall2
import ApiScenario.Proofs.LexicalFaults

/-!
# Where tokens stand

Every item of a stream of tokens stands behind a front of its text, and each front goes further than
the ones before it, since tokens have at least one character (`scan_fronts`). In a text of fewer than
`2 ^ 32` characters places are exact, so the items stand in the order of the text, no two of them at
the same place (`pairwise_places`). Only its end can be too far away to be told.
-/

namespace ApiScenario

open Lexer Piece

namespace Piece

/-! ## The tokens of pieces -/

/-- The text around the lexeme of a piece. -/
theorem texts_around (before after : List Piece) (p : Piece) (rest : List Char) :
    texts (before ++ p :: after) ++ rest
      = (texts before ++ p.gap) ++ (p.lexeme ++ (texts after ++ rest)) := by
  simp [texts]

theorem length_tokens (place : Position) (ps : List Piece) :
    (tokens place ps).length = ps.length := by
  have h := congrArg List.length (map_kind_tokens place ps)
  rwa [List.length_map, List.length_map] at h

theorem tokens_append (place : Position) (ps qs : List Piece) :
    tokens place (ps ++ qs) = tokens place ps ++ tokens (place.after (texts ps)) qs := by
  induction ps generalizing place with
  | nil => rfl
  | cons p ps ih =>
    rw [List.cons_append, tokens, tokens, ih, texts_cons, Position.after_append,
      Position.after_append]
    rfl

/-- The token of a piece stands behind the pieces before it and its gap. -/
theorem getElem?_tokens (place : Position) (before after : List Piece) (p : Piece) :
    (tokens place (before ++ p :: after))[before.length]?
      = some ⟨p.kind, place.after (texts before ++ p.gap)⟩ := by
  have hlength := length_tokens place before
  rw [tokens_append, tokens, List.getElem?_append_right (Nat.le_of_eq hlength), hlength,
    Nat.sub_self, Position.after_append]
  rfl

/-- Every token is that of a piece. -/
theorem exists_piece_of_mem_tokens {place : Position} {ps : List Piece} {t : Token}
    (h : t ∈ tokens place ps) :
    ∃ before p after, ps = before ++ p :: after ∧
      t = ⟨p.kind, place.after (texts before ++ p.gap)⟩ := by
  obtain ⟨i, hi⟩ := List.mem_iff_getElem?.mp h
  obtain ⟨hlt, -⟩ := List.getElem?_eq_some_iff.mp hi
  rw [length_tokens] at hlt
  have hsplit : ps = ps.take i ++ ps[i] :: ps.drop (i + 1) := by
    rw [← List.drop_eq_getElem_cons hlt, List.take_append_drop]
  have hget := getElem?_tokens place (ps.take i) (ps.drop (i + 1)) ps[i]
  rw [← hsplit, List.length_take, Nat.min_eq_left (Nat.le_of_lt hlt), hi] at hget
  exact ⟨_, _, _, hsplit, Option.some.inj hget⟩

end Piece

/-! ## Fronts of a text -/

namespace Lexed

/-- Where an item of a stream of tokens stands. -/
def place : Lexed → Position
  | .ok t => t.position
  | .error e => e.position

/-- An item at another place. -/
def movedTo (q : Position) : Lexed → Lexed
  | .ok t => .ok { t with position := q }
  | .error e => .error { e with position := q }

end Lexed

/-- A text goes on behind one of its fronts. -/
def Reaches (front text : List Char) : Prop := ∃ more, more ≠ [] ∧ text = front ++ more

theorem Reaches.append_left {front text : List Char} (h : Reaches front text) (seen : List Char) :
    Reaches (seen ++ front) (seen ++ text) := by
  obtain ⟨more, hmore, rfl⟩ := h
  exact ⟨more, hmore, (List.append_assoc seen front more).symm⟩

/-- An item of a text that begins at `p` stands behind a front of the text. Only the end of the text
stands behind all of it. -/
structure Lexed.Behind (p : Position) (text : List Char) (x : Lexed) (front : List Char) : Prop where
  place_eq : x.place = p.after front
  within : Reaches front text ∨ (front = text ∧ ∃ q, x = .ok ⟨.eof, q⟩)

theorem Lexed.Behind.append {p : Position} {text front : List Char} {x : Lexed} (seen : List Char)
    (h : x.Behind (p.after seen) text front) : x.Behind p (seen ++ text) (seen ++ front) where
  place_eq := by rw [h.place_eq, Position.after_append]
  within := h.within.imp (·.append_left seen) fun ⟨hfront, hend⟩ => ⟨hfront ▸ rfl, hend⟩

theorem Lexed.Behind.isPrefix {p : Position} {text front : List Char} {x : Lexed}
    (h : x.Behind p text front) : front <+: text := by
  rcases h.within with ⟨more, -, rfl⟩ | ⟨rfl, -⟩
  · exact List.prefix_append front more
  · exact List.prefix_refl front

/-- **Items stand behind fronts of their text, each of which goes further than those before it**, and
do not depend on where the text begins but for their places. -/
theorem scan_fronts (p : Position) (cs : List Char) :
    ∃ fronts : List (List Char), fronts.Pairwise Reaches ∧
      List.Forall₂ (Lexed.Behind p cs) (scan p cs) fronts ∧
      ∀ q, scan q cs
        = List.zipWith (fun x front => x.movedTo (q.after front)) (scan p cs) fronts := by
  fun_induction scan p cs with
  | case1 p cs place hleft =>
    have hskip : (trivia cs).1 = cs := by
      have happ := trivia_append cs
      rwa [hleft, List.append_nil] at happ
    refine ⟨[cs], List.pairwise_singleton _ _, .cons ⟨?_, .inr ⟨rfl, _, rfl⟩⟩ .nil, fun q => ?_⟩
    · exact congrArg p.after hskip
    · rw [scan_end hleft, hskip]
      rfl
  | case2 p cs place c rest hleft kind lexeme rest' hcut ih =>
    -- What follows a token begins behind its lexeme, which has a first character.
    obtain ⟨fronts, hpairwise, hbehind, hscan⟩ := ih
    obtain ⟨more, rfl, happ⟩ := cut_front hcut
    have hcs : cs = (trivia cs).1 ++ (c :: more) ++ rest' := by
      have hsplit := trivia_append cs
      rw [hleft, ← happ] at hsplit
      rw [List.append_assoc]
      exact hsplit.symm
    refine ⟨(trivia cs).1 :: fronts.map ((trivia cs).1 ++ (c :: more) ++ ·), ?_, ?_, fun q => ?_⟩
    · rw [List.pairwise_cons, List.pairwise_map]
      refine ⟨?_, hpairwise.imp fun h => h.append_left _⟩
      intro front hfront
      obtain ⟨later, -, rfl⟩ := List.mem_map.mp hfront
      exact ⟨c :: more ++ later, List.cons_ne_nil _ _, List.append_assoc _ _ _⟩
    · refine .cons ⟨rfl, .inl ⟨c :: more ++ rest', List.cons_ne_nil _ _, ?_⟩⟩ ?_
      · rw [← List.append_assoc]
        exact hcs
      · rw [List.forall₂_map_right_iff]
        refine hbehind.imp fun x front h => ?_
        have hplace : (place.after (c :: more)) = p.after ((trivia cs).1 ++ (c :: more)) :=
          (Position.after_append p _ _).symm
        rw [hplace] at h
        have hwhole := h.append
        rwa [← hcs] at hwhole
    · rw [scan_token hleft hcut, hscan, List.zipWith_cons_cons, List.zipWith_map_right]
      simp only [Position.after_append]
      rfl
  | case3 p cs place c rest hleft offset found fault hcut =>
    have hsolid := solid_trivia cs
    rw [hleft] at hsolid
    obtain ⟨front, hfaulty, hlength, hline⟩ := faulty_of_cut hsolid hcut
    obtain ⟨d, after, hpiece, -⟩ := hfaulty.exists_rest hsolid
    have hmove : ∀ q : Position,
        (q.after (trivia cs).1).moveRight offset = q.after ((trivia cs).1 ++ front) := by
      intro q
      rw [← hlength, ← Position.after_of_notMem hline, Position.after_append]
    refine ⟨[(trivia cs).1 ++ front], List.pairwise_singleton _ _,
      .cons ⟨hmove p, .inl ⟨d :: after, List.cons_ne_nil _ _, ?_⟩⟩ .nil, fun q => ?_⟩
    · have happ := trivia_append cs
      rw [hleft, hpiece, ← List.append_assoc] at happ
      exact happ.symm
    · rw [scan_fault hleft hcut, hmove]
      rfl

/-! ## The order of items -/

theorem exists_of_forall₂ {α β : Type} {R : α → β → Prop} {as : List α} {bs : List β}
    (h : List.Forall₂ R as bs) : ∀ a ∈ as, ∃ b ∈ bs, R a b := by
  induction h with
  | nil => simp
  | cons hab _ ih =>
    intro x hx
    rcases List.mem_cons.mp hx with rfl | hx
    · exact ⟨_, List.mem_cons_self, hab⟩
    · obtain ⟨b, hb, hxb⟩ := ih x hx
      exact ⟨b, List.mem_cons_of_mem _ hb, hxb⟩

/-- Items are in the order in which the fronts go on. -/
theorem pairwise_of_forall₂ {α β : Type} {R : α → β → Prop} {S : β → β → Prop} {as : List α}
    {bs : List β} (h : List.Forall₂ R as bs) (hbs : bs.Pairwise S) :
    as.Pairwise fun x y => ∃ b c, R x b ∧ R y c ∧ S b c := by
  induction h with
  | nil => exact .nil
  | cons hab hrest ih =>
    rw [List.pairwise_cons] at hbs ⊢
    refine ⟨fun y hy => ?_, ih hbs.2⟩
    obtain ⟨c, hc, hyc⟩ := exists_of_forall₂ hrest y hy
    exact ⟨_, c, hab, hyc, hbs.1 c hc⟩

/-- An item of a text that is short enough is exactly where it stands, unless it is an end that cannot
be told. -/
theorem Lexed.Behind.standsBehind {text front : List Char} {x : Lexed}
    (h : x.Behind .start text front) (hsize : text.length < UInt32.size)
    (hend : (∃ q, x = .ok ⟨.eof, q⟩) → ¬ Position.EndsBeyond text) :
    x.place.StandsBehind front := by
  rw [h.place_eq, Position.start_after]
  rcases h.within with ⟨more, hmore, rfl⟩ | ⟨rfl, hx⟩
  · exact Position.standsBehind_of_append hmore hsize
  · exact (Position.behind_iff hsize).mpr (hend hx)

/-- **Items of a text stand in its order**, if it is short enough and an end that cannot be told is not
among them. -/
theorem pairwise_places {source : String} (hsize : source.length < UInt32.size)
    {items : List Lexed} (hitems : items.Sublist (lex source))
    (hend : ∀ q, .ok ⟨.eof, q⟩ ∈ items → ¬ Position.EndsBeyond source.toList) :
    (items.map Lexed.place).Pairwise (· < ·) := by
  obtain ⟨fronts, hpairwise, hbehind, -⟩ := scan_fronts .start source.toList
  rw [← String.length_toList] at hsize
  have hexact : ∀ x ∈ items, (∃ q, x = .ok ⟨.eof, q⟩) → ¬ Position.EndsBeyond source.toList := by
    rintro x hx ⟨q, rfl⟩
    exact hend q hx
  rw [List.pairwise_map]
  refine ((pairwise_of_forall₂ hbehind hpairwise).sublist hitems).imp_of_mem ?_
  rintro x y hx hy ⟨front, later, hfront, hlater, more, hmore, rfl⟩
  exact Position.lt_of_standsBehind hmore (hfront.standsBehind hsize (hexact x hx))
    (hlater.standsBehind hsize (hexact y hy))

/-- The tokens in front of something that cannot be read stand before it. -/
theorem lt_of_lex_error {source : String} {ts : List Token} {e : LexicalError}
    (hsize : source.length < UInt32.size) (h : lex source = ts.map .ok ++ [.error e]) :
    ∀ t ∈ ts, t.position < e.position := by
  have hplaces := pairwise_places hsize (List.Sublist.refl _) fun q hq => ?_
  · rw [h, List.map_append, List.pairwise_append, List.map_map] at hplaces
    exact fun t ht => hplaces.2.2 _ (List.mem_map_of_mem ht) _ List.mem_cons_self
  · -- The end of the text is not among the items.
    rw [h, List.mem_append, List.mem_singleton] at hq
    rcases hq with hq | hq
    · obtain ⟨t, ht, he⟩ := List.mem_map.mp hq
      cases he
      exact absurd rfl (ne_eof_of_lex_error h _ ht)
    · cases hq

/-- **The places of tokens are exact.** Take a source of fewer than `2 ^ 32` characters. Each token
stands behind all of the source that comes before its lexeme, and the end of the source behind all of
it, unless it is just beyond what can be told in 32 bits. The places increase from item to item, such
an end apart. -/
theorem token_places_exact (source : String) (hsize : source.length < UInt32.size) :
    ∃ (ps : List Piece) (tail left : List Char) (ts : List Token) (last : Lexed),
      source.toList = texts ps ++ (tail ++ left) ∧ Row ps (tail ++ left) ∧
      lex source = ts.map .ok ++ [last] ∧ ts.length = ps.length ∧
      (∀ before p after, ps = before ++ p :: after → ∃ place,
        ts[before.length]? = some ⟨p.kind, place⟩ ∧ place.StandsBehind (texts before ++ p.gap)) ∧
      ((LastGap tail ∧ left = [] ∧ ∃ place, last = .ok ⟨.eof, place⟩ ∧
          place = .behind source.toList ∧
          (place.StandsBehind source.toList ↔ ¬ Position.EndsBeyond source.toList)) ∨
        (Gap tail ∧ Stuck left ∧ ∃ e, last = .error e)) ∧
      (ts.map Token.position).Pairwise (· < ·) ∧
      (left ≠ [] ∨ ¬ Position.EndsBeyond source.toList →
        ((lex source).map Lexed.place).Pairwise (· < ·)) := by
  obtain ⟨ps, tail, left, last, hsource, hrow, hscan, hending⟩ := scan_split .start source.toList
  have hlex : lex source = (tokens .start ps).map .ok ++ [last] := hscan
  have hne_eof : ∀ q, (.ok ⟨.eof, q⟩ : Lexed) ∉ (tokens .start ps).map .ok := by
    intro q hmem
    obtain ⟨t, ht, he⟩ := List.mem_map.mp hmem
    cases he
    exact hrow.kind_tokens_ne_eof .start _ ht rfl
  refine ⟨ps, tail, left, tokens .start ps, last, hsource, hrow, hlex, length_tokens _ _, ?_, ?_, ?_,
    ?_⟩
  · rintro before p after rfl
    refine ⟨.behind (texts before ++ p.gap), ?_, ?_⟩
    · rw [getElem?_tokens, Position.start_after]
    · have hlexeme : p.lexeme ≠ [] := hrow.lexeme_ne_nil p (by simp)
      rw [← String.length_toList, hsource, texts_around] at hsize
      exact Position.standsBehind_of_append (List.append_ne_nil_of_left_ne_nil hlexeme _) hsize
  · cases hending with
    | complete htail =>
      have hplace : (Position.start.after (texts ps)).after tail = .behind source.toList := by
        rw [hsource, List.append_nil, ← Position.after_append, Position.start_after]
      rw [hplace]
      exact .inl ⟨htail, rfl, _, rfl, rfl,
        Position.behind_iff (String.length_toList.symm ▸ hsize)⟩
    | failed htail hstuck _ => exact .inr ⟨htail, hstuck, _, rfl⟩
  · have hsub : ((tokens .start ps).map .ok).Sublist (lex source) :=
      hlex ▸ List.sublist_append_left _ _
    have hplaces := pairwise_places hsize hsub fun q hq => absurd hq (hne_eof q)
    rwa [List.map_map] at hplaces
  · intro hfar
    refine pairwise_places hsize (List.Sublist.refl _) fun q hq => ?_
    rw [hlex, List.mem_append, List.mem_singleton] at hq
    have hlast := hq.resolve_left (hne_eof q)
    cases hending with
    | complete => exact hfar.resolve_left fun h => h rfl
    | failed => cases hlast

/-- Carriage returns and tabs are columns, and the lines of a comment are counted. -/
theorem token_places_exact_comment :
    let source := "\r\ta\r\n/*é\n\n*/b\r"
    source.length < UInt32.size ∧
    lex source = [.ok ⟨.ident "a", ⟨1, 3⟩⟩, .ok ⟨.ident "b", ⟨4, 3⟩⟩, .ok ⟨.eof, ⟨4, 5⟩⟩] ∧
    ∃ (ps : List Piece) (ts : List Token) (last : Lexed),
      lex source = ts.map .ok ++ [last] ∧ ts.length = ps.length ∧
      (∀ before p after, ps = before ++ p :: after → ∃ place,
        ts[before.length]? = some ⟨p.kind, place⟩ ∧ place.StandsBehind (texts before ++ p.gap)) ∧
      (ts.map Token.position).Pairwise (· < ·) := by
  intro source
  have hsize : source.length < UInt32.size := by decide
  have hlex : lex source =
      [.ok ⟨.ident "a", ⟨1, 3⟩⟩, .ok ⟨.ident "b", ⟨4, 3⟩⟩, .ok ⟨.eof, ⟨4, 5⟩⟩] := by
    decide +kernel
  obtain ⟨ps, -, -, ts, last, -, -, hitems, hlength, hplaces, -, hpairwise, -⟩ :=
    token_places_exact source hsize
  exact ⟨hsize, hlex, ps, ts, last, hitems, hlength, hplaces, hpairwise⟩

/-! ## Sources that are too long -/

theorem gap_spaces (n : Nat) : Gap (List.replicate n ' ') := by
  induction n with
  | zero => exact .nil
  | succ n ih => exact .cons (.blank (by decide)) ih

/-- A closing brace in front of anything. -/
theorem row_brace (rest : List Char) : Row [⟨[], ['\x7d'], .punct .closeBrace⟩] rest :=
  .cons .nil (.punct .closeBrace) .nil

/-- Where one line of spaces behind a brace ends. -/
theorem start_after_spaces (n : Nat) :
    Position.start.after ('\x7d' :: List.replicate n ' ') = ⟨1, .ofNat (n + 2)⟩ := by
  have hline : '\n' ∉ '\x7d' :: List.replicate n ' ' := by simp
  have hcolumn : UInt32.ofNat (n + 2) = 1 + UInt32.ofNat (n + 1) := by
    rw [show n + 2 = 1 + (n + 1) by omega]
    exact UInt32.ofNat_add 1 (n + 1)
  rw [Position.after_of_notMem hline, Position.moveRight, List.length_cons, List.length_replicate,
    hcolumn]
  rfl

theorem lex_brace_spaces (n : Nat) :
    lex (String.ofList ('\x7d' :: List.replicate n ' '))
      = [.ok ⟨.punct .closeBrace, ⟨1, 1⟩⟩, .ok ⟨.eof, ⟨1, .ofNat (n + 2)⟩⟩] := by
  rw [lex, String.toList_ofList, ← start_after_spaces]
  exact scan_row_lastGap (row_brace _) (.closed (gap_spaces n)) .start

/-- **The end of the longest line that is short enough is told wrong.** Its column is `2 ^ 32`, which
is not there in 32 bits, so the end stands before what it ends. -/
theorem end_of_longest_line_misplaced :
    let source := String.ofList ('\x7d' :: List.replicate 4294967294 ' ')
    source.length < UInt32.size ∧
    lex source = [.ok ⟨.punct .closeBrace, ⟨1, 1⟩⟩, .ok ⟨.eof, ⟨1, 0⟩⟩] ∧
    ¬ Position.StandsBehind ⟨1, 0⟩ source.toList ∧
    ¬ ((lex source).map Lexed.place).Pairwise (· < ·) := by
  have hlex := lex_brace_spaces 4294967294
  have hsize : (String.ofList ('\x7d' :: List.replicate 4294967294 ' ')).length < UInt32.size := by
    rw [String.length_ofList, List.length_cons, List.length_replicate]
    decide
  have hend : ¬ Position.StandsBehind ⟨1, 0⟩
      (String.ofList ('\x7d' :: List.replicate 4294967294 ' ')).toList := by
    rintro ⟨-, hcolumn⟩
    have hzero : (0 : UInt32).toNat = 0 := rfl
    rw [hzero] at hcolumn
    omega
  refine ⟨hsize, hlex, hend, ?_⟩
  rw [hlex]
  decide

end ApiScenario
