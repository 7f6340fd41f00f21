import ApiScenario.Token.Lexer

/-!
# Gaps

What stands between tokens, told without the lexer. A gap is a row of blanks and complete comments;
only at the end of a text can a comment to the end of its line go without a line break. A text with
no such thing at its front is solid.

The lexer skips gaps whole (`trivia_gap_append`), skips nothing else (`gap_of_trivia`), and stops
where there is nothing more to skip (`solid_trivia`).
-/

namespace ApiScenario

open Lexer

/-! ## Blanks and comments in a row -/

/-- A blank, a comment up to its line break, or a block comment. -/
inductive GapUnit : List Char → Prop
  | blank {c : Char} : c ∈ [' ', '\t', '\r', '\n'] → GapUnit [c]
  | line {text : List Char} {stop : Char} :
      '\n' ∉ text → '\r' ∉ text → stop ∈ ['\n', '\r'] → GapUnit ('/' :: '/' :: (text ++ [stop]))
  | block {body : List Char} :
      ¬ ['*', '/'] <:+: body → GapUnit ('/' :: '*' :: (body ++ ['*', '/']))

/-- Blanks and complete comments in a row. -/
inductive Gap : List Char → Prop
  | nil : Gap []
  | cons {unit rest : List Char} : GapUnit unit → Gap rest → Gap (unit ++ rest)

/-- A gap at the end of a text, which ends a comment as well as a line break does. -/
inductive LastGap : List Char → Prop
  | closed {gap : List Char} : Gap gap → LastGap gap
  | line {gap text : List Char} :
      Gap gap → '\n' ∉ text → '\r' ∉ text → LastGap (gap ++ '/' :: '/' :: text)

theorem GapUnit.gap {unit : List Char} (h : GapUnit unit) : Gap unit := by
  have hgap := Gap.cons h .nil
  rwa [List.append_nil] at hgap

theorem Gap.append {gap gap' : List Char} (h : Gap gap) (h' : Gap gap') : Gap (gap ++ gap') := by
  induction h with
  | nil => exact h'
  | cons hunit _ ih =>
    rw [List.append_assoc]
    exact .cons hunit ih

theorem Gap.appendLast {gap last : List Char} (h : Gap gap) (h' : LastGap last) :
    LastGap (gap ++ last) := by
  cases h' with
  | closed h' => exact .closed (h.append h')
  | line h' hn hr =>
    rw [← List.append_assoc]
    exact .line (h.append h') hn hr

/-! ## What the lexer skips -/

theorem isBlank_iff {c : Char} : isBlank c = true ↔ c ∈ [' ', '\t', '\r', '\n'] := by
  simp [isBlank, or_assoc]

theorem isInLine_iff {c : Char} : isInLine c = true ↔ c ≠ '\n' ∧ c ≠ '\r' := by
  simp [isInLine]

/-- A text that holds no line break is inside one line. -/
theorem isInLine_of_notMem {text : List Char} (hn : '\n' ∉ text) (hr : '\r' ∉ text) :
    ∀ c ∈ text, isInLine c = true := by
  intro c hc
  rw [isInLine_iff]
  exact ⟨fun he => hn (he ▸ hc), fun he => hr (he ▸ hc)⟩

/-- Any other character is a line break, and so a blank. -/
theorem isInLine_eq_false_iff {c : Char} : isInLine c = false ↔ c ∈ ['\n', '\r'] := by
  simp [isInLine, Classical.or_iff_not_imp_left]

theorem isBlank_of_lineBreak {c : Char} (h : c ∈ ['\n', '\r']) : isBlank c = true := by
  simp only [List.mem_cons, List.not_mem_nil, or_false] at h
  rcases h with rfl | rfl <;> rfl

/-- The longest front of a text inside a class of characters is found by its boundary. -/
theorem takeWhile_append_of_boundary {p : Char → Bool} {front : List Char} (rest : List Char)
    (hin : ∀ c ∈ front, p c = true) (hout : ∀ c, rest.head? = some c → p c = false) :
    (front ++ rest).takeWhile p = front ∧ (front ++ rest).dropWhile p = rest := by
  rw [List.takeWhile_append_of_pos hin, List.dropWhile_append_of_pos hin]
  cases rest with
  | nil => simp
  | cons c rest => simp [hout c rfl]

theorem mem_takeWhile {p : Char → Bool} {cs : List Char} : ∀ c ∈ cs.takeWhile p, p c = true :=
  List.all_eq_true.mp List.all_takeWhile

theorem boundary_dropWhile (p : Char → Bool) (cs : List Char) :
    ∀ c, (cs.dropWhile p).head? = some c → p c = false := by
  intro c hc
  have h := List.head?_dropWhile_not p cs
  rwa [hc] at h

/-- A block comment ends at the first mark that closes it. -/
theorem closeComment?_of_unclosed {body : List Char} (h : ¬ ['*', '/'] <:+: body)
    (rest : List Char) :
    closeComment? (body ++ '*' :: '/' :: rest) = some (body ++ ['*', '/'], rest) := by
  induction body with
  | nil => rfl
  | cons c body ih =>
    have hbody : ¬ ['*', '/'] <:+: body := fun hin => h (List.infix_cons_iff.mpr (.inr hin))
    have hfirst : ∀ tail, c = '*' → body ++ '*' :: '/' :: rest = '/' :: tail → False := by
      rintro tail rfl he
      cases body with
      | nil => cases he
      | cons d body =>
        cases he
        exact h ⟨[], body, rfl⟩
    rw [List.cons_append, closeComment?.eq_3 _ _ hfirst, ih hbody]
    rfl

/-- What is read as the rest of a block comment is a body without the closing mark, and the mark. -/
theorem closeComment?_eq_some {cs body rest : List Char}
    (h : closeComment? cs = some (body, rest)) :
    ∃ inner, body = inner ++ ['*', '/'] ∧ ¬ ['*', '/'] <:+: inner := by
  fun_induction closeComment? cs generalizing body rest with
  | case1 => cases h
  | case2 r =>
    cases h
    exact ⟨[], rfl, by simp⟩
  | case3 c r hfirst ih =>
    obtain ⟨⟨b, r'⟩, hb, he⟩ := Option.map_eq_some_iff.mp h
    cases he
    obtain ⟨inner, rfl, hinner⟩ := ih hb
    refine ⟨c :: inner, rfl, ?_⟩
    intro hin
    rcases List.infix_cons_iff.mp hin with hpre | hin
    · obtain ⟨tail, htail⟩ := hpre
      rw [List.cons_append, List.cons_append, List.cons.injEq] at htail
      obtain ⟨rfl, htail⟩ := htail
      have hr := closeComment?_append hb
      rw [← htail] at hr
      exact hfirst _ rfl hr.symm
    · exact hinner hin

theorem trivia_blank {c : Char} (h : isBlank c = true) (rest : List Char) :
    trivia (c :: rest) = (c :: (trivia rest).1, (trivia rest).2) := by
  have hne : c ≠ '/' := by
    rintro rfl
    cases h
  rw [trivia.eq_4 c rest (fun _ he => absurd he hne) (fun _ he => absurd he hne), if_pos h]

theorem trivia_block {body rest rest' : List Char} (h : closeComment? rest = some (body, rest')) :
    trivia ('/' :: '*' :: rest) = ('/' :: '*' :: (body ++ (trivia rest').1), (trivia rest').2) := by
  rw [trivia.eq_3]
  split
  · next b r hclosed =>
    rw [h] at hclosed
    cases hclosed
    rfl
  · next hclosed =>
    rw [h] at hclosed
    cases hclosed

/-- A blank or a complete comment is skipped, whatever follows. -/
theorem trivia_unit_append {unit : List Char} (h : GapUnit unit) (rest : List Char) :
    trivia (unit ++ rest) = (unit ++ (trivia rest).1, (trivia rest).2) := by
  cases h with
  | blank hc => exact trivia_blank (isBlank_iff.mpr hc) rest
  | @line text stop hn hr hstop =>
    have hsplit := takeWhile_append_of_boundary (stop :: rest) (isInLine_of_notMem hn hr)
      (fun c hc => by cases hc; exact isInLine_eq_false_iff.mpr hstop)
    simp only [List.cons_append, List.append_assoc, List.nil_append]
    rw [trivia.eq_2, hsplit.1, hsplit.2, trivia_blank (isBlank_of_lineBreak hstop)]
  | block hbody =>
    simp only [List.cons_append, List.append_assoc, List.nil_append]
    rw [trivia_block (closeComment?_of_unclosed hbody rest)]
    simp

/-- **A gap is skipped, whatever follows.** -/
theorem trivia_gap_append {gap : List Char} (h : Gap gap) (rest : List Char) :
    trivia (gap ++ rest) = (gap ++ (trivia rest).1, (trivia rest).2) := by
  induction h with
  | nil => rfl
  | cons hunit _ ih => rw [List.append_assoc, trivia_unit_append hunit, ih, List.append_assoc]

/-- A gap at the end of a text is skipped. -/
theorem trivia_lastGap {gap : List Char} (h : LastGap gap) : trivia gap = (gap, []) := by
  cases h with
  | closed h =>
    have hskip := trivia_gap_append h []
    rwa [trivia.eq_1, List.append_nil] at hskip
  | @line gap text h hn hr =>
    have hsplit := takeWhile_append_of_boundary [] (isInLine_of_notMem hn hr) (by simp)
    rw [List.append_nil] at hsplit
    rw [trivia_gap_append h, trivia.eq_2, hsplit.1, hsplit.2, trivia.eq_1, List.append_nil]

/-- A text with no blank and no complete comment at its front. -/
structure Solid (cs : List Char) : Prop where
  noUnit : ∀ unit rest, GapUnit unit → cs ≠ unit ++ rest
  noLine : ∀ text, cs ≠ '/' :: '/' :: text

theorem Solid.nil : Solid [] where
  noUnit unit rest h := by
    cases h <;> simp
  noLine text := by simp

/-- A text that begins with neither a blank nor a slash is solid. -/
theorem Solid.cons {c : Char} (hblank : isBlank c = false) (hslash : c ≠ '/') (cs : List Char) :
    Solid (c :: cs) where
  noUnit unit rest h := by
    cases h with
    | blank hc =>
      intro he
      cases he
      rw [isBlank_iff.mpr hc] at hblank
      cases hblank
    | line => exact fun he => hslash (List.cons.inj he).1
    | block => exact fun he => hslash (List.cons.inj he).1
  noLine text := fun he => hslash (List.cons.inj he).1

theorem trivia_solid {cs : List Char} (h : Solid cs) : trivia cs = ([], cs) := by
  fun_cases trivia cs with
  | case1 => rfl
  | case2 rest more => exact absurd rfl (h.noLine rest)
  | case3 rest body rest' hclosed more =>
    obtain ⟨inner, rfl, hinner⟩ := closeComment?_eq_some hclosed
    have happ := closeComment?_append hclosed
    refine absurd ?_ (h.noUnit _ rest' (.block hinner))
    rw [← happ]
    rfl
  | case4 rest hopen => rfl
  | case5 c rest _ _ hblank more =>
    exact absurd rfl (h.noUnit [c] rest (.blank (isBlank_iff.mp hblank)))
  | case6 c rest _ _ hblank => rfl

/-- **What is left after skipping is solid.** -/
theorem solid_trivia (cs : List Char) : Solid (trivia cs).2 := by
  fun_induction trivia cs with
  | case1 => exact .nil
  | case2 rest more ih => exact ih
  | case3 rest body rest' hclosed more ih => exact ih
  | case4 rest hopen =>
    constructor
    · intro unit tail hunit he
      cases hunit with
      | blank hc =>
        cases he
        exact absurd hc (by decide)
      | line => simp at he
      | block hbody =>
        simp only [List.cons_append, List.append_assoc, List.nil_append, List.cons.injEq, true_and] at he
        rw [he, closeComment?_of_unclosed hbody] at hopen
        cases hopen
    · intro text he
      simp at he
  | case5 c rest _ _ hblank more ih => exact ih
  | case6 c rest hline hblock hblank =>
    constructor
    · intro unit tail hunit he
      cases hunit with
      | blank hc =>
        cases he
        exact hblank (isBlank_iff.mpr hc)
      | line => exact hline _ (List.cons.inj he).1 (List.cons.inj he).2
      | block => exact hblock _ (List.cons.inj he).1 (List.cons.inj he).2
    · intro text he
      exact hline _ (List.cons.inj he).1 (List.cons.inj he).2

/-- A gap that begins with a blank is a gap without it. -/
theorem Gap.tail {c : Char} {gap : List Char} (h : Gap (c :: gap)) (hc : c ≠ '/') : Gap gap := by
  generalize he : c :: gap = cs at h
  cases h with
  | nil => cases he
  | cons hunit hrest =>
    cases hunit with
    | blank => cases he; exact hrest
    | line => exact absurd (List.cons.inj he).1 hc
    | block => exact absurd (List.cons.inj he).1 hc

theorem LastGap.tail {c : Char} {gap : List Char} (h : LastGap (c :: gap)) (hc : c ≠ '/') :
    LastGap gap := by
  generalize he : c :: gap = cs at h
  cases h with
  | closed h => exact .closed ((he ▸ h : Gap (c :: gap)).tail hc)
  | @line front text h hn hr =>
    cases front with
    | nil => exact absurd (List.cons.inj he).1 hc
    | cons d front =>
      cases he
      exact .line (h.tail hc) hn hr

/-- **What is skipped is a gap**; where nothing is left, it is a gap at the end of the text. -/
theorem gap_of_trivia (cs : List Char) :
    LastGap (trivia cs).1 ∧ ((trivia cs).2 ≠ [] → Gap (trivia cs).1) := by
  fun_induction trivia cs with
  | case1 => exact ⟨.closed .nil, fun _ => .nil⟩
  | case2 rest more ih =>
    have hin : ∀ c ∈ rest.takeWhile isInLine, c ≠ '\n' ∧ c ≠ '\r' :=
      fun c hc => isInLine_iff.mp (mem_takeWhile c hc)
    have hn : '\n' ∉ rest.takeWhile isInLine := fun hc => (hin _ hc).1 rfl
    have hr : '\r' ∉ rest.takeWhile isInLine := fun hc => (hin _ hc).2 rfl
    have hout := boundary_dropWhile isInLine rest
    cases hrest : rest.dropWhile isInLine with
    | nil =>
      -- The text ends inside the comment.
      have hmore : more = ([], []) := by simp only [more, hrest, trivia.eq_1]
      rw [hmore, List.append_nil]
      exact ⟨LastGap.line .nil hn hr, fun hne => absurd rfl hne⟩
    | cons stop rest' =>
      rw [hrest] at hout
      have hstop : stop ∈ ['\n', '\r'] := isInLine_eq_false_iff.mp (hout stop rfl)
      have hblank := isBlank_of_lineBreak hstop
      have hne : stop ≠ '/' := by
        rintro rfl
        cases hblank
      have hmore : more = (stop :: (trivia rest').1, (trivia rest').2) := by
        simp only [more, hrest, trivia_blank hblank]
      have hunit := (GapUnit.line hn hr hstop).gap
      have hsplit : '/' :: '/' :: (rest.takeWhile isInLine ++ stop :: (trivia rest').1)
          = '/' :: '/' :: (rest.takeWhile isInLine ++ [stop]) ++ (trivia rest').1 := by
        simp
      rw [hrest, trivia_blank hblank] at ih
      rw [hmore]
      dsimp only at ih ⊢
      rw [hsplit]
      exact ⟨hunit.appendLast (ih.1.tail hne), fun h => hunit.append ((ih.2 h).tail hne)⟩
  | case3 rest body rest' hclosed more ih =>
    obtain ⟨inner, rfl, hinner⟩ := closeComment?_eq_some hclosed
    have hunit := (GapUnit.block hinner).gap
    exact ⟨hunit.appendLast ih.1, fun hne => hunit.append (ih.2 hne)⟩
  | case4 rest hopen => exact ⟨.closed .nil, fun _ => .nil⟩
  | case5 c rest _ _ hblank more ih =>
    have hunit := (GapUnit.blank (isBlank_iff.mp hblank)).gap
    exact ⟨hunit.appendLast ih.1, fun hne => hunit.append (ih.2 hne)⟩
  | case6 c rest _ _ hblank => exact ⟨.closed .nil, fun _ => .nil⟩

end ApiScenario
