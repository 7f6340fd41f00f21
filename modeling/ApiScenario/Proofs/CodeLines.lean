import ApiScenario.Proofs.CodeReading
import ApiScenario.Proofs.LiteralRoundtrip
import ApiScenario.Proofs.SpelledCode

/-!
# Lines of generated code

A text is cut into lines at its line feeds (`linesOf`). Literals and numbers hold none, so if words
do not either (`isInLine`), the lines of laid out code are those that its directives write, one by
one (`linesOf_layout`).

A part of a file that keeps its level of indentation and whose lines begin with none of certain
texts, their indentation apart, is `Quiet` about them: whatever is looked for by these texts is not
found there. What a line begins with is told by its first word, so the letters of fixed lines
decide it (`Quiet.spelled`).
-/

namespace ApiScenario

open Directive

/-! ## Lines of a text -/

/-- The lines of a text. A line feed ends a line, and what follows the last one is a line, too. -/
def linesOf (text : String) : List String := (text.toList.splitOn '\n').map String.ofList

theorem linesOf_lineFeed {cs : List Char} (h : '\n' ∉ cs) (rest : List Char) :
    linesOf (String.ofList (cs ++ '\n' :: rest))
      = String.ofList cs :: linesOf (String.ofList rest) := by
  rw [linesOf, linesOf, String.toList_ofList, String.toList_ofList, List.splitOn_append_cons_self,
    List.splitOn_eq_singleton h, List.singleton_append, List.map_cons]

/-! ## Lines of directives -/

/-- A line of code at a level of indentation. -/
def Line.indented (d : Nat) (l : Line) : String :=
  if l.chars.isEmpty then "" else String.ofList (List.replicate (indentWidth * d) ' ' ++ l.chars)

/-- A line of words, with a name between them, behind its indentation. -/
theorem indented_words {w : String} (hw : w ≠ "") (d : Nat) (name closing : String) :
    Line.indented d [.verbatim w, .verbatim name, .verbatim closing]
      = String.ofList (List.replicate (indentWidth * d) ' ') ++ w ++ name ++ closing := by
  have hne : w.toList ≠ [] := fun h => hw (String.toList_eq_nil_iff.mp h)
  simp [Line.indented, Line.chars, Fragment.chars, hne, String.append_assoc]

/-- The line that a directive writes at a level of indentation, if it writes one. -/
def Directive.line? (d : Nat) : Directive → Option String
  | line l => some (l.indented d)
  | blank => some ""
  | indent => none
  | dedent => none

/-- The lines that directives write from a level of indentation on. -/
def layoutLines (d : Nat) : List Directive → List String
  | [] => []
  | x :: rest => (x.line? d).toList ++ layoutLines (x.depth d) rest

theorem layoutLines_append (d : Nat) (xs ys : List Directive) :
    layoutLines d (xs ++ ys) = layoutLines d xs ++ layoutLines (depthAfter d xs) ys := by
  induction xs generalizing d with
  | nil => rfl
  | cons x xs ih =>
    rw [List.cons_append, layoutLines, layoutLines, ih, List.append_assoc]
    rfl

theorem layoutLines_flatMap {α : Type} {f : α → List Directive} {as : List α}
    (h : ∀ a ∈ as, ∀ d, depthAfter d (f a) = d) (d : Nat) :
    layoutLines d (as.flatMap f) = as.flatMap fun a => layoutLines d (f a) := by
  induction as with
  | nil => rfl
  | cons a as ih =>
    rw [List.flatMap_cons, List.flatMap_cons, layoutLines_append, h a List.mem_cons_self,
      ih fun b hb => h b (List.mem_cons_of_mem a hb)]

theorem block_eq (opening closing : Line) (body : List Directive) :
    block opening closing body = [line opening] ++ nested body ++ [line closing] := by
  simp [block, nested]

theorem layoutLines_nested {xs : List Directive} (h : ∀ d, depthAfter d xs = d) (d : Nat) :
    layoutLines d (nested xs) = layoutLines (d + 1) xs := by
  show layoutLines (d + 1) (xs ++ [dedent]) = _
  rw [layoutLines_append, h]
  exact List.append_nil _

/-- Whether a fragment holds no line feed. Literals and numbers hold none. -/
def Fragment.isInLine : Fragment → Bool
  | verbatim text => !text.toList.contains '\n'
  | literal _ => true
  | number _ => true

theorem Fragment.isInLine_of_isSilent {f : Fragment} (h : f.isSilent = true) :
    f.isInLine = true := by
  cases f with
  | verbatim text => simpa [isInLine] using notMem_of_isSilent h (by decide : '\n' ∈ marks)
  | literal | number => rfl

theorem Fragment.notMem_chars {f : Fragment} (h : f.isInLine = true) : '\n' ∉ f.chars := by
  cases f with
  | verbatim text =>
    rw [isInLine, Bool.not_eq_true', List.contains_eq_mem, decide_eq_false_iff_not] at h
    exact h
  | literal text => exact Literal.notMem_quoted _
  | number n => exact Decimal.notMem_chars (by decide) (by decide) n

/-- Whether a directive writes one line at most. -/
def Directive.isInLine : Directive → Bool
  | line l => l.all Fragment.isInLine
  | _ => true

theorem notMem_chars_line {l : Line} (h : l.all Fragment.isInLine = true) : '\n' ∉ l.chars := by
  intro hmem
  obtain ⟨f, hf, hc⟩ := List.mem_flatMap.mp hmem
  exact Fragment.notMem_chars (List.all_eq_true.mp h f hf) hc

/-- **The lines of laid out code are those that its directives write.** -/
theorem linesOf_layout {xs : List Directive} (h : ∀ x ∈ xs, x.isInLine = true) (d : Nat) :
    linesOf (String.ofList (layout d xs)) = layoutLines d xs ++ [""] := by
  induction xs generalizing d with
  | nil => rfl
  | cons x xs ih =>
    have hx := h x List.mem_cons_self
    have hrest := ih fun y hy => h y (List.mem_cons_of_mem x hy)
    rw [layout, layoutLines, List.append_assoc, ← hrest]
    cases x with
    | line l =>
      have hl := notMem_chars_line hx
      rw [written, line?, Line.indented, Option.toList_some, List.singleton_append]
      split
      · exact linesOf_lineFeed List.not_mem_nil _
      · rw [List.append_assoc, List.singleton_append]
        exact linesOf_lineFeed (by simp [hl]) _
    | blank => exact linesOf_lineFeed List.not_mem_nil _
    | indent | dedent => rfl

/-! ## Beginnings of lines -/

/-- What stands behind leading spaces. -/
def bare (cs : List Char) : List Char := cs.dropWhile (· == ' ')

/-- A text behind its leading spaces. -/
def unindented (text : String) : List Char := bare text.toList

theorem unindented_ofList (cs : List Char) : unindented (String.ofList cs) = bare cs := by
  rw [unindented, String.toList_ofList]

theorem unindented_indented {w : List Char} (h : bare w ≠ []) (d : Nat) (l : Line) :
    unindented (Line.indented d (.verbatim (String.ofList w) :: l)) = bare w ++ l.chars := by
  have hspaces : ∀ c ∈ List.replicate (indentWidth * d) ' ', (c == ' ') = true := by simp
  have hchars : Line.chars (.verbatim (String.ofList w) :: l) = w ++ l.chars := by
    rw [chars_cons, Fragment.chars, String.toList_ofList]
  have hw : ¬ (w ++ l.chars).isEmpty = true := by
    rw [List.isEmpty_iff, List.append_eq_nil_iff]
    rintro ⟨rfl, -⟩
    exact h rfl
  rw [Line.indented, hchars, if_neg hw, unindented_ofList, bare,
    List.dropWhile_append_of_pos hspaces, List.dropWhile_append, if_neg]
  · rfl
  · rw [List.isEmpty_iff]
    exact h

/-- Whether a line begins with a text. The indentation of neither of them counts. -/
def begins (text line : String) : Bool := (unindented text).isPrefixOf (unindented line)

theorem begins_self (text : String) : begins text text = true :=
  List.isPrefixOf_iff_prefix.mpr (List.prefix_refl _)

theorem begins_of_clash {text line : String} {cs rest : List Char}
    (hline : unindented line = cs ++ rest) (h : clash cs (unindented text) = true) :
    begins text line = false := by
  rw [begins, hline, Bool.eq_false_iff, ne_eq, List.isPrefixOf_iff_prefix]
  rintro ⟨more, hmore⟩
  exact append_ne_of_clash h _ _ hmore.symm

/-- What the words of a line tell about its beginning: a line without words is empty, and any other
line begins with its first word. -/
def IsBegunBy (l : String) : List (List Char) → Prop
  | [] => l = ""
  | w :: _ => bare w ≠ [] → ∃ rest, unindented l = bare w ++ rest

theorem Spelled.forall₂_isBegunBy {n : Nat} {xs : List Directive} {rows : List (List (List Char))}
    (h : Spelled n xs rows) (d : Nat) : List.Forall₂ IsBegunBy (layoutLines d xs) rows := by
  induction h generalizing d with
  | nil => exact .nil
  | line _ _ ih => exact .cons (fun hw => ⟨_, unindented_indented hw d _⟩) (ih d)
  | empty _ ih | blank _ ih => exact .cons rfl (ih d)
  | indent _ ih | dedent _ ih => exact ih _

/-- Whether words have no line feed and tell that their line begins with none of some texts. -/
def isApartFrom (letters : List (List Char)) : List (List Char) → Bool
  | [] => letters.all fun text => !(bare text).isEmpty
  | w :: words => !(bare w).isEmpty && (letters.all fun text => clash (bare w) (bare text)) &&
      (w :: words).all fun cs => !cs.contains '\n'

theorem begins_of_isApartFrom {letters row : List (List Char)} (h : isApartFrom letters row = true)
    {l : String} (hl : IsBegunBy l row) {text : List Char} (ht : text ∈ letters) :
    begins (String.ofList text) l = false := by
  cases row with
  | nil =>
    have htext : ¬ (bare text).isEmpty = true := by simpa using List.all_eq_true.mp h text ht
    rw [hl, Bool.eq_false_iff, ne_eq, begins, List.isPrefixOf_iff_prefix, unindented_ofList]
    exact fun hbegins => htext (List.isEmpty_iff.mpr (List.prefix_nil.mp hbegins))
  | cons w words =>
    rw [isApartFrom, Bool.and_eq_true, Bool.and_eq_true, List.all_eq_true, Bool.not_eq_true',
      List.isEmpty_eq_false_iff] at h
    obtain ⟨rest, hrest⟩ := hl h.1.1
    refine begins_of_clash hrest ?_
    rw [unindented_ofList]
    exact h.1.2 text ht

theorem Line.Spelled.isInLine {l : Line} {words : List (List Char)} (h : l.Spelled words)
    (hwords : (words.all fun cs => !cs.contains '\n') = true) : l.all Fragment.isInLine = true := by
  induction h with
  | nil => rfl
  | word _ ih =>
    rw [List.all_cons, Bool.and_eq_true] at hwords
    rw [List.all_cons, Fragment.isInLine, String.toList_ofList, hwords.1, ih hwords.2]
    rfl
  | silent hf _ ih =>
    rw [List.all_cons, Fragment.isInLine_of_isSilent hf, ih hwords]
    rfl

theorem Spelled.isInLine {n : Nat} {letters : List (List Char)} {xs : List Directive}
    {rows : List (List (List Char))} (h : Spelled n xs rows)
    (hrows : rows.all (isApartFrom letters) = true) : ∀ x ∈ xs, x.isInLine = true := by
  induction h with
  | nil => simp
  | line hl _ ih =>
    rw [List.all_cons, Bool.and_eq_true, isApartFrom, Bool.and_eq_true] at hrows
    exact List.forall_mem_cons.mpr ⟨(Line.Spelled.word hl).isInLine hrows.1.2, ih hrows.2⟩
  | empty _ ih | blank _ ih =>
    rw [List.all_cons, Bool.and_eq_true] at hrows
    exact List.forall_mem_cons.mpr ⟨rfl, ih hrows.2⟩
  | indent _ ih | dedent _ ih => exact List.forall_mem_cons.mpr ⟨rfl, ih hrows⟩

theorem Spelled.depthAfter_add {n : Nat} {xs : List Directive} {rows : List (List (List Char))}
    (h : Spelled n xs rows) (d : Nat) : depthAfter (d + n) xs = d := by
  induction h generalizing d with
  | nil => rfl
  | line _ _ ih | empty _ ih | blank _ ih | indent _ ih | dedent _ ih => exact ih d

/-! ## Parts that begin no line with a text -/

/-- Directives that come back to the level of indentation at which they begin, and none of whose
lines begins with one of some texts. -/
structure Quiet (texts : List String) (xs : List Directive) : Prop where
  level : ∀ d, depthAfter d xs = d
  inLine : ∀ x ∈ xs, x.isInLine = true
  begins_eq_false : ∀ d, ∀ l ∈ layoutLines d xs, ∀ text ∈ texts, begins text l = false

namespace Quiet

variable {texts : List String} {xs ys : List Directive}

theorem nil : Quiet texts [] := ⟨fun _ => rfl, by simp, by simp [layoutLines]⟩

/-- **Fixed lines are quiet about texts, if their letters are.** -/
theorem spelled {letters : List (List Char)} {rows : List (List (List Char))}
    (h : Spelled 0 xs rows ∧ Letters texts letters ∧ rows.all (isApartFrom letters) = true) :
    Quiet texts xs where
  level := h.1.depthAfter_add
  inLine := h.1.isInLine h.2.2
  begins_eq_false d l hl text htext := by
    obtain ⟨hx, ht, hrows⟩ := h
    obtain ⟨row, hrow, hbegun⟩ := exists_of_forall₂ (hx.forall₂_isBegunBy d) l hl
    rw [ht.eq_map] at htext
    obtain ⟨cs, hcs, rfl⟩ := List.mem_map.mp htext
    exact begins_of_isApartFrom (List.all_eq_true.mp hrows row hrow) hbegun hcs

theorem append (hx : Quiet texts xs) (hy : Quiet texts ys) : Quiet texts (xs ++ ys) where
  level d := by rw [depthAfter_append, hx.level, hy.level]
  inLine x h := (List.mem_append.mp h).elim (hx.inLine x) (hy.inLine x)
  begins_eq_false d l hl := by
    rw [layoutLines_append, hx.level] at hl
    exact (List.mem_append.mp hl).elim (hx.begins_eq_false d l) (hy.begins_eq_false d l)

theorem cons {x : Directive} (hx : Quiet texts [x]) (hxs : Quiet texts xs) :
    Quiet texts (x :: xs) :=
  hx.append hxs

theorem flatMap {α : Type} {f : α → List Directive} {as : List α}
    (h : ∀ a ∈ as, Quiet texts (f a)) : Quiet texts (as.flatMap f) := by
  induction as with
  | nil => exact .nil
  | cons a as ih =>
    exact (h a List.mem_cons_self).append (ih fun b hb => h b (List.mem_cons_of_mem a hb))

theorem map {α : Type} {f : α → Directive} (h : ∀ a, Quiet texts [f a]) (as : List α) :
    Quiet texts (as.map f) := by
  rw [List.map_eq_flatMap]
  exact .flatMap fun a _ => h a

theorem nested (h : Quiet texts xs) : Quiet texts (nested xs) where
  level d := by
    show depthAfter (d + 1) (xs ++ [dedent]) = d
    rw [depthAfter_append, h.level]
    rfl
  inLine x hx := by
    rcases List.mem_cons.mp hx with rfl | hx
    · rfl
    · rcases List.mem_append.mp hx with hx | hx
      · exact h.inLine x hx
      · rw [List.mem_singleton.mp hx]
        rfl
  begins_eq_false d := by
    rw [layoutLines_nested h.level]
    exact h.begins_eq_false (d + 1)

theorem block {opening closing : Line} (ho : Quiet texts [.line opening]) (h : Quiet texts xs)
    (hc : Quiet texts [.line closing]) : Quiet texts (block opening closing xs) := by
  rw [block_eq]
  exact (ho.append h.nested).append hc

theorem mono {texts' : List String} (h : Quiet texts xs) (hsub : texts' ⊆ texts) :
    Quiet texts' xs :=
  ⟨h.level, h.inLine, fun d l hl text ht => h.begins_eq_false d l hl text (hsub ht)⟩

/-- What is looked for is no line. -/
theorem notMem (h : Quiet texts xs) {l : String} (hl : l ∈ texts) (d : Nat) :
    l ∉ layoutLines d xs := by
  intro hmem
  have hbegins := h.begins_eq_false d l hmem l hl
  rw [begins_self] at hbegins
  cases hbegins

/-- The lines of code, and what follows its last line feed. -/
theorem linesOf_codeText (h : Quiet texts xs) : linesOf (codeText xs) = layoutLines 0 xs ++ [""] :=
  linesOf_layout h.inLine 0

end Quiet

end ApiScenario
