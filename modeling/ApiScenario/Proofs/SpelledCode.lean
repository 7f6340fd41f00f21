import ApiScenario.Proofs.Brackets
import ApiScenario.Proofs.PlanTexts

/-!
# Code, letter by letter

Most lines of generated code are fixed words with texts and numbers between them, and what there is
to say about them is decided by the letters of their words. `Spelled` relates directives to these
letters, line by line. Fixed words are spelled by the constructors alone, so one computation on
letters settles a part of a file as a whole; for quotes and brackets this is `Closes.spelled`.

Names are not fixed, but hold nothing that matters: no quotes, no brackets and no line feeds.
Whatever is `isSilent` in this way is left out when a line is spelled.
-/

namespace ApiScenario

open Brackets

/-! ## Letters of words -/

/-- Texts, letter by letter. -/
inductive Letters : List String → List (List Char) → Prop
  | nil : Letters [] []
  | cons {cs : List Char} {texts : List String} {letters : List (List Char)} :
      Letters texts letters → Letters (String.ofList cs :: texts) (cs :: letters)

theorem Letters.eq_map {texts : List String} {letters : List (List Char)}
    (h : Letters texts letters) : texts = letters.map String.ofList := by
  induction h with
  | nil => rfl
  | cons _ ih => rw [ih, List.map_cons]

/-- The characters that matter in words. -/
def marks : List Char := ['(', '[', '\x7b', ')', ']', '\x7d', '"', '\n']

/-- Whether nothing in the words of a fragment matters. -/
def Fragment.isSilent : Fragment → Bool
  | verbatim text => text.toList.all fun c => !marks.contains c
  | literal _ => true
  | number _ => true

theorem notMem_of_isSilent {text : String} (h : (Fragment.verbatim text).isSilent = true) {c : Char}
    (hc : c ∈ marks) : c ∉ text.toList := by
  intro hmem
  have hsilent := List.all_eq_true.mp h c hmem
  rw [List.contains_iff_mem.mpr hc] at hsilent
  cases hsilent

theorem Fragment.brackets_of_isSilent {f : Fragment} (h : f.isSilent = true) : f.brackets = [] := by
  cases f with
  | verbatim text =>
    rw [brackets, List.filter_eq_nil_iff]
    exact fun c hc hb =>
      notMem_of_isSilent h (List.mem_append_left ['"', '\n'] (mem_of_isBracket hb)) hc
  | literal | number => rfl

theorem Fragment.isPlain_of_isSilent {f : Fragment} (h : f.isSilent = true) :
    f.isPlain = true := by
  cases f with
  | verbatim text => simpa [isPlain] using notMem_of_isSilent h (by decide : '"' ∈ marks)
  | literal | number => rfl

/-- A name is silent, if no letter that it can have matters. -/
theorem isSilent_verbatim {text : String} {q : Char → Bool} (h : ∀ c, q c = false → c ∉ text.toList)
    (hq : (marks.all fun c => !q c) = true) : (Fragment.verbatim text).isSilent = true := by
  rw [Fragment.isSilent, List.all_eq_true]
  intro c hc
  rw [Bool.not_eq_true', List.contains_eq_mem, decide_eq_false_iff_not]
  exact fun hmem => h c ((Bool.not_eq_true' _).mp (List.all_eq_true.mp hq c hmem)) hc

/-- Nothing in the name of a test matters. -/
theorem isSilent_name {test : String} (h : Identifier.isIdentifier test.toList = true) :
    (Fragment.verbatim test).isSilent = true :=
  isSilent_verbatim (fun _ hc => notMem_identifier h hc) (by decide)

/-- The words of a line, letter by letter. -/
inductive Line.Spelled : Line → List (List Char) → Prop
  | nil : Spelled [] []
  | word {cs : List Char} {l : Line} {words : List (List Char)} :
      Spelled l words → Spelled (.verbatim (String.ofList cs) :: l) (cs :: words)
  | silent {f : Fragment} {l : Line} {words : List (List Char)} :
      f.isSilent = true → Spelled l words → Spelled (f :: l) words

/-- Silent fragments in a row. -/
theorem Line.Spelled.silent_append {l l' : Line} {words : List (List Char)}
    (h : ∀ f ∈ l, f.isSilent = true) (hl' : l'.Spelled words) : Line.Spelled (l ++ l') words := by
  induction l with
  | nil => exact hl'
  | cons f l ih =>
    exact .silent (h f List.mem_cons_self) (ih fun g hg => h g (List.mem_cons_of_mem f hg))

/-- The words of each line that directives write, letter by letter. A line begins with a word, or
it is empty. The directives end as many levels further out as the number says. -/
inductive Spelled : Nat → List Directive → List (List (List Char)) → Prop
  | nil : Spelled 0 [] []
  | line {n : Nat} {cs : List Char} {l : Line} {words : List (List Char)} {xs : List Directive}
      {rows : List (List (List Char))} : Line.Spelled l words → Spelled n xs rows →
      Spelled n (.line (.verbatim (String.ofList cs) :: l) :: xs) ((cs :: words) :: rows)
  | empty {n : Nat} {xs : List Directive} {rows : List (List (List Char))} :
      Spelled n xs rows → Spelled n (.line [] :: xs) ([] :: rows)
  | blank {n : Nat} {xs : List Directive} {rows : List (List (List Char))} :
      Spelled n xs rows → Spelled n (.blank :: xs) ([] :: rows)
  | indent {n : Nat} {xs : List Directive} {rows : List (List (List Char))} :
      Spelled (n + 1) xs rows → Spelled n (.indent :: xs) rows
  | dedent {n : Nat} {xs : List Directive} {rows : List (List (List Char))} :
      Spelled n xs rows → Spelled (n + 1) (.dedent :: xs) rows

/-! ## Quotes and brackets -/

theorem Line.Spelled.isPlain {l : Line} {words : List (List Char)} (h : l.Spelled words)
    (hwords : (words.all fun cs => !cs.contains '"') = true) : l.all Fragment.isPlain = true := by
  induction h with
  | nil => rfl
  | word _ ih =>
    rw [List.all_cons, Bool.and_eq_true] at hwords
    rw [List.all_cons, isPlain_verbatim, hwords.1, ih hwords.2]
    rfl
  | silent hf _ ih =>
    rw [List.all_cons, Fragment.isPlain_of_isSilent hf, ih hwords]
    rfl

theorem Spelled.isPlain {n : Nat} {xs : List Directive} {rows : List (List (List Char))}
    (h : Spelled n xs rows)
    (hrows : (rows.all fun row => row.all fun cs => !cs.contains '"') = true) :
    xs.all Directive.isPlain = true := by
  induction h with
  | nil => rfl
  | line hl _ ih =>
    rw [List.all_cons, Bool.and_eq_true] at hrows
    rw [List.all_cons, Directive.isPlain, (Line.Spelled.word hl).isPlain hrows.1, ih hrows.2]
    rfl
  | empty _ ih | blank _ ih | indent _ ih | dedent _ ih => exact ih hrows

theorem Line.Spelled.brackets {l : Line} {words : List (List Char)} (h : l.Spelled words) :
    l.brackets = words.flatten.filter isBracket := by
  induction h with
  | nil => rfl
  | word _ ih => rw [brackets_cons, brackets_verbatim, ih, List.flatten_cons, List.filter_append]
  | silent hf _ ih => rw [brackets_cons, Fragment.brackets_of_isSilent hf, ih, List.nil_append]

theorem Spelled.brackets {n : Nat} {xs : List Directive} {rows : List (List (List Char))}
    (h : Spelled n xs rows) :
    xs.flatMap Directive.brackets = rows.flatten.flatten.filter isBracket := by
  induction h with
  | nil => rfl
  | line hl _ ih =>
    rw [List.flatMap_cons, ih, Directive.brackets, (Line.Spelled.word hl).brackets,
      ← List.filter_append, ← List.flatten_append]
    rfl
  | empty _ ih | blank _ ih | indent _ ih | dedent _ ih => exact ih

/-- Brackets can be closed word by word. -/
theorem foldlM_closeAll (words : List (List Char)) (stack : List Char) :
    words.foldlM closeAll stack = closeAll stack words.flatten := by
  induction words generalizing stack with
  | nil => rfl
  | cons cs words ih =>
    rw [List.foldlM_cons, List.flatten_cons, closeAll_append, funext ih]
    rfl

/-- **Fixed lines close what they open, if their letters do.** -/
theorem Closes.spelled {xs : List Directive} {rows : List (List (List Char))}
    (h : Spelled 0 xs rows ∧ (rows.all fun row => row.all fun cs => !cs.contains '"') = true ∧
      rows.flatten.foldlM closeAll [] = some []) : Closes xs where
  plain := h.1.isPlain h.2.1
  closeAll_brackets := by
    obtain ⟨hx, -, hbrackets⟩ := h
    rw [hx.brackets, closeAll_filter, ← foldlM_closeAll]
    exact hbrackets

end ApiScenario
