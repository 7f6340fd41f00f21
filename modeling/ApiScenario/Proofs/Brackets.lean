import ApiScenario.Proofs.CodeLiterals

/-!
# Brackets in generated code

Brackets are well nested if each is closed by its own kind, and what stands between the two is well
nested (`Nested`). Reading them with a stack decides it: `closeAll` keeps the closing brackets that
are still to come, the next one first (`nested_of_closeAll`).

Of laid out code only the brackets in words matter: indentation, numbers and emptied literals have
none (`filter_blanked_layout`). Directives that close all that they open (`Closes`) can be put one
behind the other and into blocks, whatever stands around them.
-/

namespace ApiScenario

namespace Brackets

/-! ## Nesting -/

/-- The bracket that closes an opening one. -/
def closing? : Char → Option Char
  | '(' => some ')'
  | '[' => some ']'
  | '\x7b' => some '\x7d'
  | _ => none

/-- Whether a character is a closing bracket. -/
def isClosing (c : Char) : Bool := c == ')' || c == ']' || c == '\x7d'

/-- Whether a character is a bracket. -/
def isBracket (c : Char) : Bool := (closing? c).isSome || isClosing c

theorem mem_of_isBracket {c : Char} (h : isBracket c = true) :
    c ∈ ['(', '[', '\x7b', ')', ']', '\x7d'] := by
  unfold isBracket closing? isClosing at h
  split at h <;> simp_all [or_assoc]

/-- What can be checked of the six brackets is true of all. -/
theorem forall_isBracket {q : Char → Bool}
    (h : ['(', '[', '\x7b', ')', ']', '\x7d'].all q = true) {c : Char} (hc : isBracket c = true) :
    q c = true :=
  List.all_eq_true.mp h c (mem_of_isBracket hc)

/-- A text in which brackets are well nested and all closed. -/
inductive Nested : List Char → Prop
  | nil : Nested []
  | other {c : Char} {cs : List Char} : isBracket c = false → Nested cs → Nested (c :: cs)
  | pair {o c : Char} {inner rest : List Char} :
      closing? o = some c → Nested inner → Nested rest → Nested (o :: (inner ++ c :: rest))

/-- The brackets still to be closed behind a text, when those of `stack` are before it; none if a
bracket is closed out of turn. -/
def closeAll (stack : List Char) : List Char → Option (List Char)
  | [] => some stack
  | c :: cs =>
    match closing? c with
    | some d => closeAll (d :: stack) cs
    | none =>
      if isClosing c then
        if stack.head? = some c then closeAll stack.tail cs else none
      else closeAll stack cs

/-- A text in which the brackets of a stack are closed, and well nested ones between them. -/
def ClosesAll : List Char → List Char → Prop
  | [], cs => Nested cs
  | c :: stack, cs => ∃ inner rest, cs = inner ++ c :: rest ∧ Nested inner ∧ ClosesAll stack rest

theorem ClosesAll.other {stack cs : List Char} {c : Char} (hc : isBracket c = false)
    (h : ClosesAll stack cs) : ClosesAll stack (c :: cs) := by
  cases stack with
  | nil => exact Nested.other hc h
  | cons d stack =>
    obtain ⟨inner, rest, rfl, hinner, hrest⟩ := h
    exact ⟨c :: inner, rest, rfl, Nested.other hc hinner, hrest⟩

theorem ClosesAll.pair {stack cs : List Char} {o c : Char} (ho : closing? o = some c)
    (h : ClosesAll (c :: stack) cs) : ClosesAll stack (o :: cs) := by
  obtain ⟨inner, rest, rfl, hinner, hrest⟩ := h
  cases stack with
  | nil => exact Nested.pair ho hinner hrest
  | cons d stack =>
    obtain ⟨inner', rest', rfl, hinner', hrest'⟩ := hrest
    exact ⟨o :: (inner ++ c :: inner'), rest', by simp, Nested.pair ho hinner hinner', hrest'⟩

theorem closesAll_of_closeAll {stack cs : List Char} (h : closeAll stack cs = some []) :
    ClosesAll stack cs := by
  fun_induction closeAll stack cs with
  | case1 stack =>
    cases h
    exact .nil
  | case2 stack c cs d hd ih => exact (ih h).pair hd
  | case3 stack c cs hd hc hhead ih =>
    obtain ⟨rest, rfl⟩ := List.head?_eq_some_iff.mp hhead
    exact ⟨[], cs, rfl, .nil, ih h⟩
  | case4 => cases h
  | case5 stack c cs hd hc ih => exact (ih h).other (by simp [isBracket, hd, hc])

/-- **A text behind which no bracket is open is well nested.** -/
theorem nested_of_closeAll {cs : List Char} (h : closeAll [] cs = some []) : Nested cs :=
  closesAll_of_closeAll h

/-- Only brackets matter. -/
theorem closeAll_filter (stack cs : List Char) :
    closeAll stack (cs.filter isBracket) = closeAll stack cs := by
  fun_induction closeAll stack cs with
  | case1 => rfl
  | case2 stack c cs d hd ih =>
    rw [List.filter_cons_of_pos (by simp [isBracket, hd]), closeAll, hd]
    exact ih
  | case3 stack c cs hd hc hhead ih =>
    rw [List.filter_cons_of_pos (by simp [isBracket, hc]), closeAll, hd]
    simpa [hc, hhead] using ih
  | case4 stack c cs hd hc hhead =>
    rw [List.filter_cons_of_pos (by simp [isBracket, hc]), closeAll, hd]
    simp [hc, hhead]
  | case5 stack c cs hd hc ih =>
    rw [List.filter_cons_of_neg (by simp [isBracket, hd, hc])]
    exact ih

theorem closeAll_append (stack cs ds : List Char) :
    closeAll stack (cs ++ ds) = (closeAll stack cs).bind fun stack => closeAll stack ds := by
  fun_induction closeAll stack cs with
  | case1 => rfl
  | case2 stack c cs d hd ih => rw [List.cons_append, closeAll, hd]; exact ih
  | case3 stack c cs hd hc hhead ih =>
    rw [List.cons_append, closeAll, hd]
    simpa [hc, hhead] using ih
  | case4 stack c cs hd hc hhead =>
    rw [List.cons_append, closeAll, hd]
    simp [hc, hhead]
  | case5 stack c cs hd hc ih =>
    rw [List.cons_append, closeAll, hd]
    simpa [hc] using ih

/-- Brackets further out stay as they are. -/
theorem closeAll_frame {stack left cs : List Char} (h : closeAll stack cs = some left)
    (outer : List Char) : closeAll (stack ++ outer) cs = some (left ++ outer) := by
  fun_induction closeAll stack cs with
  | case1 stack => cases h; rfl
  | case2 stack c cs d hd ih => rw [closeAll, hd]; exact ih h
  | case3 stack c cs hd hc hhead ih =>
    obtain ⟨rest, rfl⟩ := List.head?_eq_some_iff.mp hhead
    rw [closeAll, hd]
    simpa [hc] using ih h
  | case4 => cases h
  | case5 stack c cs hd hc ih =>
    rw [closeAll, hd]
    simpa [hc] using ih h

/-- What closes all that it opens can stand between brackets. -/
theorem closeAll_around {left inner right : List Char} (stack : List Char)
    (hleft : closeAll [] left = some stack) (hinner : closeAll [] inner = some [])
    (hright : closeAll stack right = some []) :
    closeAll [] (left ++ (inner ++ right)) = some [] := by
  have hkeeps : closeAll stack inner = some stack := closeAll_frame hinner stack
  rw [closeAll_append, hleft, Option.bind_some, closeAll_append, hkeeps]
  exact hright

end Brackets

/-! ## Brackets of code -/

open Brackets

/-- The brackets in the words of a fragment. -/
def Fragment.brackets : Fragment → List Char
  | verbatim text => text.toList.filter isBracket
  | literal _ => []
  | number _ => []

theorem brackets_verbatim (cs : List Char) :
    (Fragment.verbatim (String.ofList cs)).brackets = cs.filter isBracket := by
  rw [Fragment.brackets, String.toList_ofList]

@[simp] theorem brackets_number (n : Int64) : (Fragment.number n).brackets = [] := rfl

/-- The brackets in the words of a line. -/
def Line.brackets (l : Line) : List Char := l.flatMap Fragment.brackets

@[simp] theorem brackets_cons (f : Fragment) (l : Line) :
    Line.brackets (f :: l) = f.brackets ++ l.brackets := rfl

/-- The brackets in the words of a directive. -/
def Directive.brackets : Directive → List Char
  | line l => Line.brackets l
  | blank => []
  | indent => []
  | dedent => []

theorem filter_chars_blank (f : Fragment) : f.blank.chars.filter isBracket = f.brackets := by
  cases f with
  | verbatim text => rfl
  | literal text => rfl
  | number n =>
    rw [brackets_number, List.filter_eq_nil_iff]
    intro c hc hbracket
    have hother : (c != '-' && !c.isDigit) = true :=
      forall_isBracket (q := fun b => b != '-' && !b.isDigit) (by decide) hbracket
    rw [Bool.and_eq_true, bne_iff_ne, Bool.not_eq_true'] at hother
    exact Decimal.notMem_chars hother.1 hother.2 n hc

theorem filter_chars_line (l : Line) :
    (Line.chars (l.map Fragment.blank)).filter isBracket = l.brackets := by
  rw [Line.chars, Line.brackets, List.filter_flatMap, List.flatMap_map]
  simp only [filter_chars_blank]

theorem filter_written_blanked (x : Directive) (d : Nat) :
    (x.blanked.written d).filter isBracket = x.brackets := by
  cases x with
  | line l =>
    show (Directive.written d (.line (l.map Fragment.blank))).filter isBracket = l.brackets
    rw [← filter_chars_line, Directive.written]
    split
    · next h => rw [List.isEmpty_iff.mp h]; rfl
    · have hspaces : (List.replicate (Directive.indentWidth * d) ' ').filter isBracket = [] := by
        simp [show isBracket ' ' = false from rfl]
      have hbreak : ['\n'].filter isBracket = [] := rfl
      rw [List.filter_append, List.filter_append, hspaces, hbreak, List.nil_append, List.append_nil]
  | blank => rfl
  | indent => rfl
  | dedent => rfl

theorem filter_layout_blanked (xs : List Directive) (d : Nat) :
    (layout d (xs.map Directive.blanked)).filter isBracket = xs.flatMap Directive.brackets := by
  induction xs generalizing d with
  | nil => rfl
  | cons x xs ih =>
    rw [List.map_cons, layout, List.filter_append, filter_written_blanked, ih, List.flatMap_cons]

/-- **Brackets of laid out code without its literals are those of its words.** -/
theorem filter_blanked_layout {xs : List Directive} (h : xs.all Directive.isPlain = true)
    (d : Nat) :
    (Segment.blanked (layout d xs)).filter isBracket = xs.flatMap Directive.brackets := by
  rw [blanked_layout h, filter_layout_blanked]

/-! ## Code that closes what it opens -/

/-- Directives whose words open no literal, and that close all brackets that they open and no
others. -/
structure Closes (xs : List Directive) : Prop where
  plain : xs.all Directive.isPlain = true
  closeAll_brackets : closeAll [] (xs.flatMap Directive.brackets) = some []

namespace Closes

theorem nil : Closes [] := ⟨rfl, rfl⟩

theorem append {xs ys : List Directive} (hx : Closes xs) (hy : Closes ys) : Closes (xs ++ ys) where
  plain := by
    rw [List.all_append, hx.plain, hy.plain]
    rfl
  closeAll_brackets := by
    rw [List.flatMap_append, closeAll_append, hx.closeAll_brackets]
    exact hy.closeAll_brackets

theorem cons {x : Directive} {xs : List Directive} (hx : Closes [x]) (hxs : Closes xs) :
    Closes (x :: xs) :=
  hx.append hxs

theorem flatMap {α : Type} {f : α → List Directive} {as : List α} (h : ∀ a ∈ as, Closes (f a)) :
    Closes (as.flatMap f) := by
  induction as with
  | nil => exact nil
  | cons a as ih =>
    rw [List.flatMap_cons]
    exact (h a List.mem_cons_self).append (ih fun b hb => h b (List.mem_cons_of_mem a hb))

theorem map {α : Type} {f : α → Directive} (h : ∀ a, Closes [f a]) (as : List α) :
    Closes (as.map f) := by
  rw [List.map_eq_flatMap]
  exact flatMap fun a _ => h a

theorem nested {body : List Directive} (h : Closes body) : Closes (Directive.nested body) :=
  cons ⟨rfl, rfl⟩ (h.append ⟨rfl, rfl⟩)

/-- A block closes what it opens, if its opening line and its closing line do together. -/
theorem block {opening closing : Line} {body : List Directive}
    (hlines : Closes [.line opening, .line closing]) (hbody : Closes body) :
    Closes (Directive.block opening closing body) where
  plain := by
    have hplain := hlines.plain
    simp only [List.all_cons, List.all_nil, Bool.and_true, Bool.and_eq_true] at hplain
    simp only [Directive.block, List.all_cons, List.all_append, List.all_nil, hplain.1, hplain.2,
      hbody.plain]
    rfl
  closeAll_brackets := by
    have hbrackets : (Directive.block opening closing body).flatMap Directive.brackets
        = opening.brackets ++ (body.flatMap Directive.brackets ++ closing.brackets) := by
      simp [Directive.block, Directive.brackets]
    have hcloses : closeAll [] (opening.brackets ++ closing.brackets) = some [] := by
      simpa [Directive.brackets] using hlines.closeAll_brackets
    rw [closeAll_append, Option.bind_eq_some_iff] at hcloses
    obtain ⟨stack, hopening, hclosing⟩ := hcloses
    rw [hbrackets]
    exact closeAll_around stack hopening hbody.closeAll_brackets hclosing

end Closes

/-- The brackets of code that closes what it opens are well nested, literals left out. -/
theorem nested_blanked_layout {xs : List Directive} (h : Closes xs) (d : Nat) :
    Nested (Segment.blanked (layout d xs)) := by
  apply nested_of_closeAll
  rw [← closeAll_filter, filter_blanked_layout h.plain]
  exact h.closeAll_brackets

end ApiScenario
