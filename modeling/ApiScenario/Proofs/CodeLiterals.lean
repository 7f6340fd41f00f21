import ApiScenario.Code

/-!
# Literals in generated code

`Segment.ofCode` cuts a text at its double quotes, without knowing how the text was made: a literal
goes from an opening quote to the next quote that no backslash stands before. With it two questions
can be asked of any text, what is left of it when literals are emptied (`blanked`) and what its
literals hold (`literals`).

Of laid out code both have a simple answer, provided that no word of the target language holds a
quote (`isPlain`): the emptied text is that of the directives with empty literals
(`blanked_layout`), and the literals are those of the directives, in order (`literals_layout`).
-/

namespace ApiScenario

/-! ## Cutting code at its quotes -/

/-- A part of code. -/
inductive Segment where
  /-- A character outside literals. -/
  | char (c : Char)
  /-- What stands between the quotes of a literal. -/
  | literal (body : List Char)
  /-- What stands behind a quote that is never closed. -/
  | opened (body : List Char)
deriving DecidableEq, Repr

namespace Segment

/-- The parts of code, when a literal has been opened and read up to here, or none has. -/
def cut : Option (List Char) → List Char → List Segment
  | none, [] => []
  | none, c :: cs => if c = '"' then cut (some []) cs else char c :: cut none cs
  | some body, [] => [opened body]
  | some body, '\\' :: c :: cs => cut (some (body ++ ['\\', c])) cs
  | some body, c :: cs =>
    if c = '"' then literal body :: cut none cs else cut (some (body ++ [c])) cs

/-- The parts of code. -/
def ofCode (cs : List Char) : List Segment := cut none cs

/-- A part of code in which literals are empty. -/
def blankChars : Segment → List Char
  | char c => [c]
  | literal _ => ['"', '"']
  | opened body => '"' :: body

/-- What a literal holds. -/
def body? : Segment → Option (List Char)
  | char _ => none
  | literal body => some body
  | opened _ => none

/-- Code with every literal replaced by an empty one. -/
def blanked (cs : List Char) : List Char := (ofCode cs).flatMap blankChars

/-- What the literals of code hold, in order. -/
def literals (cs : List Char) : List (List Char) := (ofCode cs).filterMap body?

/-- A body that is read on by one character is that of an opened literal. -/
theorem cut_some_cons {c : Char} (h₁ : c ≠ '"') (h₂ : c ≠ '\\') (body cs : List Char) :
    cut (some body) (c :: cs) = cut (some (body ++ [c])) cs := by
  rw [cut]
  · rw [if_neg h₁]
  · intro d ds hc _
    exact h₂ hc

/-- A written body is read to its end, whatever it was written for. -/
theorem cut_escape : ∀ (s body rest : List Char),
    cut (some body) (Literal.escape s ++ '"' :: rest)
      = literal (body ++ Literal.escape s) :: cut none rest
  | [], body, rest => by simp [cut]
  | c :: s, body, rest => by
    rw [Literal.escape_cons, List.append_assoc]
    rcases Literal.escapeChar_cases c with ⟨he, h₁, h₂, -⟩ | ⟨d, he, -⟩
    · rw [he, List.singleton_append, cut_some_cons h₂ h₁, cut_escape s, List.append_assoc]
    · rw [he]
      show cut (some (body ++ ['\\', d])) (Literal.escape s ++ '"' :: rest) = _
      rw [cut_escape s, List.append_assoc]

/-- A quoted text is one literal. -/
theorem ofCode_quoted (s rest : List Char) :
    ofCode (Literal.quoted s ++ rest) = literal (Literal.escape s) :: ofCode rest := by
  show cut none ('"' :: ((Literal.escape s ++ ['"']) ++ rest)) = _
  rw [cut, if_pos rfl, List.append_assoc, List.singleton_append, cut_escape]
  rfl

/-- Characters that are no quotes stand for themselves. -/
theorem ofCode_append_of_notMem : ∀ {cs : List Char}, '"' ∉ cs → ∀ rest : List Char,
    ofCode (cs ++ rest) = cs.map char ++ ofCode rest
  | [], _, rest => rfl
  | c :: cs, h, rest => by
    rw [List.mem_cons, not_or] at h
    show cut none (c :: (cs ++ rest)) = _
    rw [cut, if_neg (fun hc => h.1 hc.symm)]
    exact congrArg (char c :: ·) (ofCode_append_of_notMem h.2 rest)

end Segment

/-! ## The parts of laid out code -/

/-- Whether the words of a fragment hold no quote. -/
def Fragment.isPlain : Fragment → Bool
  | verbatim text => !text.toList.contains '"'
  | literal _ => true
  | number _ => true

/-- Words are plain if there is no quote among their characters. -/
theorem isPlain_verbatim (cs : List Char) :
    (Fragment.verbatim (String.ofList cs)).isPlain = !cs.contains '"' := by
  rw [Fragment.isPlain, String.toList_ofList]

/-- Whether the words of a line hold no quote. -/
def Directive.isPlain : Directive → Bool
  | line l => l.all Fragment.isPlain
  | blank => true
  | indent => true
  | dedent => true

/-- The parts of a fragment. -/
def Fragment.segments : Fragment → List Segment
  | verbatim text => text.toList.map .char
  | literal text => [.literal (Literal.escape text.toList)]
  | number n => (Decimal.chars n).map .char

/-- The parts of what a directive writes at a level of indentation. -/
def Directive.segments (d : Nat) : Directive → List Segment
  | line l =>
    if l.chars.isEmpty then [.char '\n']
    else (List.replicate (indentWidth * d) ' ').map .char ++ l.flatMap Fragment.segments ++
      [.char '\n']
  | blank => [.char '\n']
  | indent => []
  | dedent => []

/-- The parts of what directives write from a level of indentation on. -/
def layoutSegments (d : Nat) : List Directive → List Segment
  | [] => []
  | x :: rest => x.segments d ++ layoutSegments (x.depth d) rest

theorem ofCode_fragment {f : Fragment} (h : f.isPlain = true) (rest : List Char) :
    Segment.ofCode (f.chars ++ rest) = f.segments ++ Segment.ofCode rest := by
  cases f with
  | verbatim text =>
    have hq : '"' ∉ text.toList := by simpa [Fragment.isPlain] using h
    exact Segment.ofCode_append_of_notMem hq rest
  | literal text => exact Segment.ofCode_quoted text.toList rest
  | number n =>
    have hq : '"' ∉ Decimal.chars n := Decimal.notMem_chars (by decide) (by decide) n
    exact Segment.ofCode_append_of_notMem hq rest

theorem ofCode_line : ∀ {l : Line}, l.all Fragment.isPlain = true → ∀ rest : List Char,
    Segment.ofCode (l.chars ++ rest) = l.flatMap Fragment.segments ++ Segment.ofCode rest
  | [], _, rest => rfl
  | f :: l, h, rest => by
    rw [List.all_cons, Bool.and_eq_true] at h
    show Segment.ofCode ((f.chars ++ Line.chars l) ++ rest) = _
    rw [List.append_assoc, ofCode_fragment h.1, ofCode_line h.2, List.flatMap_cons,
      List.append_assoc]

theorem ofCode_written {x : Directive} (h : x.isPlain = true) (d : Nat) (rest : List Char) :
    Segment.ofCode (x.written d ++ rest) = x.segments d ++ Segment.ofCode rest := by
  have hnl : ∀ cs : List Char,
      Segment.ofCode ('\n' :: cs) = Segment.char '\n' :: Segment.ofCode cs := fun _ => rfl
  have hsp : '"' ∉ List.replicate (Directive.indentWidth * d) ' ' := by
    rw [List.mem_replicate]
    rintro ⟨-, hc⟩
    exact absurd hc (by decide)
  cases x with
  | line l =>
    unfold Directive.written Directive.segments
    dsimp only
    by_cases he : l.chars.isEmpty = true
    · rw [if_pos he, if_pos he, List.singleton_append, hnl, List.singleton_append]
    · rw [if_neg he, if_neg he, List.append_assoc, List.append_assoc,
        Segment.ofCode_append_of_notMem hsp, ofCode_line h, List.singleton_append, hnl]
      simp
  | blank => exact hnl rest
  | indent => rfl
  | dedent => rfl

/-- The parts of laid out code are those of its directives. -/
theorem ofCode_layout : ∀ {xs : List Directive}, xs.all Directive.isPlain = true → ∀ d : Nat,
    Segment.ofCode (layout d xs) = layoutSegments d xs
  | [], _, _ => rfl
  | x :: xs, h, d => by
    rw [List.all_cons, Bool.and_eq_true] at h
    rw [layout, layoutSegments, ofCode_written h.1, ofCode_layout h.2]

/-! ## Emptied literals -/

/-- A fragment in which literals are empty. -/
def Fragment.blank : Fragment → Fragment
  | verbatim text => verbatim text
  | literal _ => literal ""
  | number n => number n

/-- A directive in which literals are empty. -/
def Directive.blanked : Directive → Directive
  | line l => line (l.map Fragment.blank)
  | blank => blank
  | indent => indent
  | dedent => dedent

theorem flatMap_char (cs : List Char) : (cs.map Segment.char).flatMap Segment.blankChars = cs := by
  induction cs with
  | nil => rfl
  | cons c cs ih => rw [List.map_cons, List.flatMap_cons, ih]; rfl

theorem blankChars_fragment (f : Fragment) :
    f.segments.flatMap Segment.blankChars = f.blank.chars := by
  cases f with
  | verbatim text => exact flatMap_char _
  | literal text => rfl
  | number n => exact flatMap_char _

theorem blankChars_line : ∀ l : Line,
    (l.flatMap Fragment.segments).flatMap Segment.blankChars = Line.chars (l.map Fragment.blank)
  | [] => rfl
  | f :: l => by
    rw [List.flatMap_cons, List.flatMap_append, blankChars_fragment, blankChars_line l]
    rfl

theorem chars_blank_eq_nil (f : Fragment) : f.blank.chars = [] ↔ f.chars = [] := by
  cases f with
  | verbatim text => exact Iff.rfl
  | literal text => exact ⟨fun h => (nomatch h), fun h => (nomatch h)⟩
  | number n => exact Iff.rfl

/-- A line is empty whether its literals are empty or not. -/
theorem isEmpty_blank (l : Line) :
    (Line.chars (l.map Fragment.blank)).isEmpty = l.chars.isEmpty := by
  rw [Bool.eq_iff_iff, List.isEmpty_iff, List.isEmpty_iff, Line.chars, Line.chars,
    List.flatMap_eq_nil_iff, List.flatMap_eq_nil_iff]
  constructor
  · intro h f hf
    exact (chars_blank_eq_nil f).mp (h _ (List.mem_map_of_mem hf))
  · intro h f hf
    obtain ⟨g, hg, rfl⟩ := List.mem_map.mp hf
    exact (chars_blank_eq_nil g).mpr (h g hg)

theorem blankChars_directive (x : Directive) (d : Nat) :
    (x.segments d).flatMap Segment.blankChars = x.blanked.written d := by
  cases x with
  | line l =>
    unfold Directive.segments Directive.blanked Directive.written
    dsimp only
    rw [isEmpty_blank]
    split
    · rfl
    · rw [List.flatMap_append, List.flatMap_append, flatMap_char, blankChars_line]
      rfl
  | blank => rfl
  | indent => rfl
  | dedent => rfl

theorem depth_blanked (x : Directive) (d : Nat) : x.blanked.depth d = x.depth d := by
  cases x <;> rfl

theorem blankChars_layout : ∀ (xs : List Directive) (d : Nat),
    (layoutSegments d xs).flatMap Segment.blankChars = layout d (xs.map Directive.blanked)
  | [], _ => rfl
  | x :: xs, d => by
    rw [layoutSegments, List.flatMap_append, blankChars_directive, blankChars_layout xs,
      List.map_cons, layout, depth_blanked]

/-- **Code with emptied literals is the code of the directives with empty literals.** -/
theorem blanked_layout {xs : List Directive} (h : xs.all Directive.isPlain = true) (d : Nat) :
    Segment.blanked (layout d xs) = layout d (xs.map Directive.blanked) := by
  rw [Segment.blanked, ofCode_layout h, blankChars_layout]

/-! ## What literals hold -/

/-- The text that a fragment quotes. -/
def Fragment.text? : Fragment → Option String
  | verbatim _ => none
  | literal text => some text
  | number _ => none

/-- The texts that a directive quotes. -/
def Directive.texts : Directive → List String
  | line l => l.filterMap Fragment.text?
  | blank => []
  | indent => []
  | dedent => []

theorem filterMap_char (cs : List Char) : (cs.map Segment.char).filterMap Segment.body? = [] := by
  induction cs with
  | nil => rfl
  | cons c cs ih => rw [List.map_cons, List.filterMap_cons]; exact ih

theorem bodies_line : ∀ l : Line, (l.flatMap Fragment.segments).filterMap Segment.body?
    = (l.filterMap Fragment.text?).map fun s => Literal.escape s.toList
  | [] => rfl
  | f :: l => by
    rw [List.flatMap_cons, List.filterMap_append, bodies_line l]
    cases f with
    | verbatim text => rw [Fragment.segments, filterMap_char]; rfl
    | literal text => rfl
    | number n => rw [Fragment.segments, filterMap_char]; rfl

/-- An empty line quotes nothing. -/
theorem texts_of_isEmpty {l : Line} (h : l.chars.isEmpty = true) :
    l.filterMap Fragment.text? = [] := by
  rw [List.filterMap_eq_nil_iff]
  intro f hf
  have hnil : f.chars = [] :=
    List.flatMap_eq_nil_iff.mp (List.isEmpty_iff.mp h) f hf
  cases f with
  | verbatim text => rfl
  | literal text => cases hnil
  | number n => rfl

theorem bodies_directive (x : Directive) (d : Nat) : (x.segments d).filterMap Segment.body?
    = x.texts.map fun s => Literal.escape s.toList := by
  cases x with
  | line l =>
    unfold Directive.segments Directive.texts
    dsimp only
    split
    · next h => rw [texts_of_isEmpty h]; rfl
    · rw [List.filterMap_append, List.filterMap_append, filterMap_char, bodies_line]
      simp [Segment.body?]
  | blank => rfl
  | indent => rfl
  | dedent => rfl

theorem bodies_layout : ∀ (xs : List Directive) (d : Nat),
    (layoutSegments d xs).filterMap Segment.body?
      = (xs.flatMap Directive.texts).map fun s => Literal.escape s.toList
  | [], _ => rfl
  | x :: xs, d => by
    rw [layoutSegments, List.filterMap_append, bodies_directive, bodies_layout xs,
      List.flatMap_cons, List.map_append]

/-- **The literals of code decode to the texts that its directives quote, in order.** -/
theorem literals_layout {xs : List Directive} (h : xs.all Directive.isPlain = true) (d : Nat) :
    (Segment.literals (layout d xs)).map Literal.unescape
      = (xs.flatMap Directive.texts).map fun s => .ok s.toList := by
  rw [Segment.literals, ofCode_layout h, bodies_layout, List.map_map]
  refine List.map_congr_left fun s _ => ?_
  exact Literal.unescape_escape s.toList

end ApiScenario
