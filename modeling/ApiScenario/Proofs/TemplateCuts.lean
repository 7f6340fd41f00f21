import Mathlib.Data.List.Basic
import ApiScenario.Proofs.Lexemes
import ApiScenario.Template

/-!
# Templates cut at their references

A template is a text without dollar signs, then references, each with such a text behind it. The
name of a reference is the longest identifier behind its dollar sign; if none stands there, it is
empty. A template can be cut like this in exactly one way (`isCut_iff`), and filling goes by this
cut (`fill_eq`).

Whether a template refers to a name is also told without cutting it (`RefersTo`): the name stands
behind a dollar sign, and goes no further there.
-/

namespace ApiScenario

/-- There is at most one longest front. -/
theorem Longest.unique {P : List Char → Prop} {front front' rest rest' : List Char}
    (h : Longest P front rest) (h' : Longest P front' rest')
    (htext : front ++ rest = front' ++ rest') : front = front' ∧ rest = rest' := by
  rcases List.append_eq_append_iff.mp htext with ⟨more, rfl, rfl⟩ | ⟨more, rfl, rfl⟩
  · obtain rfl := h.2 more ⟨rest', rfl⟩ h'.1
    simp
  · obtain rfl := h'.2 more ⟨rest, rfl⟩ h.1
    simp

theorem IsWord.ne_nil {cs : List Char} (h : IsWord cs) : cs ≠ [] := by
  rintro rfl
  cases h

namespace Template

/-! ## Names of references -/

/-- The names that references can have: identifiers, and no name at all. -/
def IsReferenceName (name : List Char) : Prop := name = [] ∨ IsWord name

/-- What an identifier that begins with a name can have next. -/
def goesOn : List Char → Char → Bool
  | [] => Identifier.isFirst
  | _ :: _ => Identifier.isNext

theorem isFirst_of_isWord {c : Char} {cs : List Char} (h : IsWord (c :: cs)) :
    Identifier.isFirst c = true :=
  (Bool.and_eq_true_iff.mp h).1

theorem longest_name_iff_word {name rest : List Char} (hname : IsWord name) :
    Longest IsReferenceName name rest ↔ Longest IsWord name rest := by
  have hne : ∀ more, name ++ more ≠ [] :=
    fun more => List.append_ne_nil_of_left_ne_nil hname.ne_nil _
  constructor
  · rintro ⟨-, hlongest⟩
    exact ⟨hname, fun more hmore hword => hlongest more hmore (.inr hword)⟩
  · rintro ⟨-, hlongest⟩
    refine ⟨.inr hname, ?_⟩
    rintro more hmore (hnil | hword)
    · exact absurd hnil (hne more)
    · exact hlongest more hmore hword

/-- Whether a name is the longest is seen at the first character behind it. -/
theorem longest_name_iff (name rest : List Char) :
    Longest IsReferenceName name rest ↔
      IsReferenceName name ∧ ∀ c, rest.head? = some c → goesOn name c = false := by
  cases name with
  | nil =>
    constructor
    · rintro ⟨hname, hlongest⟩
      refine ⟨hname, ?_⟩
      intro c hc
      obtain ⟨tail, rfl⟩ := List.head?_eq_some_iff.mp hc
      cases hfirst : Identifier.isFirst c with
      | false => exact hfirst
      | true =>
        have hword : IsWord [c] := by simpa [IsWord, Identifier.isIdentifier] using hfirst
        cases hlongest [c] ⟨tail, rfl⟩ (.inr hword)
    · rintro ⟨hname, hout⟩
      refine ⟨hname, ?_⟩
      rintro (_ | ⟨c, more⟩) ⟨tail, rfl⟩ hmore
      · rfl
      · rcases hmore with hnil | hword
        · exact hnil
        · have hfirst := isFirst_of_isWord hword
          rw [show Identifier.isFirst c = false from hout c rfl] at hfirst
          cases hfirst
  | cons c cs =>
    constructor
    · intro h
      have hword : IsWord (c :: cs) := h.1.resolve_left (List.cons_ne_nil c cs)
      exact ⟨h.1, ((longestWord_iff _ _).mp ((longest_name_iff_word hword).mp h)).2⟩
    · rintro ⟨hname, hout⟩
      have hword : IsWord (c :: cs) := hname.resolve_left (List.cons_ne_nil c cs)
      exact (longest_name_iff_word hword).mpr ((longestWord_iff _ _).mpr ⟨hword, hout⟩)

/-- Splitting off an identifier finds the longest name. -/
theorem longest_split (cs : List Char) :
    Longest IsReferenceName (Identifier.split cs).1 (Identifier.split cs).2 := by
  rw [longest_name_iff]
  cases cs with
  | nil => exact ⟨.inl rfl, by simp [Identifier.split]⟩
  | cons c cs =>
    by_cases hc : Identifier.isFirst c = true
    · rw [Identifier.split, if_pos hc]
      refine ⟨.inr ?_, boundary_dropWhile Identifier.isNext cs⟩
      rw [IsWord, Identifier.isIdentifier, hc, Bool.true_and, List.all_eq_true]
      exact mem_takeWhile
    · rw [Identifier.split, if_neg hc]
      refine ⟨.inl rfl, ?_⟩
      rintro d ⟨⟩
      exact Bool.not_eq_true _ ▸ hc

theorem split_of_longest {name rest : List Char} (h : Longest IsReferenceName name rest) :
    Identifier.split (name ++ rest) = (name, rest) := by
  obtain ⟨hname, hrest⟩ := (longest_split (name ++ rest)).unique h (Identifier.split_append _)
  exact Prod.ext hname hrest

/-! ## Cuts -/

/-- A reference and the text behind it. -/
structure Part where
  name : List Char
  /-- What stands behind the name, up to the next dollar sign. -/
  text : List Char
deriving DecidableEq, Repr

/-- A template cut at its references. -/
structure Cut where
  /-- What stands before the first dollar sign. -/
  first : List Char
  parts : List Part
deriving DecidableEq, Repr

/-- A part as it is written. -/
def Part.chars (r : Part) : List Char := '$' :: (r.name ++ r.text)

/-- The template that was cut. -/
def Cut.chars (s : Cut) : List Char := s.first ++ s.parts.flatMap Part.chars

/-- Parts in a row: each name is the longest behind its dollar sign, and the texts have no dollar
signs. -/
def AreParts : List Part → Prop
  | [] => True
  | r :: rs =>
    Longest IsReferenceName r.name (r.text ++ rs.flatMap Part.chars) ∧ '$' ∉ r.text ∧ AreParts rs

/-- A template is cut at all of its references, and nowhere else. -/
structure Cut.IsCut (s : Cut) (cs : List Char) : Prop where
  chars : s.chars = cs
  first : '$' ∉ s.first
  parts : AreParts s.parts

/-! ## Cuts and pieces -/

/-- The pieces of a part. -/
def Part.pieces (r : Part) : List Piece := .reference r.name :: r.text.map .char

/-- The pieces of a template that was cut. -/
def Cut.pieces (s : Cut) : List Piece := s.first.map .char ++ s.parts.flatMap Part.pieces

/-- A cut with a piece put before it. -/
def Cut.add : Piece → Cut → Cut
  | .char c, s => ⟨c :: s.first, s.parts⟩
  | .reference name, s => ⟨[], ⟨name, s.first⟩ :: s.parts⟩

/-- The cut of a template. -/
def cut (cs : List Char) : Cut := (pieces cs).foldr Cut.add ⟨[], []⟩

theorem pieces_append_of_notMem {front : List Char} (h : '$' ∉ front) (rest : List Char) :
    pieces (front ++ rest) = front.map .char ++ pieces rest := by
  induction front with
  | nil => rfl
  | cons c front ih =>
    have hc : c ≠ '$' := (List.ne_of_not_mem_cons h).symm
    rw [List.cons_append, pieces, if_neg hc, ih (List.not_mem_of_not_mem_cons h)]
    rfl

theorem pieces_reference {name rest : List Char} (h : Longest IsReferenceName name rest) :
    pieces ('$' :: (name ++ rest)) = .reference name :: pieces rest := by
  rw [pieces, if_pos rfl, split_of_longest h]

theorem pieces_parts {rs : List Part} (h : AreParts rs) :
    pieces (rs.flatMap Part.chars) = rs.flatMap Part.pieces := by
  induction rs with
  | nil => simp [pieces]
  | cons r rs ih =>
    obtain ⟨hname, htext, hrs⟩ := h
    calc pieces ((r :: rs).flatMap Part.chars)
        = pieces ('$' :: (r.name ++ (r.text ++ rs.flatMap Part.chars))) := by simp [Part.chars]
      _ = .reference r.name :: (r.text.map .char ++ rs.flatMap Part.pieces) := by
          rw [pieces_reference hname, pieces_append_of_notMem htext, ih hrs]
      _ = (r :: rs).flatMap Part.pieces := by simp [Part.pieces]

theorem pieces_of_isCut {s : Cut} {cs : List Char} (h : s.IsCut cs) : pieces cs = s.pieces := by
  rw [← h.chars, Cut.chars, pieces_append_of_notMem h.first, pieces_parts h.parts, Cut.pieces]

/-- Pieces of a cut put together are the cut. -/
theorem foldr_add_pieces (s : Cut) : s.pieces.foldr Cut.add ⟨[], []⟩ = s := by
  have htext : ∀ (cs : List Char) (s : Cut),
      (cs.map Piece.char).foldr Cut.add s = ⟨cs ++ s.first, s.parts⟩ := by
    intro cs s
    induction cs with
    | nil => rfl
    | cons c cs ih =>
      rw [List.map_cons, List.foldr_cons, ih]
      rfl
  have hparts : ∀ rs : List Part, (rs.flatMap Part.pieces).foldr Cut.add ⟨[], []⟩ = ⟨[], rs⟩ := by
    intro rs
    induction rs with
    | nil => rfl
    | cons r rs ih =>
      rw [List.flatMap_cons, List.foldr_append, ih, Part.pieces, List.foldr_cons, htext]
      simp [Cut.add]
  rw [Cut.pieces, List.foldr_append, hparts, htext, List.append_nil]

/-- **A template can be cut at its references.** -/
theorem isCut_cut (cs : List Char) : (cut cs).IsCut cs := by
  unfold cut
  fun_induction pieces cs with
  | case1 => exact ⟨rfl, List.not_mem_nil, trivial⟩
  | case2 rest ih =>
    obtain ⟨hchars, hfirst, hparts⟩ := ih
    unfold Cut.chars at hchars
    -- What stood first in the rest now stands behind the name.
    refine ⟨?_, List.not_mem_nil, ?_, hfirst, hparts⟩
    · simp [Cut.add, Cut.chars, Part.chars, hchars, Identifier.split_append]
    · rw [hchars]
      exact longest_split rest
  | case3 c rest hc ih =>
    obtain ⟨hchars, hfirst, hparts⟩ := ih
    refine ⟨congrArg (c :: ·) hchars, ?_, hparts⟩
    exact List.not_mem_cons_of_ne_of_not_mem (Ne.symm hc) hfirst

/-- **A template can be cut at its references in one way only.** -/
theorem isCut_iff {s : Cut} {cs : List Char} : s.IsCut cs ↔ s = cut cs := by
  constructor
  · intro h
    rw [cut, pieces_of_isCut h, foldr_add_pieces]
  · rintro rfl
    exact isCut_cut cs

/-- A reference with a name is replaced by the value of the name, if it has one. -/
theorem fill_reference {value? : String → Option String} {name : List Char} (h : name ≠ []) :
    (Piece.reference name).fill value?
      = ((value? (String.ofList name)).map String.toList).getD ('$' :: name) := by
  cases name with
  | nil => exact absurd rfl h
  | cons c cs =>
    rw [Piece.fill, if_neg (by simp)]
    cases value? (String.ofList (c :: cs)) <;> rfl

/-- Filling goes by the cut. -/
theorem fill_eq (value? : String → Option String) (cs : List Char) :
    fill value? cs = (cut cs).first ++
      (cut cs).parts.flatMap fun r => (Piece.reference r.name).fill value? ++ r.text := by
  have htext : ∀ text : List Char, (text.map Piece.char).flatMap (Piece.fill value?) = text := by
    intro text
    rw [List.flatMap_map]
    exact List.flatMap_singleton' text
  rw [fill, pieces_of_isCut (isCut_cut cs), Cut.pieces, List.flatMap_append, htext,
    List.flatMap_assoc]
  simp only [Part.pieces, List.flatMap_cons, htext]

/-! ## Names that a template refers to -/

/-- A template refers to a name: behind a dollar sign the name is the longest identifier. -/
def RefersTo (cs : List Char) (name : String) : Prop :=
  ∃ before after, cs = before ++ '$' :: (name.toList ++ after) ∧ Longest IsWord name.toList after

/-- A dollar sign begins a new piece. -/
theorem pieces_append_dollar (before rest : List Char) :
    pieces (before ++ '$' :: rest) = pieces before ++ pieces ('$' :: rest) := by
  fun_induction pieces before with
  | case1 => rfl
  | case2 tail ih =>
    -- The name in front of the dollar sign ends where it ended before.
    have hlongest : Longest IsReferenceName (Identifier.split tail).1
        ((Identifier.split tail).2 ++ '$' :: rest) := by
      have hsplit := longest_split tail
      rw [longest_name_iff] at hsplit ⊢
      refine ⟨hsplit.1, ?_⟩
      intro c hc
      cases htail : (Identifier.split tail).2 with
      | nil =>
        rw [htail] at hc
        obtain rfl : '$' = c := Option.some.inj hc
        cases (Identifier.split tail).1 <;> rfl
      | cons d ds =>
        rw [htail] at hc hsplit
        exact hsplit.2 c hc
    calc pieces ('$' :: tail ++ '$' :: rest)
        = pieces ('$' :: ((Identifier.split tail).1 ++
            ((Identifier.split tail).2 ++ '$' :: rest))) := by
          rw [← List.append_assoc, Identifier.split_append]
          rfl
      _ = _ := by rw [pieces_reference hlongest, ih]; rfl
  | case3 c tail hc ih => rw [List.cons_append, pieces, if_neg hc, ih]; rfl

/-- A reference among the pieces of a template is a longest name behind a dollar sign. -/
theorem reference_mem_pieces_iff {cs name : List Char} :
    .reference name ∈ pieces cs ↔
      ∃ before after, cs = before ++ '$' :: (name ++ after) ∧
        Longest IsReferenceName name after := by
  constructor
  · intro hmem
    fun_induction pieces cs with
    | case1 => cases hmem
    | case2 rest ih =>
      rcases List.mem_cons.mp hmem with hname | hmem
      · obtain rfl := Piece.reference.inj hname
        exact ⟨[], (Identifier.split rest).2, by simp [Identifier.split_append], longest_split rest⟩
      · obtain ⟨before, after, hrest, hlongest⟩ := ih hmem
        refine ⟨'$' :: ((Identifier.split rest).1 ++ before), after, ?_, hlongest⟩
        rw [List.cons_append, List.append_assoc, ← hrest, Identifier.split_append]
    | case3 c rest _ ih =>
      rcases List.mem_cons.mp hmem with hname | hmem
      · cases hname
      · obtain ⟨before, after, rfl, hlongest⟩ := ih hmem
        exact ⟨c :: before, after, rfl, hlongest⟩
  · rintro ⟨before, after, rfl, hlongest⟩
    rw [pieces_append_dollar, pieces_reference hlongest]
    exact List.mem_append_right _ List.mem_cons_self

/-- The names that a template refers to are those of its references, an empty one left out. -/
theorem refersTo_iff {cs : List Char} {name : String} :
    RefersTo cs name ↔ .reference name.toList ∈ pieces cs ∧ name.toList ≠ [] := by
  rw [reference_mem_pieces_iff]
  constructor
  · rintro ⟨before, after, hcs, hword⟩
    exact ⟨⟨before, after, hcs, (longest_name_iff_word hword.1).mpr hword⟩, hword.1.ne_nil⟩
  · rintro ⟨⟨before, after, hcs, hlongest⟩, hne⟩
    exact ⟨before, after, hcs,
      (longest_name_iff_word (hlongest.1.resolve_left hne)).mp hlongest⟩

/-- **The names that a template refers to.** -/
theorem mem_references_iff {cs : List Char} {name : String} :
    name ∈ references cs ↔ RefersTo cs name := by
  rw [refersTo_iff, references, List.mem_filterMap]
  constructor
  · rintro ⟨_ | n, hmem, hname⟩
    · cases hname
    · cases n with
      | nil => cases hname
      | cons c n =>
        obtain rfl : String.ofList (c :: n) = name := Option.some.inj hname
        rw [String.toList_ofList]
        exact ⟨hmem, List.cons_ne_nil c n⟩
  · rintro ⟨hmem, hne⟩
    refine ⟨_, hmem, ?_⟩
    dsimp only
    rw [if_neg (by simpa using hne), String.ofList_toList]

/-- The references of a template are those at which it is cut. -/
theorem reference_mem_pieces_iff_cut {cs name : List Char} :
    .reference name ∈ pieces cs ↔ ∃ r ∈ (cut cs).parts, r.name = name := by
  rw [pieces_of_isCut (isCut_cut cs)]
  simp [Cut.pieces, Part.pieces, eq_comm]

/-- **Filling asks for the values of the names that are referred to, and no others.** -/
theorem fill_congr {value? value?' : String → Option String} {cs : List Char}
    (h : ∀ name, RefersTo cs name → value? name = value?' name) :
    fill value? cs = fill value?' cs := by
  unfold fill
  refine List.flatMap_congr fun piece hpiece => ?_
  cases piece with
  | char c => rfl
  | reference name =>
    by_cases hname : name = []
    · rw [hname]
      rfl
    · have hrefers : RefersTo cs (String.ofList name) := by
        rw [refersTo_iff, String.toList_ofList]
        exact ⟨hpiece, hname⟩
      rw [fill_reference hname, fill_reference hname, h _ hrefers]

/-- Without values a template stays as it is. -/
theorem fill_none (cs : List Char) : fill (fun _ => none) cs = cs := by
  have hpiece : Piece.fill (fun _ => none) = Piece.chars := by
    funext piece
    rcases piece with c | _ | ⟨c, name⟩ <;> rfl
  rw [fill, hpiece, flatMap_pieces]

/-- A text without dollar signs stays as it is. -/
theorem fill_of_notMem (value? : String → Option String) {cs : List Char} (h : '$' ∉ cs) :
    fill value? cs = cs := by
  have hnone : fill value? cs = fill (fun _ => none) cs := by
    refine fill_congr ?_
    rintro name ⟨before, after, rfl, -⟩
    simp at h
  rw [hnone, fill_none]

end Template

end ApiScenario
