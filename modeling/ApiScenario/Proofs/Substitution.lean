import ApiScenario.Proofs.TemplateCuts
import ApiScenario.Variables

/-!
# Substitution

A text with the values of variables in it is the text cut at its references, with each reference
replaced (`substitute_fills_references`). What replaces a reference is told by the declarations
alone: the value of the last declaration of its name, or the reference itself if there is none
(`putFor_iff`). That nothing is looked for without variables or without a dollar sign makes no
difference (`substitute_eq`).
-/

namespace ApiScenario.Variables

open Template

/-! ## Looking up a variable -/

theorem get?_append (vs ws : List Variable) (name : String) :
    get? (vs ++ ws) name = (get? ws name).or (get? vs name) := by
  unfold get?
  rw [List.reverse_append, List.find?_append]
  cases ws.reverse.find? (·.name == name) <;> rfl

theorem get?_cons (d : Variable) (vs : List Variable) (name : String) :
    get? (d :: vs) name =
      (get? vs name).or (if d.name = name then some d.value.text else none) := by
  rw [← List.singleton_append, get?_append]
  congr 1
  by_cases h : d.name = name <;> simp [get?, h]

theorem get?_eq_none_iff {vs : List Variable} {name : String} :
    get? vs name = none ↔ ∀ d ∈ vs, d.name ≠ name := by
  simp [get?]

/-- A declaration that no other of its name follows. -/
def IsLast (vs : List Variable) (d : Variable) : Prop :=
  ∃ before after, vs = before ++ d :: after ∧ ∀ e ∈ after, e.name ≠ d.name

theorem get?_of_isLast {vs : List Variable} {d : Variable} (h : IsLast vs d) :
    get? vs d.name = some d.value.text := by
  obtain ⟨before, after, rfl, hafter⟩ := h
  rw [get?_append, get?_cons, get?_eq_none_iff.mpr hafter, if_pos rfl]
  rfl

/-- **A variable has the value of its last declaration.** -/
theorem get?_eq_some_iff {vs : List Variable} {name text : String} :
    get? vs name = some text ↔ ∃ d, IsLast vs d ∧ d.name = name ∧ d.value.text = text := by
  constructor
  · intro h
    -- The search is from the end: what it passes by before it finds a declaration comes after it.
    obtain ⟨d, hfind, htext⟩ := Option.map_eq_some_iff.mp h
    obtain ⟨hname, before, after, hsplit, hbefore⟩ := List.find?_eq_some_iff_append.mp hfind
    obtain rfl : d.name = name := by simpa using hname
    refine ⟨d, ⟨after.reverse, before.reverse, ?_, ?_⟩, rfl, htext⟩
    · rw [← List.reverse_inj, hsplit]
      simp
    · intro e he
      simpa using hbefore e (List.mem_reverse.mp he)
  · rintro ⟨d, hlast, rfl, rfl⟩
    exact get?_of_isLast hlast

/-! ## What replaces a reference -/

/-- What is put in the place of a reference: the value of the last declaration of its name, and the
reference itself if it has no name or its name is not declared. -/
inductive PutFor (vs : List Variable) (name : List Char) : List Char → Prop
  | value {d : Variable} : name ≠ [] → IsLast vs d → d.name = String.ofList name →
      PutFor vs name d.value.text.toList
  | itself : (name = [] ∨ ∀ d ∈ vs, d.name ≠ String.ofList name) → PutFor vs name ('$' :: name)

theorem putFor_iff {vs : List Variable} {name put : List Char} :
    PutFor vs name put ↔ put = (Piece.reference name).fill (get? vs) := by
  by_cases hne : name = []
  · subst hne
    constructor
    · rintro (⟨hname, -, -⟩ | -)
      · exact absurd rfl hname
      · rfl
    · rintro rfl
      exact .itself (.inl rfl)
  · rw [fill_reference hne]
    constructor
    · rintro (⟨-, hlast, hname⟩ | hnone)
      · rw [← hname, get?_of_isLast hlast]
        rfl
      · rw [get?_eq_none_iff.mpr (hnone.resolve_left hne)]
        rfl
    · rintro rfl
      cases hget : get? vs (String.ofList name) with
      | none => exact .itself (.inr (get?_eq_none_iff.mp hget))
      | some value =>
        obtain ⟨d, hlast, hname, rfl⟩ := get?_eq_some_iff.mp hget
        exact .value hne hlast hname

/-- Parts of a template with their references replaced. -/
inductive Filled (vs : List Variable) : List Part → List Char → Prop
  | nil : Filled vs [] []
  | cons {r : Part} {rs : List Part} {put rest : List Char} :
      PutFor vs r.name put → Filled vs rs rest → Filled vs (r :: rs) (put ++ (r.text ++ rest))

theorem filled_iff {vs : List Variable} {rs : List Part} {out : List Char} :
    Filled vs rs out ↔
      out = rs.flatMap fun r => (Piece.reference r.name).fill (get? vs) ++ r.text := by
  induction rs generalizing out with
  | nil =>
    constructor
    · rintro ⟨⟩
      rfl
    · rintro rfl
      exact .nil
  | cons r rs ih =>
    rw [List.flatMap_cons, List.append_assoc]
    constructor
    · rintro (_ | ⟨hput, hrest⟩)
      rw [putFor_iff.mp hput, ih.mp hrest]
    · rintro rfl
      exact .cons (putFor_iff.mpr rfl) (ih.mpr rfl)

/-! ## The whole text -/

/-- **Substitution fills the text, also where it does not look for references.** -/
theorem substitute_eq (vs : List Variable) (text : String) :
    substitute vs text = String.ofList (fill (get? vs) text.toList) := by
  unfold substitute
  split
  · next h =>
    rcases Bool.or_eq_true_iff.mp h with hvs | hdollar
    · obtain rfl := List.isEmpty_iff.mp hvs
      rw [show get? [] = fun _ => none from rfl, fill_none, String.ofList_toList]
    · rw [fill_of_notMem, String.ofList_toList]
      simpa using hdollar
  · rfl

/-- **Substitution replaces the references of a text, and nothing else.** There is one way to cut
the text at its references. The result is the text before the first of them, then for each
reference what is put in its place and the text behind it. Values are not looked at again, and
where no references are looked for the result is the same. -/
theorem substitute_fills_references (vs : List Variable) (text : String) :
    (∃ s : Cut, s.IsCut text.toList ∧ (∀ s' : Cut, s'.IsCut text.toList → s' = s) ∧
      ∀ out : List Char,
        (substitute vs text).toList = s.first ++ out ↔ Filled vs s.parts out) ∧
    substitute vs text = String.ofList (fill (get? vs) text.toList) := by
  refine ⟨⟨cut text.toList, isCut_cut _, fun s' hs' => isCut_iff.mp hs', ?_⟩, substitute_eq vs text⟩
  intro out
  rw [substitute_eq, String.toList_ofList, fill_eq, List.append_cancel_left_eq, filled_iff, eq_comm]

end ApiScenario.Variables
