import Mathlib.Data.List.DropRight
import Mathlib.Data.List.Induction
import Mathlib.Order.Defs.PartialOrder
import ApiScenario.Position

/-!
# Lines and columns

Where something stands, told by counting. A line is what stands between two line feeds: the line of a
place is one more than the number of line feeds before it, and its column one more than the number of
characters behind the last of them (`Position.StandsBehind`). Carriage returns, tabs and characters
outside of ASCII are one column each.

Going on from character to character comes to the same counts, in 32 bits (`start_after`). They are
exact behind every text that is not too long (`behind_iff`), a longer text then ends at a later place
(`lt_of_standsBehind`), and a place leads back to what stands there (`charIn?_of_standsBehind`).
-/

namespace ApiScenario.Position

/-! ## The order of places -/

theorem lt_iff (p q : Position) :
    p < q ↔ p.line.toNat < q.line.toNat ∨
      (p.line.toNat = q.line.toNat ∧ p.column.toNat < q.column.toNat) := by
  show p.line < q.line ∨ (p.line = q.line ∧ p.column < q.column) ↔ _
  rw [UInt32.lt_iff_toNat_lt, UInt32.lt_iff_toNat_lt, UInt32.toNat_inj]

theorem le_iff (p q : Position) :
    p ≤ q ↔ p.line.toNat < q.line.toNat ∨
      (p.line.toNat = q.line.toNat ∧ p.column.toNat ≤ q.column.toNat) := by
  show p.line < q.line ∨ (p.line = q.line ∧ p.column ≤ q.column) ↔ _
  rw [UInt32.lt_iff_toNat_lt, UInt32.le_iff_toNat_le, UInt32.toNat_inj]

instance : Preorder Position where
  le_refl p := by
    rw [le_iff]
    omega
  le_trans p q r h h' := by
    rw [le_iff] at *
    omega
  lt_iff_le_not_ge p q := by
    rw [le_iff, le_iff, lt_iff]
    omega

/-! ## Places by counting -/

/-- The last line of a text, as far as it goes. -/
def lastLine (text : List Char) : List Char := text.rtakeWhile (· != '\n')

/-- A place behind a text that stands at the front of a source. -/
def StandsBehind (p : Position) (text : List Char) : Prop :=
  p.line.toNat = 1 + text.count '\n' ∧ p.column.toNat = 1 + (lastLine text).length

/-- The place behind a text, in 32 bits. -/
def behind (text : List Char) : Position where
  line := .ofNat (1 + text.count '\n')
  column := .ofNat (1 + (lastLine text).length)

theorem lastLine_concat_lineFeed (text : List Char) : lastLine (text ++ ['\n']) = [] :=
  List.rtakeWhile_concat_neg _ _ _ (by simp)

theorem lastLine_concat {c : Char} (hc : c ≠ '\n') (text : List Char) :
    lastLine (text ++ [c]) = lastLine text ++ [c] :=
  List.rtakeWhile_concat_pos _ _ _ (by simpa using hc)

theorem length_lastLine_le (text : List Char) : (lastLine text).length ≤ text.length :=
  (List.rtakeWhile_suffix (· != '\n') text).length_le

/-- What follows without line feeds belongs to the last line. -/
theorem lastLine_append {more : List Char} (h : '\n' ∉ more) (text : List Char) :
    lastLine (text ++ more) = lastLine text ++ more := by
  induction more using List.reverseRecOn with
  | nil => rw [List.append_nil, List.append_nil]
  | append_singleton more c ih =>
    rw [List.mem_append, not_or, List.mem_singleton] at h
    rw [← List.append_assoc, lastLine_concat (Ne.symm h.2), ih h.1, List.append_assoc]

theorem behind_concat (text : List Char) (c : Char) :
    behind (text ++ [c]) = (behind text).advance c := by
  unfold behind advance
  by_cases hc : c = '\n'
  · subst hc
    rw [lastLine_concat_lineFeed, if_pos rfl, List.count_append, ← Nat.add_assoc, UInt32.ofNat_add]
    rfl
  · rw [lastLine_concat hc, if_neg hc, List.count_append, List.count_singleton,
      if_neg (by simpa using hc), Nat.add_zero, List.length_append, ← Nat.add_assoc,
      UInt32.ofNat_add (1 + (lastLine text).length)]
    rfl

/-- **Going through a text character by character counts its lines and columns.** -/
theorem start_after (text : List Char) : start.after text = behind text := by
  induction text using List.reverseRecOn with
  | nil => rfl
  | append_singleton text c ih =>
    rw [after_append, ih, behind_concat]
    rfl

/-- A text without line feeds stays in its line. -/
theorem after_of_notMem {text : List Char} (h : '\n' ∉ text) (p : Position) :
    p.after text = p.moveRight text.length := by
  induction text generalizing p with
  | nil => simp [moveRight]
  | cons c text ih =>
    rw [List.mem_cons, not_or] at h
    rw [after_cons, ih h.2, advance, if_neg (Ne.symm h.1), moveRight, moveRight, List.length_cons,
      Nat.add_comm, UInt32.ofNat_add, UInt32.add_assoc]
    rfl

/-! ## Texts that are short enough -/

/-- The line or the column behind a text is the first that cannot be told in 32 bits. Only the longest
of texts that are short enough can end there, and only if they are one line or nothing but line
feeds. -/
def EndsBeyond (text : List Char) : Prop :=
  text.length + 1 = UInt32.size ∧ ('\n' ∉ text ∨ ∀ c ∈ text, c = '\n')

theorem lastLine_eq_self_iff (text : List Char) :
    (lastLine text).length = text.length ↔ '\n' ∉ text := by
  constructor
  · intro h hmem
    have hsame := (List.rtakeWhile_suffix (· != '\n') text).eq_of_length h
    have hall := List.mem_rtakeWhile_imp (p := (· != '\n')) (hsame.symm ▸ hmem)
    simp at hall
  · intro h
    rw [← List.nil_append text, lastLine_append h []]
    rfl

/-- **Places are exact behind every text of fewer than `2 ^ 32` characters**, but for those that end
just beyond what can be told. -/
theorem behind_iff {text : List Char} (h : text.length < UInt32.size) :
    (behind text).StandsBehind text ↔ ¬ EndsBeyond text := by
  have hcount : text.count '\n' ≤ text.length := List.count_le_length
  have hall : text.count '\n' = text.length ↔ ∀ c ∈ text, c = '\n' := by
    rw [List.count_eq_length]
    exact forall₂_congr fun c _ => eq_comm
  have hlast := length_lastLine_le text
  have hone := lastLine_eq_self_iff text
  have hsize : UInt32.size = 4294967296 := rfl
  unfold StandsBehind EndsBeyond behind
  rw [← hone, ← hall, UInt32.toNat_ofNat', UInt32.toNat_ofNat']
  omega

/-- A text that is not the whole of a source does not end beyond what can be told. -/
theorem standsBehind_of_append {text more : List Char} (hmore : more ≠ [])
    (h : (text ++ more).length < UInt32.size) : (behind text).StandsBehind text := by
  have hlength := List.length_pos_of_ne_nil hmore
  rw [List.length_append] at h
  refine (behind_iff (by omega)).mpr ?_
  rintro ⟨hbeyond, -⟩
  omega

/-- **The place behind a longer text is a later one.** -/
theorem lt_of_standsBehind {p q : Position} {text more : List Char} (hmore : more ≠ [])
    (hp : p.StandsBehind text) (hq : q.StandsBehind (text ++ more)) : p < q := by
  obtain ⟨hline, hcolumn⟩ := hp
  obtain ⟨hline', hcolumn'⟩ := hq
  rw [List.count_append] at hline'
  rw [lt_iff]
  by_cases hfeed : '\n' ∈ more
  · have hcount := List.count_pos_iff.mpr hfeed
    omega
  · have hlength := List.length_pos_of_ne_nil hmore
    rw [List.count_eq_zero.mpr hfeed] at hline'
    rw [lastLine_append hfeed, List.length_append] at hcolumn'
    omega

/-! ## What stands at a place -/

/-- The character of a source at a place. A line feed ends its line and is in none. -/
def charIn? (source : List Char) (p : Position) : Option Char :=
  match p.line.toNat, p.column.toNat with
  | line + 1, column + 1 => (source.splitOn '\n')[line]?.bind (·[column]?)
  | _, _ => none

theorem length_splitOn (cs : List Char) : (cs.splitOn '\n').length = cs.count '\n' + 1 := by
  induction cs with
  | nil => rfl
  | cons c cs ih =>
    rw [List.splitOn_cons_eq_if_modifyHead, List.count_cons]
    split <;> simp [ih]

theorem head?_splitOn_cons {c : Char} (hc : c ≠ '\n') (rest : List Char) :
    ((c :: rest).splitOn '\n').head? = (rest.splitOn '\n').head?.map (c :: ·) := by
  rw [List.splitOn_cons_eq_if_modifyHead, if_neg (by simpa using hc), List.head?_modifyHead]

/-- Behind a text the source goes on in the last line of the text. -/
theorem getElem?_splitOn_append (text rest : List Char) :
    ∃ more, ((text ++ rest).splitOn '\n')[text.count '\n']? = some (lastLine text ++ more) ∧
      (rest.splitOn '\n').head? = some more := by
  induction text using List.reverseRecOn generalizing rest with
  | nil =>
    have hfirst := List.head?_eq_some_head (List.splitOn_ne_nil '\n' rest)
    exact ⟨_, List.head?_eq_getElem?.symm.trans hfirst, hfirst⟩
  | append_singleton text c ih =>
    rw [List.append_assoc, List.singleton_append, List.count_append, List.count_singleton]
    by_cases hc : c = '\n'
    · -- A line feed ends the lines of the text, and the next line is the first of the rest.
      subst hc
      have hfirst := List.head?_eq_some_head (List.splitOn_ne_nil '\n' rest)
      refine ⟨_, ?_, hfirst⟩
      rw [List.splitOn_append_cons_self, lastLine_concat_lineFeed,
        List.getElem?_append_right (by simp [length_splitOn]), length_splitOn]
      simpa [← List.head?_eq_getElem?] using hfirst
    · obtain ⟨more, hline, hmore⟩ := ih (c :: rest)
      rw [head?_splitOn_cons hc] at hmore
      obtain ⟨line, hfirst, rfl⟩ := Option.map_eq_some_iff.mp hmore
      refine ⟨line, ?_, hfirst⟩
      rw [if_neg (by simpa using hc), lastLine_concat hc, List.append_assoc]
      exact hline

/-- **A place leads back to the character that stands there.** -/
theorem charIn?_of_standsBehind {p : Position} {c : Char} {text : List Char}
    (hp : p.StandsBehind text) (hc : c ≠ '\n') (rest : List Char) :
    charIn? (text ++ c :: rest) p = some c := by
  obtain ⟨more, hline, hmore⟩ := getElem?_splitOn_append text (c :: rest)
  rw [head?_splitOn_cons hc] at hmore
  obtain ⟨line, -, rfl⟩ := Option.map_eq_some_iff.mp hmore
  unfold charIn?
  rw [hp.1, hp.2, Nat.add_comm, Nat.add_comm 1]
  show ((text ++ c :: rest).splitOn '\n')[text.count '\n']?.bind (·[(lastLine text).length]?) = _
  rw [hline, Option.bind_some, List.getElem?_append_right (Nat.le_refl _), Nat.sub_self]
  rfl

end ApiScenario.Position
