import ApiScenario.Code
import ApiScenario.Program

/-!
# Reading code back

What can be told from the text of laid out code. Literals, numerals and names end at marks that
they do not hold themselves, so two texts that begin with the same words agree in them
(`layout_line_inj` and the lemmas on fragments). A list of things is read one thing after the other,
up to code that does not begin as one of them (`Legible.many`).
-/

namespace ApiScenario

open Directive

/-- What ends at a mark that it does not hold is found again. -/
theorem append_cons_inj {α : Type} {c : α} : ∀ {xs ys : List α}, c ∉ xs → c ∉ ys →
    ∀ {r s : List α}, xs ++ c :: r = ys ++ c :: s → xs = ys ∧ r = s
  | [], [], _, _, _, _, h => ⟨rfl, (List.cons.inj h).2⟩
  | [], y :: ys, _, hys, _, _, h => absurd (List.cons.inj h).1 (List.ne_of_not_mem_cons hys)
  | x :: xs, [], hxs, _, _, _, h => absurd (List.cons.inj h).1.symm (List.ne_of_not_mem_cons hxs)
  | x :: xs, y :: ys, hxs, hys, _, _, h => by
    obtain ⟨hx, ht⟩ := List.cons.inj h
    obtain ⟨hxs', hrest⟩ := append_cons_inj (List.not_mem_of_not_mem_cons hxs)
      (List.not_mem_of_not_mem_cons hys) ht
    exact ⟨by rw [hx, hxs'], hrest⟩

/-! ## Fragments -/

@[simp] theorem chars_nil : Line.chars [] = [] := rfl

theorem chars_cons (f : Fragment) (l : Line) : Line.chars (f :: l) = f.chars ++ l.chars := rfl

theorem chars_append (l l' : Line) : Line.chars (l ++ l') = l.chars ++ l'.chars :=
  List.flatMap_append

/-- After the same word, the same is left of a line. -/
@[simp] theorem chars_verbatim_same (w : String) (l l' : Line) (r s : List Char) :
    Line.chars (.verbatim w :: l) ++ r = Line.chars (.verbatim w :: l') ++ s ↔
      l.chars ++ r = l'.chars ++ s := by
  rw [chars_cons, chars_cons, List.append_assoc, List.append_assoc, List.append_right_inj]

/-- A literal tells its text. -/
@[simp] theorem chars_literal_inj (t t' : String) (l l' : Line) (r s : List Char) :
    Line.chars (.literal t :: l) ++ r = Line.chars (.literal t' :: l') ++ s ↔
      t = t' ∧ l.chars ++ r = l'.chars ++ s := by
  rw [chars_cons, chars_cons, List.append_assoc, List.append_assoc, Fragment.chars, Fragment.chars,
    Literal.quoted_append_inj, String.toList_inj]

/-- A number tells its value if a word follows that does not go on with digits. -/
theorem chars_number_inj {c : Char} (h₁ : c ≠ '-') (h₂ : c.isDigit = false) {cs : List Char}
    {n m : Int64} {l l' : Line} {r s : List Char} :
    Line.chars (.number n :: .verbatim (String.ofList (c :: cs)) :: l) ++ r
        = Line.chars (.number m :: .verbatim (String.ofList (c :: cs)) :: l') ++ s ↔
      n = m ∧ l.chars ++ r = l'.chars ++ s := by
  simp only [chars_cons, Fragment.chars, String.toList_ofList, List.append_assoc, List.cons_append]
  constructor
  · intro h
    obtain ⟨hn, hrest⟩ := append_cons_inj (Decimal.notMem_chars h₁ h₂ n)
      (Decimal.notMem_chars h₁ h₂ m) h
    exact ⟨Decimal.chars_inj.mp hn, List.append_cancel_left hrest⟩
  · rintro ⟨rfl, h⟩
    rw [h]

/-- A word tells itself if the next one begins with a mark that it does not hold. -/
theorem chars_word_inj {w w' : String} {c : Char} (hw : c ∉ w.toList) (hw' : c ∉ w'.toList)
    {cs : List Char} {l l' : Line} {r s : List Char}
    (h : Line.chars (.verbatim w :: .verbatim (String.ofList (c :: cs)) :: l) ++ r
      = Line.chars (.verbatim w' :: .verbatim (String.ofList (c :: cs)) :: l') ++ s) :
    w = w' ∧ l.chars ++ r = l'.chars ++ s := by
  simp only [chars_cons, Fragment.chars, String.toList_ofList, List.append_assoc,
    List.cons_append] at h
  obtain ⟨hword, hrest⟩ := append_cons_inj hw hw' h
  exact ⟨String.toList_inj.mp hword, List.append_cancel_left hrest⟩

/-- A literal is told apart from a word that does not begin with a quote. -/
theorem chars_literal_ne {c : Char} (hc : c ≠ '"') {cs : List Char} (t : String) (l l' : Line)
    (r s : List Char) :
    Line.chars (.literal t :: l) ++ r
      ≠ Line.chars (.verbatim (String.ofList (c :: cs)) :: l') ++ s := by
  simp only [chars_cons, Fragment.chars, String.toList_ofList]
  exact fun h => hc (List.cons.inj h).1.symm

/-! ## Lines -/

-- The next three hold by computation, but as such they would leave `simp` with proofs in which the
-- text of whole files is compared; hence the lemmas on lists.
@[simp] theorem layout_indent (d : Nat) (xs : List Directive) :
    layout d (indent :: xs) = layout (d + 1) xs :=
  List.nil_append _

@[simp] theorem layout_dedent (d : Nat) (xs : List Directive) :
    layout (d + 1) (dedent :: xs) = layout d xs :=
  List.nil_append _

@[simp] theorem layout_blank (d : Nat) (xs : List Directive) :
    layout d (blank :: xs) = '\n' :: layout d xs :=
  List.singleton_append

/-- A line that begins with a word. -/
theorem layout_line {w : String} (hw : w ≠ "") (d : Nat) (l : Line) (xs : List Directive) :
    layout d (line (.verbatim w :: l) :: xs)
      = List.replicate (indentWidth * d) ' ' ++ (w.toList ++ (l.chars ++ '\n' :: layout d xs)) := by
  have hne : w.toList ≠ [] := fun h => hw (String.toList_eq_nil_iff.mp h)
  have hempty : (Line.chars (.verbatim w :: l)).isEmpty = false := by
    simp [Line.chars, Fragment.chars, hne]
  show written d (line (.verbatim w :: l)) ++ layout d xs = _
  rw [written]
  simp only [hempty, Bool.false_eq_true, if_false]
  simp [Line.chars, Fragment.chars]

/-- Only the text of a line matters. -/
theorem layout_line_congr {l l' : Line} (h : l.chars = l'.chars) (d : Nat) (xs : List Directive) :
    layout d (line l :: xs) = layout d (line l' :: xs) := by
  show written d (line l) ++ layout d xs = written d (line l') ++ layout d xs
  rw [written, written, h]

/-- After the same directives, the same text is left. -/
@[simp] theorem layout_line_same (d : Nat) (l : Line) (xs ys : List Directive) :
    layout d (line l :: xs) = layout d (line l :: ys) ↔ layout d xs = layout d ys :=
  List.append_right_inj _

theorem layout_append_same {d e : Nat} {ws : List Directive} (hws : depthAfter d ws = e)
    (xs ys : List Directive) :
    layout d (ws ++ xs) = layout d (ws ++ ys) ↔ layout e xs = layout e ys := by
  rw [layout_append, layout_append, hws, List.append_right_inj]

/-- After the same word, the rest of the line is left. -/
theorem layout_line_inj {w : String} (hw : w ≠ "") {d : Nat} {l l' : Line}
    {xs ys : List Directive} :
    layout d (line (.verbatim w :: l) :: xs) = layout d (line (.verbatim w :: l') :: ys) ↔
      l.chars ++ '\n' :: layout d xs = l'.chars ++ '\n' :: layout d ys := by
  rw [layout_line hw, layout_line hw, List.append_right_inj, List.append_right_inj]

/-- A line with the key and the value of a header tells both. -/
theorem layout_header_inj {w₁ w₂ w₃ : String} (hw : w₁ ≠ "") {d : Nat} {h h' : Header}
    {xs ys : List Directive}
    (he : layout d (line [.verbatim w₁, .literal h.key, .verbatim w₂, .literal h.value,
        .verbatim w₃] :: xs)
      = layout d (line [.verbatim w₁, .literal h'.key, .verbatim w₂, .literal h'.value,
        .verbatim w₃] :: ys)) :
    h = h' ∧ layout d xs = layout d ys := by
  obtain ⟨key, value⟩ := h
  obtain ⟨key', value'⟩ := h'
  rw [layout_line_inj hw] at he
  simpa [and_assoc] using he

/-- Whether neither of two texts begins with the other. -/
def clash (cs cs' : List Char) : Bool := !cs.isPrefixOf cs' && !cs'.isPrefixOf cs

theorem append_ne_of_clash {cs cs' : List Char} (h : clash cs cs' = true) (r s : List Char) :
    cs ++ r ≠ cs' ++ s := by
  intro he
  have hcs : cs <+: cs' ++ s := ⟨r, he⟩
  rcases List.prefix_or_prefix_of_prefix hcs (List.prefix_append cs' s) with hp | hp
  all_goals simp [clash, List.isPrefixOf_iff_prefix.mpr hp] at h

/-- Lines that begin with different words are told apart. -/
theorem layout_line_ne {cs cs' : List Char} (h : clash cs cs' = true) (d : Nat) (l l' : Line)
    (xs ys : List Directive) :
    layout d (line (.verbatim (String.ofList cs) :: l) :: xs)
      ≠ layout d (line (.verbatim (String.ofList cs') :: l') :: ys) := by
  have hcs : String.ofList cs ≠ "" := by
    intro he
    rw [String.ofList_eq_empty_iff.mp he] at h
    cases h
  have hcs' : String.ofList cs' ≠ "" := by
    intro he
    rw [String.ofList_eq_empty_iff.mp he, clash, Bool.and_comm] at h
    cases h
  rw [layout_line hcs, layout_line hcs', String.toList_ofList, String.toList_ofList]
  exact fun he => append_ne_of_clash h _ _ (List.append_cancel_left he)

theorem ofList_cons_ne_empty (c : Char) (cs : List Char) : String.ofList (c :: cs) ≠ "" := by
  intro h
  cases String.ofList_eq_empty_iff.mp h

/-- A line is told apart from one further out that does not begin with a space. -/
theorem layout_line_ne_dedent {w : String} (hw : w ≠ "") {c : Char} (hc : c ≠ ' ') {cs : List Char}
    (d : Nat) (l l' : Line) (xs ys : List Directive) :
    layout (d + 1) (line (.verbatim w :: l) :: xs)
      ≠ layout (d + 1) (dedent :: line (.verbatim (String.ofList (c :: cs)) :: l') :: ys) := by
  have hcs : String.ofList (c :: cs) ≠ "" := ofList_cons_ne_empty c cs
  rw [layout_dedent, layout_line hw, layout_line hcs, String.toList_ofList, Nat.mul_succ,
    ← List.replicate_append_replicate, List.append_assoc]
  intro he
  exact hc (List.cons.inj (List.append_cancel_left he)).1.symm

/-- A line further in is told apart from a blank one. -/
theorem layout_line_ne_blank {w : String} (hw : w ≠ "") (d : Nat) (l : Line)
    (xs ys : List Directive) :
    layout (d + 1) (line (.verbatim w :: l) :: xs) ≠ layout (d + 1) (blank :: ys) := by
  rw [layout_line hw, Nat.mul_succ, ← List.replicate_append_replicate, layout_blank]
  cases d <;> exact fun he => absurd (List.cons.inj he).1 (by decide)

/-- A blank line is told apart from a line further out. -/
theorem layout_blank_ne_dedent {c : Char} (hc : c ≠ '\n') {cs : List Char} (d : Nat) (l : Line)
    (xs ys : List Directive) :
    layout (d + 1) (blank :: xs)
      ≠ layout (d + 1) (dedent :: line (.verbatim (String.ofList (c :: cs)) :: l) :: ys) := by
  have hcs : String.ofList (c :: cs) ≠ "" := ofList_cons_ne_empty c cs
  rw [layout_blank, layout_dedent, layout_line hcs, String.toList_ofList]
  cases d with
  | zero => exact fun he => hc (List.cons.inj he).1.symm
  | succ d =>
    rw [Nat.mul_succ, ← List.replicate_append_replicate]
    cases d <;> exact fun he => absurd (List.cons.inj he).1 (by decide)

/-! ## Things in a row -/

section Legible

variable {α β : Type}

/-- What `f` writes at a level of indentation can be read: where two things with property `P` are
written the same, together with what follows them, they have the same `view`, and what follows is
the same. -/
def Legible (d : Nat) (P : α → Prop) (view : α → β) (f : α → List Directive) : Prop :=
  ∀ ⦃a b⦄, P a → P b → ∀ ⦃xs ys⦄, layout d (f a ++ xs) = layout d (f b ++ ys) →
    view a = view b ∧ layout d xs = layout d ys

/-- Things in a row can be read, if what follows does not begin as one of them. -/
theorem Legible.many {d : Nat} {P : α → Prop} {view : α → β} {f : α → List Directive}
    (hf : Legible d P view f) {xs ys : List Directive}
    (hxs : ∀ a zs, layout d (f a ++ zs) ≠ layout d xs)
    (hys : ∀ a zs, layout d (f a ++ zs) ≠ layout d ys) :
    ∀ {as bs : List α}, (∀ a ∈ as, P a) → (∀ b ∈ bs, P b) →
      layout d (as.flatMap f ++ xs) = layout d (bs.flatMap f ++ ys) →
      as.map view = bs.map view ∧ layout d xs = layout d ys
  | [], [], _, _, h => ⟨rfl, h⟩
  | [], b :: bs, _, _, h => by
    rw [List.flatMap_cons, List.append_assoc] at h
    exact absurd h.symm (hxs b _)
  | a :: as, [], _, _, h => by
    rw [List.flatMap_cons, List.append_assoc] at h
    exact absurd h (hys a _)
  | a :: as, b :: bs, has, hbs, h => by
    rw [List.flatMap_cons, List.append_assoc, List.flatMap_cons, List.append_assoc] at h
    obtain ⟨hab, h⟩ := hf (has a List.mem_cons_self) (hbs b List.mem_cons_self) h
    obtain ⟨hviews, hrest⟩ := hf.many hxs hys (fun x hx => has x (List.mem_cons_of_mem _ hx))
      (fun x hx => hbs x (List.mem_cons_of_mem _ hx)) h
    exact ⟨by rw [List.map_cons, List.map_cons, hab, hviews], hrest⟩

/-- Lines in a row, one for each thing, can be read. -/
theorem layout_map_inj {d : Nat} {f : α → Directive}
    (hf : ∀ a b xs ys, layout d (f a :: xs) = layout d (f b :: ys) →
      a = b ∧ layout d xs = layout d ys)
    {as bs : List α} {xs ys : List Directive} (hxs : ∀ a zs, layout d (f a :: zs) ≠ layout d xs)
    (hys : ∀ a zs, layout d (f a :: zs) ≠ layout d ys)
    (h : layout d (as.map f ++ xs) = layout d (bs.map f ++ ys)) :
    as = bs ∧ layout d xs = layout d ys := by
  have hread : Legible d (fun _ => True) id fun a => [f a] := fun a b _ _ xs ys => hf a b xs ys
  rw [List.map_eq_flatMap, List.map_eq_flatMap] at h
  simpa using hread.many hxs hys (fun _ _ => trivial) (fun _ _ => trivial) h

end Legible

end ApiScenario
