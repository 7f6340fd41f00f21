import ApiScenario.Proofs.CodeReading
import ApiScenario.Proofs.Gaps

/-!
# Reading code from the front

Code is read from left to right: a word, a numeral or a literal is taken from the front of a text,
and what follows it is left. What a fragment of a line writes is read as it was written, whatever
follows it; behind a numeral no digit may follow.

Numerals are those that all target languages read in base ten. Digits behind a zero are refused,
for to some of them they are octal.
-/

namespace ApiScenario.Front

/-! ## Words and literals -/

/-- What follows a word at the front of a text. -/
def word? (w : String) (cs : List Char) : Option (List Char) :=
  if w.toList.isPrefixOf cs then some (cs.drop w.toList.length) else none

/-- A word is read, whatever follows it. -/
@[simp] theorem word?_append (w : String) (rest : List Char) :
    word? w (w.toList ++ rest) = some rest := by
  have hfront : w.toList.isPrefixOf (w.toList ++ rest) = true :=
    List.isPrefixOf_iff_prefix.mpr (List.prefix_append _ _)
  rw [word?, if_pos hfront, List.drop_left]

/-- A word is not read where another one stands. -/
theorem word?_of_clash {w : String} {cs : List Char} (h : clash w.toList cs = true)
    (rest : List Char) : word? w (cs ++ rest) = none := by
  rw [word?, if_neg]
  intro hfront
  obtain ⟨more, hmore⟩ := List.isPrefixOf_iff_prefix.mp hfront
  exact append_ne_of_clash h more rest hmore

/-- Whether a word has a first character of some kind. -/
def leads (p : Char → Bool) (w : String) : Bool := w.toList.head?.any p

theorem exists_cons_of_leads {p : Char → Bool} {w : String} (h : leads p w = true) :
    ∃ c cs, w.toList = c :: cs ∧ p c = true := by
  cases hw : w.toList with
  | nil => simp [leads, hw] at h
  | cons c cs => exact ⟨c, cs, rfl, by simpa [leads, hw] using h⟩

/-- The body of a literal at the front of a text, and what follows the literal. -/
def literal? : List Char → Option (List Char × List Char)
  | '"' :: cs => Literal.close? cs
  | _ => none

@[simp] theorem literal?_quoted (s rest : List Char) :
    literal? (Literal.quoted s ++ rest) = some (Literal.escape s, rest) := by
  rw [Literal.quoted, List.cons_append, List.append_assoc, List.singleton_append]
  exact Literal.close?_escape s rest

/-! ## Numerals -/

/-- The natural number whose digits stand at the front of a text, and what follows them. -/
def natural? (cs : List Char) : Option (Nat × List Char) :=
  let ds := cs.takeWhile Char.isDigit
  if ds = [] ∨ ds.head? = some '0' ∧ ds ≠ ['0'] then none
  else some (Nat.ofDigitChars 10 ds 0, cs.dropWhile Char.isDigit)

/-- The integer whose numeral stands at the front of a text, and what follows it. -/
def integer? : List Char → Option (Int × List Char)
  | '-' :: cs => (natural? cs).map fun (n, rest) => (-(n : Int), rest)
  | cs => (natural? cs).map fun (n, rest) => ((n : Int), rest)

theorem natural?_toDigits (n : Nat) {rest : List Char}
    (h : ∀ c, rest.head? = some c → c.isDigit = false) :
    natural? (Nat.toDigits 10 n ++ rest) = some (n, rest) := by
  have hdigits : ∀ d ∈ Nat.toDigits 10 n, d.isDigit = true :=
    fun d hd => Nat.isDigit_of_mem_toDigits (by omega) (by omega) hd
  obtain ⟨htake, hdrop⟩ := takeWhile_append_of_boundary rest hdigits h
  have hnumeral : ¬(Nat.toDigits 10 n = [] ∨
      (Nat.toDigits 10 n).head? = some '0' ∧ Nat.toDigits 10 n ≠ ['0']) := by
    rintro (hnil | ⟨hzero, hmore⟩)
    · exact Nat.toDigits_ne_nil hnil
    · exact hmore (Decimal.toDigits_zero n hzero)
  simp only [natural?, htake, hdrop, if_neg hnumeral, Nat.ofDigitChars_ten_toDigits]

theorem natural?_of_notDigit {c : Char} (h : c.isDigit = false) (rest : List Char) :
    natural? (c :: rest) = none := by
  rw [natural?, List.takeWhile_cons_of_neg (by simp [h])]
  exact if_pos (.inl rfl)

theorem integer?_of_ne_minus {c : Char} (h : c ≠ '-') (rest : List Char) :
    integer? (c :: rest) = (natural? (c :: rest)).map fun (n, rest) => ((n : Int), rest) := by
  rw [integer?]
  intro cs he
  exact h (List.cons.inj he).1

/-- A numeral is read as the integer it was written for. -/
theorem integer?_chars (n : Int64) {rest : List Char}
    (h : ∀ c, rest.head? = some c → c.isDigit = false) :
    integer? (Decimal.chars n ++ rest) = some (n.toInt, rest) := by
  unfold Decimal.chars Decimal.ofInt
  split
  · next hneg =>
    have habs : -(n.toInt.natAbs : Int) = n.toInt := by omega
    rw [List.cons_append, integer?, natural?_toDigits _ h]
    exact congrArg (fun m => some (m, rest)) habs
  · next hpos =>
    have habs : (n.toInt.natAbs : Int) = n.toInt := by omega
    have hread := natural?_toDigits n.toInt.natAbs h
    -- The first digit is no minus sign.
    cases hds : Nat.toDigits 10 n.toInt.natAbs with
    | nil => exact absurd hds Nat.toDigits_ne_nil
    | cons d ds =>
      have hd : d.isDigit = true :=
        Nat.isDigit_of_mem_toDigits (by omega) (by omega) (hds ▸ List.mem_cons_self)
      have hminus : d ≠ '-' := by
        rintro rfl
        cases hd
      rw [hds, List.cons_append] at hread
      rw [List.cons_append, integer?_of_ne_minus hminus, hread]
      exact congrArg (fun m => some (m, rest)) habs

/-- A numeral is read before a word that does not begin with a digit. -/
theorem integer?_number (n : Int64) {w : String} (h : leads (!·.isDigit) w = true)
    (rest : List Char) :
    integer? (Decimal.chars n ++ (w.toList ++ rest)) = some (n.toInt, w.toList ++ rest) := by
  obtain ⟨c, cs, hw, hc⟩ := exists_cons_of_leads h
  rw [hw, List.cons_append]
  refine integer?_chars n ?_
  rintro d ⟨⟩
  simpa using hc

/-- Where a word stands that begins neither with a digit nor with a sign, there is no numeral. -/
theorem integer?_word {w : String} (h : leads (fun c => c != '-' && !c.isDigit) w = true)
    (rest : List Char) : integer? (w.toList ++ rest) = none := by
  obtain ⟨c, cs, hw, hc⟩ := exists_cons_of_leads h
  simp only [Bool.and_eq_true, bne_iff_ne, Bool.not_eq_true'] at hc
  rw [hw, List.cons_append, integer?_of_ne_minus hc.1, natural?_of_notDigit hc.2]
  rfl

end ApiScenario.Front
