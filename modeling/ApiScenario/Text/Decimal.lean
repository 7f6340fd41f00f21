/-!
# Decimal numerals

Integers of the language are words of 64 bits. They are written in decimal with a minus sign
where needed, and a numeral is read back only if its value fits.
-/

namespace ApiScenario.Decimal

/-- The digits of an integer, after a minus sign if it is negative. -/
def ofInt (n : Int) : List Char :=
  if n < 0 then '-' :: Nat.toDigits 10 n.natAbs else Nat.toDigits 10 n.natAbs

/-- The numeral of a language integer. -/
def chars (n : Int64) : List Char := ofInt n.toInt

/-- The numeral of a language integer, as text. -/
def text (n : Int64) : String := String.ofList (chars n)

/-- Decimal digits have no zero in front. -/
theorem toDigits_zero (n : Nat) (h : (Nat.toDigits 10 n).head? = some '0') :
    Nat.toDigits 10 n = ['0'] := by
  induction n using Nat.strongRecOn with
  | ind n ih =>
    by_cases hn : n < 10
    · rw [Nat.toDigits_of_lt_base hn] at h ⊢
      rw [List.head?_cons] at h
      rw [Option.some.inj h]
    · -- The digits of the tenth part come first, and it is not zero.
      obtain ⟨d, ds, hd⟩ := List.exists_cons_of_ne_nil (Nat.toDigits_ne_nil (b := 10) (n := n / 10))
      rw [Nat.toDigits_of_base_le (by omega) (by omega), hd] at h
      have hzero : Nat.ofDigitChars 10 (Nat.toDigits 10 (n / 10)) 0 = 0 := by
        rw [ih (n / 10) (by omega) (by rw [hd]; exact h)]
        rfl
      rw [Nat.ofDigitChars_ten_toDigits] at hzero
      omega

/-- The integer that a numeral denotes, a sign and leading zeros allowed. -/
def value : List Char → Int
  | '-' :: ds => -(Nat.ofDigitChars 10 ds 0 : Int)
  | ds => (Nat.ofDigitChars 10 ds 0 : Int)

theorem value_ofInt (n : Int) : value (ofInt n) = n := by
  unfold ofInt
  split
  · next h =>
    simp only [value, Nat.ofDigitChars_ten_toDigits]
    omega
  · next h =>
    have hd : ∀ c ∈ Nat.toDigits 10 n.natAbs, c ≠ '-' := by
      intro c hc he
      have := Nat.isDigit_of_mem_toDigits (by omega) (by omega) hc
      subst he
      exact absurd this (by decide)
    unfold value
    split
    · next ds heq => exact absurd rfl (hd '-' (by simp [heq]))
    · rw [Nat.ofDigitChars_ten_toDigits]
      omega

/-- The language integer of a value that fits into 64 bits. -/
def fit? (n : Int) : Option Int64 :=
  if Int64.minValue.toInt ≤ n ∧ n ≤ Int64.maxValue.toInt then some (Int64.ofInt n) else none

/-- The language integer of a numeral, if it fits. -/
def read? (cs : List Char) : Option Int64 := fit? (value cs)

/-- Language integers fit. -/
theorem fit?_toInt (n : Int64) : fit? n.toInt = some n := by
  have h₁ : Int64.minValue.toInt ≤ n.toInt := Int64.minValue_le_toInt n
  have h₂ : n.toInt ≤ Int64.maxValue.toInt := Int64.toInt_le n
  rw [fit?, if_pos ⟨h₁, h₂⟩, Int64.ofInt_toInt]

/-- A numeral reads as the integer it was written for. -/
@[simp] theorem read?_chars (n : Int64) : read? (chars n) = some n := by
  rw [read?, chars, value_ofInt, fit?_toInt]

/-- Different integers have different numerals. -/
theorem chars_inj {n m : Int64} : chars n = chars m ↔ n = m := by
  constructor
  · intro h
    have hread := congrArg read? h
    rw [read?_chars, read?_chars] at hread
    exact Option.some.inj hread
  · rintro rfl
    rfl

/-- A numeral has a digit. -/
theorem chars_ne_nil (n : Int64) : chars n ≠ [] := by
  unfold chars ofInt
  split
  · exact List.cons_ne_nil _ _
  · exact Nat.toDigits_ne_nil

/-- Numerals hold nothing but digits and a sign. -/
theorem notMem_chars {c : Char} (h₁ : c ≠ '-') (h₂ : c.isDigit = false) (n : Int64) :
    c ∉ chars n := by
  have hdigits : ∀ m : Nat, c ∉ Nat.toDigits 10 m := by
    intro m hc
    rw [Nat.isDigit_of_mem_toDigits (by omega) (by omega) hc] at h₂
    cases h₂
  unfold chars ofInt
  split
  · rw [List.mem_cons, not_or]
    exact ⟨h₁, hdigits _⟩
  · exact hdigits _

end ApiScenario.Decimal
