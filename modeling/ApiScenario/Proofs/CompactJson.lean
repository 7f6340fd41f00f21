import ApiScenario.Proofs.JsonGrammar

/-!
# The compact form of JSON values

The compact form of a value is a JSON text for it (`derives_chars`) and has no control characters
(`le_toNat_of_mem_chars`), so it is on one line whatever line breaks its strings hold.
-/

namespace ApiScenario.Json

/-! ## Strings and numerals -/

/-- Each control character has a short escape or is written by its code point. -/
theorem escapeChar_control : ∀ n < 0x20,
    (∃ x ∈ shortEscapes, escapeChar (Char.ofNat n) = ['\\', x.1] ∧ x.2 = Char.ofNat n) ∨
    (escapeChar (Char.ofNat n) = '\\' :: 'u' :: (escapeChar (Char.ofNat n)).drop 2 ∧
      ((escapeChar (Char.ofNat n)).drop 2).length = 4 ∧
      hexValue? ((escapeChar (Char.ofNat n)).drop 2) = some (Char.ofNat n).toNat) := by
  decide +kernel

/-- A text has no control characters. -/
def noControl (cs : List Char) : Bool := cs.all fun x => 0x20 ≤ x.toNat

theorem le_toNat_of_noControl {cs : List Char} {x : Char} (h : noControl cs = true) (hx : x ∈ cs) :
    0x20 ≤ x.toNat :=
  of_decide_eq_true (List.all_eq_true.mp h x hx)

theorem noControl_control : ∀ n < 0x20, noControl (escapeChar (Char.ofNat n)) = true := by
  decide +kernel

/-- Any other character is written raw, apart from the quote and the backslash. -/
theorem escapeChar_raw {c : Char} (hc : 0x20 ≤ c.toNat) (hquote : c ≠ '"') (hslash : c ≠ '\\') :
    escapeChar c = [c] := by
  have hne {d : Char} (hd : d.toNat < 0x20) : c ≠ d := by
    rintro rfl
    omega
  rw [escapeChar, if_neg hquote, if_neg hslash, if_neg (hne (by decide)), if_neg (hne (by decide)),
    if_neg (hne (by decide)), if_neg (hne (by decide)), if_neg (hne (by decide)),
    if_neg (by omega), if_neg (by omega)]

theorem spelled_escapeChar (c : Char) : Spelled c (escapeChar c) := by
  by_cases hc : c.toNat < 0x20
  · have hcontrol := escapeChar_control c.toNat hc
    rw [Char.ofNat_toNat] at hcontrol
    rcases hcontrol with ⟨⟨e, d⟩, hmem, hescape, rfl⟩ | ⟨hescape, hlength, hvalue⟩
    · rw [hescape]
      exact .short hmem
    · rw [hescape]
      exact .code ⟨hlength, hvalue⟩
  · by_cases hquote : c = '"'
    · subst hquote
      exact .short (e := '"') (by decide)
    · by_cases hslash : c = '\\'
      · subst hslash
        exact .short (e := '\\') (by decide)
      · rw [escapeChar_raw (by omega) hquote hslash]
        exact .raw (by omega) hquote hslash

theorem le_toNat_of_mem_escapeChar {c x : Char} (h : x ∈ escapeChar c) : 0x20 ≤ x.toNat := by
  by_cases hc : c.toNat < 0x20
  · have hcontrol := noControl_control c.toNat hc
    rw [Char.ofNat_toNat] at hcontrol
    exact le_toNat_of_noControl hcontrol h
  · by_cases hquote : c = '"'
    · subst hquote
      exact le_toNat_of_noControl (by decide : noControl (escapeChar '"') = true) h
    · by_cases hslash : c = '\\'
      · subst hslash
        exact le_toNat_of_noControl (by decide : noControl (escapeChar '\\') = true) h
      · rw [escapeChar_raw (by omega) hquote hslash, List.mem_singleton] at h
        subst h
        omega

theorem quoted_stringChars (s : String) : Quoted s (stringChars s) := by
  have hall (cs : List Char) : SpelledAll cs (cs.flatMap escapeChar) := by
    induction cs with
    | nil => exact .nil
    | cons c cs ih =>
      rw [List.flatMap_cons]
      exact .cons (spelled_escapeChar c) ih
  exact ⟨_, hall s.toList, rfl⟩

theorem le_toNat_of_mem_stringChars {s : String} {x : Char} (h : x ∈ stringChars s) :
    0x20 ≤ x.toNat := by
  simp only [stringChars, List.mem_cons, List.mem_append, List.mem_flatMap, List.not_mem_nil,
    or_false] at h
  rcases h with rfl | ⟨c, -, hx⟩ | rfl
  · decide
  · exact le_toNat_of_mem_escapeChar hx
  · decide

theorem writesNumber_toDigits (n : Nat) : WritesNumber n (Nat.toDigits 10 n) where
  ne_nil := Nat.toDigits_ne_nil
  digits _ hd := Nat.isDigit_of_mem_toDigits (by omega) (by omega) hd
  zero := Decimal.toDigits_zero n
  value := Nat.ofDigitChars_ten_toDigits

/-! ## Values -/

/-- A value with no space around it. -/
theorem Derives.bare {j : Json} {cs : List Char} (h : Derives (.value j) cs) :
    Derives (.element j) cs := by
  have helement := Derives.element space_nil h space_nil
  rwa [List.nil_append, List.append_nil] at helement

theorem Derives.bareMember {name : String} {j : Json} {xs cs : List Char} (hname : Quoted name xs)
    (h : Derives (.value j) cs) : Derives (.member (name, j)) (xs ++ ':' :: cs) :=
  .member space_nil hname space_nil h.bare

theorem itemChars_cons_cons (j k : Json) (js : List Json) :
    itemChars (j :: k :: js) = j.chars ++ ',' :: itemChars (k :: js) := rfl

theorem fieldChars_cons_cons (name : String) (j : Json) (g : String × Json)
    (fs : List (String × Json)) :
    fieldChars ((name, j) :: g :: fs) =
      stringChars name ++ ':' :: (j.chars ++ ',' :: fieldChars (g :: fs)) := rfl

mutual

/-- The compact form of a value is a text for it. -/
theorem derives_chars : ∀ j : Json, Derives (.value j) j.chars
  | null => by
    rw [chars]
    exact .null
  | number n => by
    rw [chars]
    exact .number (writesNumber_toDigits n)
  | string s => by
    rw [chars]
    exact .string (quoted_stringChars s)
  | array [] => .emptyArray space_nil
  | array (j :: js) => .array (derives_itemChars (j :: js) (List.cons_ne_nil _ _))
  | object [] => .emptyObject space_nil
  | object (f :: fs) => .object (derives_fieldChars (f :: fs) (List.cons_ne_nil _ _))

theorem derives_itemChars : ∀ js : List Json, js ≠ [] → Derives (.elements js) (itemChars js)
  | [], h => absurd rfl h
  | [j], _ => .lastElement (derives_chars j).bare
  | j :: k :: js, _ => by
    rw [itemChars_cons_cons]
    exact .moreElements (derives_chars j).bare (derives_itemChars (k :: js) (List.cons_ne_nil _ _))

theorem derives_fieldChars : ∀ fs : List (String × Json), fs ≠ [] →
    Derives (.members fs) (fieldChars fs)
  | [], h => absurd rfl h
  | [(name, j)], _ => .lastMember (.bareMember (quoted_stringChars name) (derives_chars j))
  | (name, j) :: g :: fs, _ => by
    have hmore := Derives.moreMembers (.bareMember (quoted_stringChars name) (derives_chars j))
      (derives_fieldChars (g :: fs) (List.cons_ne_nil _ _))
    rwa [fieldChars_cons_cons, ← List.cons_append, ← List.append_assoc]

end

mutual

/-- The compact form of a value has no control characters, so it is on one line. -/
theorem le_toNat_of_mem_chars : ∀ (j : Json) (x : Char), x ∈ j.chars → 0x20 ≤ x.toNat
  | null, x, h => le_toNat_of_noControl (by decide : noControl null.chars = true) h
  | number n, x, h => by
    rw [chars] at h
    have hdigit := Nat.isDigit_of_mem_toDigits (by omega) (by omega) h
    exact Nat.le_trans (by decide) (Char.isDigit_iff_toNat.mp hdigit).1
  | string s, x, h => by
    rw [chars] at h
    exact le_toNat_of_mem_stringChars h
  | array js, x, h => by
    simp only [chars, List.mem_cons, List.mem_append, List.not_mem_nil, or_false] at h
    rcases h with rfl | h | rfl
    · decide
    · exact le_toNat_of_mem_itemChars js x h
    · decide
  | object fs, x, h => by
    simp only [chars, List.mem_cons, List.mem_append, List.not_mem_nil, or_false] at h
    rcases h with rfl | h | rfl
    · decide
    · exact le_toNat_of_mem_fieldChars fs x h
    · decide

theorem le_toNat_of_mem_itemChars : ∀ (js : List Json) (x : Char), x ∈ itemChars js →
    0x20 ≤ x.toNat
  | [], _, h => absurd h List.not_mem_nil
  | [j], x, h => le_toNat_of_mem_chars j x h
  | j :: k :: js, x, h => by
    rw [itemChars_cons_cons, List.mem_append, List.mem_cons] at h
    rcases h with h | rfl | h
    · exact le_toNat_of_mem_chars j x h
    · decide
    · exact le_toNat_of_mem_itemChars (k :: js) x h

theorem le_toNat_of_mem_fieldChars : ∀ (fs : List (String × Json)) (x : Char),
    x ∈ fieldChars fs → 0x20 ≤ x.toNat
  | [], _, h => absurd h List.not_mem_nil
  | [(name, j)], x, h => by
    rw [fieldChars, List.mem_append, List.mem_cons] at h
    rcases h with h | rfl | h
    · exact le_toNat_of_mem_stringChars h
    · decide
    · exact le_toNat_of_mem_chars j x h
  | (name, j) :: g :: fs, x, h => by
    rw [fieldChars_cons_cons, List.mem_append, List.mem_cons, List.mem_append, List.mem_cons] at h
    rcases h with h | rfl | h | rfl | h
    · exact le_toNat_of_mem_stringChars h
    · decide
    · exact le_toNat_of_mem_chars j x h
    · decide
    · exact le_toNat_of_mem_fieldChars (g :: fs) x h

end

end ApiScenario.Json
