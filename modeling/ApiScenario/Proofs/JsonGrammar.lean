import ApiScenario.Json
import ApiScenario.Proofs.Gaps

/-!
# JSON texts

The grammar of JSON, as far as it has values with natural numbers. It is told without the compact
form: space can stand around every value, and a character of a string has several spellings.

```text
element   := space value space
value     := "null" | numeral | string
           | "[" space "]" | "[" elements "]" | "{" space "}" | "{" members "}"
elements  := element | element "," elements
members   := member | member "," members
member    := space string space ":" element
string    := '"' character* '"'
```

No text is a JSON text for two values (`IsText.unique`). Every phrase is followed by something that
cannot belong to it, so whatever comes behind a phrase, its text ends at one place
(`Derives.oneReading`).
-/

namespace ApiScenario.Json

/-- Two splits of a text at the end of its longest front inside a class of characters. -/
theorem span_inj {p : Char → Bool} {xs ys rest rest' : List Char} (hxs : ∀ c ∈ xs, p c = true)
    (hys : ∀ c ∈ ys, p c = true) (hrest : ∀ c, rest.head? = some c → p c = false)
    (hrest' : ∀ c, rest'.head? = some c → p c = false) (h : xs ++ rest = ys ++ rest') :
    xs = ys ∧ rest = rest' := by
  have hfront := takeWhile_append_of_boundary rest hxs hrest
  have hfront' := takeWhile_append_of_boundary rest' hys hrest'
  rw [h] at hfront
  exact ⟨hfront.1.symm.trans hfront'.1, hfront.2.symm.trans hfront'.2⟩

/-! ## Strings -/

/-- The letters that can follow a backslash, and what they stand for. -/
def shortEscapes : List (Char × Char) :=
  [('"', '"'), ('\\', '\\'), ('/', '/'), ('b', '\x08'), ('f', '\x0c'), ('n', '\n'), ('r', '\r'),
    ('t', '\t')]

/-- The value of a hexadecimal digit. -/
def hexDigit? (d : Char) : Option Nat :=
  if d.isDigit then some (d.toNat - '0'.toNat)
  else if 'a' ≤ d ∧ d ≤ 'f' then some (d.toNat - 'a'.toNat + 10)
  else if 'A' ≤ d ∧ d ≤ 'F' then some (d.toNat - 'A'.toNat + 10)
  else none

/-- The number that a row of hexadecimal digits writes. -/
def hexValue? (ds : List Char) : Option Nat :=
  ds.foldlM (fun n d => (hexDigit? d).map fun k => 16 * n + k) 0

/-- A number below 65536 by a backslash, a letter and four digits. -/
inductive CodeUnit : Nat → List Char → Prop
  | mk {n : Nat} {ds : List Char} :
      ds.length = 4 → hexValue? ds = some n → CodeUnit n ('\\' :: 'u' :: ds)

/-- A spelling of a character inside a string. -/
inductive Spelled : Char → List Char → Prop
  | raw {c : Char} : 0x20 ≤ c.toNat → c ≠ '"' → c ≠ '\\' → Spelled c [c]
  | short {c e : Char} : (e, c) ∈ shortEscapes → Spelled c ['\\', e]
  | code {c : Char} {xs : List Char} : CodeUnit c.toNat xs → Spelled c xs
  /-- A character beyond the first 65536 by two surrogates. -/
  | pair {c : Char} {high low : Nat} {xs ys : List Char} :
      CodeUnit (0xd800 + high) xs → high < 0x400 → CodeUnit (0xdc00 + low) ys → low < 0x400 →
      c.toNat = 0x10000 + 0x400 * high + low → Spelled c (xs ++ ys)

/-- A spelling of a row of characters. -/
inductive SpelledAll : List Char → List Char → Prop
  | nil : SpelledAll [] []
  | cons {c : Char} {cs xs ys : List Char} :
      Spelled c xs → SpelledAll cs ys → SpelledAll (c :: cs) (xs ++ ys)

/-- A string in quotes. -/
def Quoted (s : String) (cs : List Char) : Prop :=
  ∃ body, SpelledAll s.toList body ∧ cs = '"' :: (body ++ ['"'])

theorem shortEscapes_inj : ∀ x ∈ shortEscapes, ∀ y ∈ shortEscapes, x.1 = y.1 → x = y := by
  decide

theorem shortEscapes_ne_u : ∀ x ∈ shortEscapes, x.1 ≠ 'u' := by
  decide

/-- No character is a surrogate. -/
theorem toNat_ne_surrogate (c : Char) {n : Nat} (hn : n < 0x400) : c.toNat ≠ 0xd800 + n := by
  have hvalid : c.toNat < 0xd800 ∨ 0xdfff < c.toNat ∧ c.toNat < 0x110000 := c.valid
  omega

theorem CodeUnit.unique {n n' : Nat} {xs xs' rest rest' : List Char} (h : CodeUnit n xs)
    (h' : CodeUnit n' xs') (heq : xs ++ rest = xs' ++ rest') : n = n' ∧ xs = xs' := by
  obtain ⟨hlength, hvalue⟩ := h
  obtain ⟨hlength', hvalue'⟩ := h'
  simp only [List.cons_append, List.cons.injEq, true_and] at heq
  obtain ⟨rfl, -⟩ := List.append_inj heq (hlength.trans hlength'.symm)
  exact ⟨Option.some.inj (hvalue.symm.trans hvalue'), rfl⟩

/-- No other spelling begins as a code unit does. -/
theorem CodeUnit.of_spelled {n : Nat} {c : Char} {xs ys rest rest' : List Char} (h : CodeUnit n xs)
    (hc : Spelled c ys) (heq : xs ++ rest = ys ++ rest') :
    n = c.toNat ∧ xs = ys ∨ ∃ high low zs, n = 0xd800 + high ∧ high < 0x400 ∧ ys = xs ++ zs ∧
      CodeUnit (0xdc00 + low) zs ∧ c.toNat = 0x10000 + 0x400 * high + low := by
  cases hc with
  | raw _ _ hslash =>
    obtain ⟨-, -⟩ := h
    exact absurd (List.cons.inj heq).1.symm hslash
  | short hmem =>
    obtain ⟨-, -⟩ := h
    exact absurd (List.cons.inj (List.cons.inj heq).2).1.symm (shortEscapes_ne_u _ hmem)
  | code hunit => exact .inl (h.unique hunit heq)
  | pair hunit hhigh hunit' _ hc =>
    rw [List.append_assoc] at heq
    obtain ⟨rfl, rfl⟩ := h.unique hunit heq
    exact .inr ⟨_, _, _, rfl, hhigh, rfl, hunit', hc⟩

/-- Whatever follows, a spelling shows where it ends and for which character it stands. -/
theorem Spelled.unique {c c' : Char} {xs xs' rest rest' : List Char} (h : Spelled c xs)
    (h' : Spelled c' xs') (heq : xs ++ rest = xs' ++ rest') : c = c' ∧ xs = xs' := by
  cases h with
  | raw _ _ hslash =>
    cases h' with
    | raw => simp_all
    | short => exact absurd (List.cons.inj heq).1 hslash
    | code hunit | pair hunit =>
      obtain ⟨-, -⟩ := hunit
      exact absurd (List.cons.inj heq).1 hslash
  | short hmem =>
    cases h' with
    | raw _ _ hslash => exact absurd (List.cons.inj heq).1.symm hslash
    | short hmem' =>
      have he := (List.cons.inj (List.cons.inj heq).2).1
      have hpair := shortEscapes_inj _ hmem _ hmem' he
      simp_all
    | code hunit | pair hunit =>
      obtain ⟨-, -⟩ := hunit
      exact absurd (List.cons.inj (List.cons.inj heq).2).1 (shortEscapes_ne_u _ hmem)
  | code hunit =>
    rcases hunit.of_spelled h' heq with ⟨hc, rfl⟩ | ⟨high, low, zs, hc, hhigh, -⟩
    · exact ⟨Char.toNat_inj.mp hc, rfl⟩
    · exact absurd hc (toNat_ne_surrogate c hhigh)
  | pair hunit hhigh hlow _ hc =>
    rw [List.append_assoc] at heq
    rcases hunit.of_spelled h' heq with ⟨hc', -⟩ | ⟨high, low, zs, hhigh', -, rfl, hlow', hc'⟩
    · exact absurd hc'.symm (toNat_ne_surrogate c' hhigh)
    · rw [List.append_assoc] at heq
      obtain ⟨hlows, rfl⟩ := hlow.unique hlow' (List.append_cancel_left heq)
      exact ⟨Char.toNat_inj.mp (by omega), rfl⟩

/-- No spelling begins with a quote. -/
theorem Spelled.cons {c : Char} {xs : List Char} (h : Spelled c xs) :
    ∃ d ds, xs = d :: ds ∧ d ≠ '"' := by
  cases h with
  | raw _ hquote _ => exact ⟨c, [], rfl, hquote⟩
  | short => exact ⟨'\\', _, rfl, by decide⟩
  | code hunit | pair hunit =>
    obtain ⟨-, -⟩ := hunit
    exact ⟨'\\', _, rfl, by decide⟩

theorem SpelledAll.unique {s s' body body' rest rest' : List Char} (h : SpelledAll s body)
    (h' : SpelledAll s' body') (heq : body ++ '"' :: rest = body' ++ '"' :: rest') :
    s = s' ∧ body = body' := by
  induction h generalizing s' body' with
  | nil =>
    cases h' with
    | nil => exact ⟨rfl, rfl⟩
    | cons hc _ =>
      obtain ⟨d, ds, rfl, hd⟩ := hc.cons
      exact absurd (List.cons.inj heq).1.symm hd
  | cons hc hcs ih =>
    cases h' with
    | nil =>
      obtain ⟨d, ds, rfl, hd⟩ := hc.cons
      exact absurd (List.cons.inj heq).1 hd
    | cons hc' hcs' =>
      rw [List.append_assoc, List.append_assoc] at heq
      obtain ⟨rfl, rfl⟩ := hc.unique hc' heq
      obtain ⟨rfl, rfl⟩ := ih hcs' (List.append_cancel_left heq)
      exact ⟨rfl, rfl⟩

theorem Quoted.unique {s s' : String} {cs cs' rest rest' : List Char} (h : Quoted s cs)
    (h' : Quoted s' cs') (heq : cs ++ rest = cs' ++ rest') : s = s' ∧ cs = cs' := by
  obtain ⟨body, hbody, rfl⟩ := h
  obtain ⟨body', hbody', rfl⟩ := h'
  simp only [List.cons_append, List.append_assoc, List.nil_append, List.cons.injEq, true_and] at heq
  obtain ⟨hs, rfl⟩ := hbody.unique hbody' heq
  exact ⟨String.toList_inj.mp hs, rfl⟩

/-! ## Numerals and space -/

/-- A numeral for a natural number: digits, with no zero in front of others. -/
structure WritesNumber (n : Nat) (cs : List Char) : Prop where
  ne_nil : cs ≠ []
  digits : ∀ d ∈ cs, d.isDigit = true
  zero : cs.head? = some '0' → cs = ['0']
  value : Nat.ofDigitChars 10 cs 0 = n

/-- The characters that have no meaning between values. -/
def isSpace (c : Char) : Bool := c == ' ' || c == '\t' || c == '\n' || c == '\r'

/-- Space, or nothing. -/
def Space (w : List Char) : Prop := ∀ c ∈ w, isSpace c = true

theorem space_nil : Space [] := fun _ h => absurd h List.not_mem_nil

/-! ## Values -/

/-- The kinds of phrases of the grammar, each with what it stands for. -/
inductive Phrase where
  | value (j : Json)
  | element (j : Json)
  | elements (js : List Json)
  | member (f : String × Json)
  | members (fs : List (String × Json))

/-- A text for a phrase. -/
inductive Derives : Phrase → List Char → Prop
  | null : Derives (.value .null) ['n', 'u', 'l', 'l']
  | number {n : Nat} {cs : List Char} : WritesNumber n cs → Derives (.value (.number n)) cs
  | string {s : String} {cs : List Char} : Quoted s cs → Derives (.value (.string s)) cs
  | emptyArray {w : List Char} : Space w → Derives (.value (.array [])) ('[' :: (w ++ [']']))
  | array {js : List Json} {cs : List Char} :
      Derives (.elements js) cs → Derives (.value (.array js)) ('[' :: (cs ++ [']']))
  | emptyObject {w : List Char} :
      Space w → Derives (.value (.object [])) ('\x7b' :: (w ++ ['\x7d']))
  | object {fs : List (String × Json)} {cs : List Char} :
      Derives (.members fs) cs → Derives (.value (.object fs)) ('\x7b' :: (cs ++ ['\x7d']))
  | element {j : Json} {w cs w' : List Char} :
      Space w → Derives (.value j) cs → Space w' → Derives (.element j) (w ++ (cs ++ w'))
  | lastElement {j : Json} {cs : List Char} :
      Derives (.element j) cs → Derives (.elements [j]) cs
  | moreElements {j : Json} {js : List Json} {cs ds : List Char} :
      Derives (.element j) cs → Derives (.elements js) ds →
      Derives (.elements (j :: js)) (cs ++ ',' :: ds)
  | member {name : String} {j : Json} {w xs w' cs : List Char} :
      Space w → Quoted name xs → Space w' → Derives (.element j) cs →
      Derives (.member (name, j)) (w ++ (xs ++ (w' ++ ':' :: cs)))
  | lastMember {f : String × Json} {cs : List Char} :
      Derives (.member f) cs → Derives (.members [f]) cs
  | moreMembers {f : String × Json} {fs : List (String × Json)} {cs ds : List Char} :
      Derives (.member f) cs → Derives (.members fs) ds →
      Derives (.members (f :: fs)) (cs ++ ',' :: ds)

/-- A JSON text for a value, with space around it. -/
def IsText (j : Json) (cs : List Char) : Prop := Derives (.element j) cs

/-! ## What texts begin with -/

/-- The kinds of values. -/
inductive Form where
  | null
  | number
  | string
  | array
  | object

/-- The kind of a value. -/
def form : Json → Form
  | null => .null
  | number _ => .number
  | string _ => .string
  | array _ => .array
  | object _ => .object

/-- The kind of values whose texts begin with a character. -/
def Form.ofHead? (c : Char) : Option Form :=
  if c = 'n' then some .null
  else if c.isDigit then some .number
  else if c = '"' then some .string
  else if c = '[' then some .array
  else if c = '\x7b' then some .object
  else none

/-- A text begins, behind space, with a character that is no space and closes nothing. -/
def Leads (cs : List Char) : Prop :=
  ∃ w c rest, cs = w ++ c :: rest ∧ Space w ∧ isSpace c = false ∧ c ≠ ']' ∧ c ≠ '\x7d'

/-- The first character of a value tells its kind. -/
theorem Derives.head {j : Json} {cs : List Char} (h : Derives (.value j) cs) :
    ∃ c rest, cs = c :: rest ∧ Form.ofHead? c = some j.form := by
  cases h with
  | null => exact ⟨'n', _, rfl, rfl⟩
  | number h =>
    obtain ⟨d, ds, rfl⟩ := List.exists_cons_of_ne_nil h.ne_nil
    have hd := h.digits d List.mem_cons_self
    have hn : d ≠ 'n' := by
      rintro rfl
      exact absurd hd (by decide)
    exact ⟨d, ds, rfl, by rw [Form.ofHead?, if_neg hn, if_pos hd]; rfl⟩
  | string h =>
    obtain ⟨body, -, rfl⟩ := h
    exact ⟨'"', _, rfl, rfl⟩
  | emptyArray | array => exact ⟨'[', _, rfl, rfl⟩
  | emptyObject | object => exact ⟨'\x7b', _, rfl, rfl⟩

/-- Two values whose texts begin alike are of one kind. -/
theorem Derives.form_eq {j j' : Json} {cs cs' rest rest' : List Char} (h : Derives (.value j) cs)
    (h' : Derives (.value j') cs') (heq : cs ++ rest = cs' ++ rest') : j.form = j'.form := by
  obtain ⟨c, xs, rfl, hc⟩ := h.head
  obtain ⟨c', xs', rfl, hc'⟩ := h'.head
  obtain ⟨rfl, -⟩ := List.cons.inj heq
  exact Option.some.inj (hc.symm.trans hc')

theorem Form.isSpace_of_ofHead? {c : Char} {f : Form} (h : Form.ofHead? c = some f) :
    isSpace c = false := by
  rw [Bool.eq_false_iff]
  intro hspace
  simp only [isSpace, Bool.or_eq_true, beq_iff_eq] at hspace
  rcases hspace with ((rfl | rfl) | rfl) | rfl <;> cases h

theorem leads_head {c : Char} {f : Form} (h : Form.ofHead? c = some f) (rest : List Char) :
    Leads (c :: rest) := by
  refine ⟨[], c, rest, rfl, space_nil, Form.isSpace_of_ofHead? h, ?_, ?_⟩
  · rintro rfl
    cases h
  · rintro rfl
    cases h

theorem Leads.append {cs : List Char} (h : Leads cs) (ds : List Char) : Leads (cs ++ ds) := by
  obtain ⟨w, c, rest, rfl, hleads⟩ := h
  exact ⟨w, c, rest ++ ds, by simp, hleads⟩

theorem Leads.behind {w cs : List Char} (hw : Space w) (h : Leads cs) : Leads (w ++ cs) := by
  obtain ⟨w', c, rest, rfl, hw', hleads⟩ := h
  refine ⟨w ++ w', c, rest, by simp, ?_, hleads⟩
  intro d hd
  rcases List.mem_append.mp hd with hd | hd
  · exact hw d hd
  · exact hw' d hd

theorem Derives.leads_value {j : Json} {cs : List Char} (h : Derives (.value j) cs) : Leads cs := by
  obtain ⟨c, rest, rfl, hc⟩ := h.head
  exact leads_head hc rest

theorem Derives.leads_element {j : Json} {cs : List Char} (h : Derives (.element j) cs) :
    Leads cs := by
  cases h with
  | element hw h _ => exact .behind hw (h.leads_value.append _)

theorem Derives.leads_elements {js : List Json} {cs : List Char} (h : Derives (.elements js) cs) :
    Leads cs := by
  cases h with
  | lastElement h => exact h.leads_element
  | moreElements h _ => exact h.leads_element.append _

theorem Derives.leads_member {f : String × Json} {cs : List Char} (h : Derives (.member f) cs) :
    Leads cs := by
  cases h with
  | member hw hname _ _ =>
    obtain ⟨body, -, rfl⟩ := hname
    exact .behind hw (leads_head (f := .string) rfl _)

theorem Derives.leads_members {fs : List (String × Json)} {cs : List Char}
    (h : Derives (.members fs) cs) : Leads cs := by
  cases h with
  | lastMember h => exact h.leads_member
  | moreMembers h _ => exact h.leads_member.append _

/-- What begins like that does not begin with space and a closing bracket. -/
theorem Leads.ne_closed {cs w rest rest' : List Char} {c : Char} (h : Leads cs) (hw : Space w)
    (hc : c = ']' ∨ c = '\x7d') : cs ++ rest ≠ w ++ c :: rest' := by
  intro heq
  obtain ⟨w', d, xs, rfl, hw', hspace, hd⟩ := h
  rw [List.append_assoc, List.cons_append] at heq
  have hbound : ∀ e, (c :: rest').head? = some e → isSpace e = false := by
    rintro e ⟨⟩
    rcases hc with rfl | rfl <;> rfl
  obtain ⟨-, htail⟩ := span_inj hw' hw (by rintro e ⟨⟩; exact hspace) hbound heq
  obtain ⟨rfl, -⟩ := List.cons.inj htail
  exact hc.elim hd.1 hd.2

/-! ## One value for a text -/

/-- Nothing follows, or one of some characters. -/
def Follow (next : List Char) (rest : List Char) : Prop := ∀ c, rest.head? = some c → c ∈ next

/-- No digit follows. -/
def NoDigit (rest : List Char) : Prop := ∀ c, rest.head? = some c → c.isDigit = false

/-- A text for a phrase of one kind ends at one place and stands for one thing, if what follows it
is what can follow such phrases. -/
def Unambiguous {α : Type} (phrase : α → Phrase) (follow : List Char → Prop) (x : α)
    (cs : List Char) : Prop :=
  ∀ y ds rest rest', Derives (phrase y) ds → follow rest → follow rest' →
    cs ++ rest = ds ++ rest' → x = y ∧ cs = ds

/-- A text for a phrase is unambiguous before what can follow phrases of its kind. -/
def Phrase.OneReading : Phrase → List Char → Prop
  | value j => Unambiguous .value NoDigit j
  | element j => Unambiguous .element (Follow [',', ']', '\x7d']) j
  | elements js => Unambiguous .elements (Follow [']', '\x7d']) js
  | member f => Unambiguous .member (Follow [',', ']', '\x7d']) f
  | members fs => Unambiguous .members (Follow [']', '\x7d']) fs

theorem follow_cons {c : Char} {next : List Char} (h : c ∈ next) (rest : List Char) :
    Follow next (c :: rest) := by
  rintro d ⟨⟩
  exact h

/-- No comma follows a whole row. -/
theorem not_follow_comma (rest : List Char) : ¬ Follow [']', '\x7d'] (',' :: rest) :=
  fun h => absurd (h ',' rfl) (by decide)

theorem Follow.mono {next next' rest : List Char} (h : Follow next rest) (hsub : next ⊆ next') :
    Follow next' rest := fun c hc => hsub (h c hc)

theorem Follow.notSpace {rest : List Char} (h : Follow [',', ']', '\x7d'] rest) :
    ∀ c, rest.head? = some c → isSpace c = false := by
  intro c hc
  have hmem := h c hc
  simp only [List.mem_cons, List.not_mem_nil, or_false] at hmem
  rcases hmem with rfl | rfl | rfl <;> rfl

/-- Behind a value stands space, or what follows the space. -/
theorem Follow.noDigit {w rest : List Char} (h : Follow [',', ']', '\x7d'] rest) (hw : Space w) :
    NoDigit (w ++ rest) := by
  intro c hc
  cases w with
  | nil =>
    have hmem := h c hc
    simp only [List.mem_cons, List.not_mem_nil, or_false] at hmem
    rcases hmem with rfl | rfl | rfl <;> rfl
  | cons d w =>
    cases hc
    have hspace := hw c List.mem_cons_self
    simp only [isSpace, Bool.or_eq_true, beq_iff_eq] at hspace
    rcases hspace with ((rfl | rfl) | rfl) | rfl <;> rfl

/-- Space in front of a value ends where the value begins. -/
theorem Derives.notSpace {j : Json} {cs : List Char} (h : Derives (.value j) cs)
    (rest : List Char) : ∀ c, (cs ++ rest).head? = some c → isSpace c = false := by
  obtain ⟨d, xs, rfl, hd⟩ := h.head
  rintro c ⟨⟩
  exact Form.isSpace_of_ofHead? hd

/-- Space in front of a string ends where the string begins. -/
theorem Quoted.notSpace {s : String} {cs : List Char} (h : Quoted s cs) (rest : List Char) :
    ∀ c, (cs ++ rest).head? = some c → isSpace c = false := by
  obtain ⟨body, -, rfl⟩ := h
  rintro c ⟨⟩
  rfl

theorem WritesNumber.unique {n n' : Nat} {cs cs' rest rest' : List Char} (h : WritesNumber n cs)
    (h' : WritesNumber n' cs') (hrest : NoDigit rest) (hrest' : NoDigit rest')
    (heq : cs ++ rest = cs' ++ rest') : n = n' ∧ cs = cs' := by
  obtain ⟨rfl, -⟩ := span_inj h.digits h'.digits hrest hrest' heq
  exact ⟨h.value.symm.trans h'.value, rfl⟩

/-- Space between brackets. -/
theorem Space.unique {w w' rest rest' : List Char} {c : Char} (hw : Space w) (hw' : Space w')
    (hc : isSpace c = false) (heq : w ++ c :: rest = w' ++ c :: rest') : w = w' := by
  have hbound (xs : List Char) : ∀ d, (c :: xs).head? = some d → isSpace d = false := by
    rintro d ⟨⟩
    exact hc
  exact (span_inj hw hw' (hbound rest) (hbound rest') heq).1

theorem unambiguous_element {j : Json} {w cs w₂ : List Char} (hw : Space w)
    (h : Derives (.value j) cs) (hw₂ : Space w₂) (ih : Phrase.OneReading (.value j) cs) :
    Phrase.OneReading (.element j) (w ++ (cs ++ w₂)) := by
  intro j' ds rest rest' h' hrest hrest' heq
  cases h' with
  | element hw' h' hw₂' =>
    simp only [List.append_assoc] at heq
    obtain ⟨rfl, hvalue⟩ := span_inj hw hw' (h.notSpace _) (h'.notSpace _) heq
    obtain ⟨rfl, rfl⟩ := ih _ _ _ _ h' (hrest.noDigit hw₂) (hrest'.noDigit hw₂') hvalue
    obtain ⟨rfl, -⟩ := span_inj hw₂ hw₂' hrest.notSpace hrest'.notSpace
      (List.append_cancel_left hvalue)
    exact ⟨rfl, rfl⟩

theorem unambiguous_member {name : String} {j : Json} {w xs w₂ cs : List Char} (hw : Space w)
    (hname : Quoted name xs) (hw₂ : Space w₂) (ih : Phrase.OneReading (.element j) cs) :
    Phrase.OneReading (.member (name, j)) (w ++ (xs ++ (w₂ ++ ':' :: cs))) := by
  intro f ds rest rest' h' hrest hrest' heq
  cases h' with
  | member hw' hname' hw₂' h' =>
    simp only [List.append_assoc, List.cons_append] at heq
    obtain ⟨rfl, hstring⟩ := span_inj hw hw' (hname.notSpace _) (hname'.notSpace _) heq
    obtain ⟨rfl, rfl⟩ := hname.unique hname' hstring
    have hcolon := List.append_cancel_left hstring
    obtain rfl := hw₂.unique hw₂' rfl hcolon
    have hvalue := (List.cons.inj (List.append_cancel_left hcolon)).2
    obtain ⟨rfl, rfl⟩ := ih _ _ _ _ h' hrest hrest' hvalue
    exact ⟨rfl, rfl⟩

section Rows

variable {α : Type} {one : α → Phrase} {many : List α → Phrase}

/-- A row is one phrase, or a phrase, a comma and a row. -/
def IsRow (one : α → Phrase) (many : List α → Phrase) : Prop :=
  ∀ xs cs, Derives (many xs) cs → (∃ x, xs = [x] ∧ Derives (one x) cs) ∨
    ∃ x ys as bs, xs = x :: ys ∧ cs = as ++ ',' :: bs ∧ Derives (one x) as ∧ Derives (many ys) bs

/-- A row goes on exactly if a comma follows. -/
theorem unambiguous_last (hrow : IsRow one many) {x : α} {cs : List Char}
    (ih : Unambiguous one (Follow [',', ']', '\x7d']) x cs) :
    Unambiguous many (Follow [']', '\x7d']) [x] cs := by
  intro ys ds rest rest' h' hrest hrest' heq
  rcases hrow ys ds h' with ⟨y, rfl, hy⟩ | ⟨y, ys, as, bs, rfl, rfl, hy, -⟩
  · obtain ⟨rfl, rfl⟩ := ih _ _ _ _ hy (hrest.mono (by decide)) (hrest'.mono (by decide)) heq
    exact ⟨rfl, rfl⟩
  · rw [List.append_assoc, List.cons_append] at heq
    obtain ⟨rfl, rfl⟩ := ih _ _ _ _ hy (hrest.mono (by decide)) (follow_cons (by decide) _) heq
    rw [List.append_cancel_left heq] at hrest
    exact absurd hrest (not_follow_comma _)

theorem unambiguous_more (hrow : IsRow one many) {x : α} {xs : List α} {cs ds : List Char}
    (ih : Unambiguous one (Follow [',', ']', '\x7d']) x cs)
    (ihs : Unambiguous many (Follow [']', '\x7d']) xs ds) :
    Unambiguous many (Follow [']', '\x7d']) (x :: xs) (cs ++ ',' :: ds) := by
  intro ys es rest rest' h' hrest hrest' heq
  rw [List.append_assoc, List.cons_append] at heq
  rcases hrow ys es h' with ⟨y, rfl, hy⟩ | ⟨y, ys, as, bs, rfl, rfl, hy, hys⟩
  · obtain ⟨rfl, rfl⟩ := ih _ _ _ _ hy (follow_cons (by decide) _) (hrest'.mono (by decide)) heq
    rw [← List.append_cancel_left heq] at hrest'
    exact absurd hrest' (not_follow_comma _)
  · rw [List.append_assoc, List.cons_append] at heq
    obtain ⟨rfl, rfl⟩ := ih _ _ _ _ hy (follow_cons (by decide) _) (follow_cons (by decide) _) heq
    have htail := (List.cons.inj (List.append_cancel_left heq)).2
    obtain ⟨rfl, rfl⟩ := ihs _ _ _ _ hys hrest hrest' htail
    exact ⟨rfl, rfl⟩

/-- Space or a row, in brackets. -/
def Bracketed (opening closing : Char) (many : List α → Phrase) (xs : List α) (cs : List Char) :
    Prop :=
  (xs = [] ∧ ∃ w, Space w ∧ cs = opening :: (w ++ [closing])) ∨
    ∃ ds, Derives (many xs) ds ∧ cs = opening :: (ds ++ [closing])

variable {opening closing : Char} {xs : List α} {cs rest rest' : List Char}
  (hclosing : closing = ']' ∨ closing = '\x7d')

include hclosing

theorem Bracketed.of_space (hleads : ∀ xs cs, Derives (many xs) cs → Leads cs) {w : List Char}
    (hw : Space w) (h : Bracketed opening closing many xs cs)
    (heq : opening :: (w ++ [closing]) ++ rest = cs ++ rest') :
    xs = [] ∧ cs = opening :: (w ++ [closing]) := by
  rcases h with ⟨rfl, w', hw', rfl⟩ | ⟨ds, hds, rfl⟩
  · have hspace : isSpace closing = false := by rcases hclosing with rfl | rfl <;> rfl
    simp only [List.cons_append, List.append_assoc, List.nil_append, List.cons.injEq,
      true_and] at heq
    exact ⟨rfl, by rw [hw.unique hw' hspace heq]⟩
  · simp only [List.cons_append, List.append_assoc, List.nil_append, List.cons.injEq,
      true_and] at heq
    exact absurd heq.symm ((hleads xs ds hds).ne_closed hw hclosing)

theorem Bracketed.of_row {ys : List α} {ds : List Char} (hds : Leads ds)
    (ih : Unambiguous many (Follow [']', '\x7d']) ys ds)
    (h : Bracketed opening closing many xs cs)
    (heq : opening :: (ds ++ [closing]) ++ rest = cs ++ rest') :
    ys = xs ∧ opening :: (ds ++ [closing]) = cs := by
  rcases h with ⟨rfl, w, hw, rfl⟩ | ⟨es, hes, rfl⟩
  · simp only [List.cons_append, List.append_assoc, List.nil_append, List.cons.injEq,
      true_and] at heq
    exact absurd heq (hds.ne_closed hw hclosing)
  · have hmem : closing ∈ [']', '\x7d'] := by rcases hclosing with rfl | rfl <;> decide
    simp only [List.cons_append, List.append_assoc, List.nil_append, List.cons.injEq,
      true_and] at heq
    obtain ⟨rfl, rfl⟩ := ih _ _ _ _ hes (follow_cons hmem _) (follow_cons hmem _) heq
    exact ⟨rfl, rfl⟩

end Rows

theorem isRow_elements : IsRow .element .elements := by
  intro js cs h
  cases h with
  | lastElement h => exact .inl ⟨_, rfl, h⟩
  | moreElements h hs => exact .inr ⟨_, _, _, _, rfl, rfl, h, hs⟩

theorem isRow_members : IsRow .member .members := by
  intro fs cs h
  cases h with
  | lastMember h => exact .inl ⟨_, rfl, h⟩
  | moreMembers h hs => exact .inr ⟨_, _, _, _, rfl, rfl, h, hs⟩

theorem Derives.bracketed_array {j : Json} {cs : List Char} (h : Derives (.value j) cs)
    (hform : Form.array = j.form) :
    ∃ js, j = .array js ∧ Bracketed '[' ']' .elements js cs := by
  cases h with
  | emptyArray hw => exact ⟨_, rfl, .inl ⟨rfl, _, hw, rfl⟩⟩
  | array h => exact ⟨_, rfl, .inr ⟨_, h, rfl⟩⟩
  | _ => cases hform

theorem Derives.bracketed_object {j : Json} {cs : List Char} (h : Derives (.value j) cs)
    (hform : Form.object = j.form) :
    ∃ fs, j = .object fs ∧ Bracketed '\x7b' '\x7d' .members fs cs := by
  cases h with
  | emptyObject hw => exact ⟨_, rfl, .inl ⟨rfl, _, hw, rfl⟩⟩
  | object h => exact ⟨_, rfl, .inr ⟨_, h, rfl⟩⟩
  | _ => cases hform

/-- Every text for a phrase is unambiguous. -/
theorem Derives.oneReading {p : Phrase} {cs : List Char} (h : Derives p cs) : p.OneReading cs := by
  -- Along the derivation. Two values whose texts begin alike are of one kind, which leaves the
  -- rules for that kind to the other text.
  induction h with
  | null =>
    intro j' ds rest rest' h' _ _ heq
    have hform := Derives.null.form_eq h' heq
    cases h' with
    | null => exact ⟨rfl, rfl⟩
    | _ => cases hform
  | number h =>
    intro j' ds rest rest' h' hrest hrest' heq
    have hform := (Derives.number h).form_eq h' heq
    cases h' with
    | number h' =>
      obtain ⟨rfl, rfl⟩ := h.unique h' hrest hrest' heq
      exact ⟨rfl, rfl⟩
    | _ => cases hform
  | string h =>
    intro j' ds rest rest' h' _ _ heq
    have hform := (Derives.string h).form_eq h' heq
    cases h' with
    | string h' =>
      obtain ⟨rfl, rfl⟩ := h.unique h' heq
      exact ⟨rfl, rfl⟩
    | _ => cases hform
  | emptyArray hw =>
    intro j' ds rest rest' h' _ _ heq
    obtain ⟨js, rfl, hjs⟩ := h'.bracketed_array ((Derives.emptyArray hw).form_eq h' heq)
    obtain ⟨rfl, rfl⟩ := hjs.of_space (.inl rfl) (fun _ _ => leads_elements) hw heq
    exact ⟨rfl, rfl⟩
  | array h ih =>
    intro j' ds rest rest' h' _ _ heq
    obtain ⟨js, rfl, hjs⟩ := h'.bracketed_array ((Derives.array h).form_eq h' heq)
    obtain ⟨rfl, rfl⟩ := hjs.of_row (.inl rfl) h.leads_elements ih heq
    exact ⟨rfl, rfl⟩
  | emptyObject hw =>
    intro j' ds rest rest' h' _ _ heq
    obtain ⟨fs, rfl, hfs⟩ := h'.bracketed_object ((Derives.emptyObject hw).form_eq h' heq)
    obtain ⟨rfl, rfl⟩ := hfs.of_space (.inr rfl) (fun _ _ => leads_members) hw heq
    exact ⟨rfl, rfl⟩
  | object h ih =>
    intro j' ds rest rest' h' _ _ heq
    obtain ⟨fs, rfl, hfs⟩ := h'.bracketed_object ((Derives.object h).form_eq h' heq)
    obtain ⟨rfl, rfl⟩ := hfs.of_row (.inr rfl) h.leads_members ih heq
    exact ⟨rfl, rfl⟩
  | element hw h hw' ih => exact unambiguous_element hw h hw' ih
  | lastElement h ih => exact unambiguous_last isRow_elements ih
  | moreElements h hs ih ihs => exact unambiguous_more isRow_elements ih ihs
  | member hw hname hw' h ih => exact unambiguous_member hw hname hw' ih
  | lastMember h ih => exact unambiguous_last isRow_members ih
  | moreMembers h hs ih ihs => exact unambiguous_more isRow_members ih ihs

/-- No text is a JSON text for two values. -/
theorem IsText.unique {j j' : Json} {cs : List Char} (h : IsText j cs) (h' : IsText j' cs) :
    j = j' :=
  (Derives.oneReading h j' cs [] [] h' (by rintro c ⟨⟩) (by rintro c ⟨⟩) rfl).1

end ApiScenario.Json
