/-!
# Quoted literals

A literal is a text between double quotes in which a backslash, a double quote, a line feed, a
carriage return and a tab are written as two characters each, a backslash first. The source
language and both kinds of generated code share this form.

* `escape` and `quoted` write a text.
* `close?` finds the end of a literal whose opening quote has been read. A backslash takes the
  next character with it, whatever that is; a bare line break ends the search in vain.
* `unescape` reads the body of a literal. It stops at the first backslash that is followed by
  none of the five letters, and tells where it stands.

What has been written is found again (`close?_escape`) and read as it was (`unescape_escape`).
-/

namespace ApiScenario.Literal

/-- One character inside a literal. -/
def escapeChar : Char → List Char
  | '\\' => ['\\', '\\']
  | '"' => ['\\', '"']
  | '\n' => ['\\', 'n']
  | '\r' => ['\\', 'r']
  | '\t' => ['\\', 't']
  | c => [c]

/-- A text as the body of a literal. -/
def escape (cs : List Char) : List Char := cs.flatMap escapeChar

/-- A text as a literal. -/
def quoted (cs : List Char) : List Char := '"' :: (escape cs ++ ['"'])

@[simp] theorem escape_nil : escape [] = [] := rfl

@[simp] theorem escape_cons (c : Char) (cs : List Char) :
    escape (c :: cs) = escapeChar c ++ escape cs := rfl

/-- What a letter after a backslash stands for. -/
def unescapeChar? : Char → Option Char
  | '"' => some '"'
  | '\\' => some '\\'
  | 'n' => some '\n'
  | 'r' => some '\r'
  | 't' => some '\t'
  | _ => none

/-- A character stands for itself, or a backslash and a letter stand for it. -/
theorem escapeChar_cases (c : Char) :
    (escapeChar c = [c] ∧ c ≠ '\\' ∧ c ≠ '"' ∧ c ≠ '\n' ∧ c ≠ '\r') ∨
      ∃ d, escapeChar c = ['\\', d] ∧ unescapeChar? d = some c := by
  unfold escapeChar
  split
  · exact .inr ⟨'\\', rfl, rfl⟩
  · exact .inr ⟨'"', rfl, rfl⟩
  · exact .inr ⟨'n', rfl, rfl⟩
  · exact .inr ⟨'r', rfl, rfl⟩
  · exact .inr ⟨'t', rfl, rfl⟩
  · next h₁ h₂ h₃ h₄ _ => exact .inl ⟨rfl, h₁, h₂, h₃, h₄⟩

/-- The body of a literal after its opening quote, and what follows its closing quote. -/
def close? : List Char → Option (List Char × List Char)
  | [] => none
  | '"' :: rest => some ([], rest)
  | '\\' :: c :: rest => (close? rest).map fun (body, rest) => ('\\' :: c :: body, rest)
  | '\\' :: [] => none
  | '\n' :: _ => none
  | '\r' :: _ => none
  | c :: rest => (close? rest).map fun (body, rest) => (c :: body, rest)

/-- A character that is neither a backslash, a quote nor a line break belongs to the body. -/
theorem close?_cons {c : Char} (h₁ : c ≠ '\\') (h₂ : c ≠ '"') (h₃ : c ≠ '\n') (h₄ : c ≠ '\r')
    (cs : List Char) :
    close? (c :: cs) = (close? cs).map fun (body, rest) => (c :: body, rest) := by
  rw [close?] <;> simp_all

theorem close?_eq {cs body rest : List Char} (h : close? cs = some (body, rest)) :
    cs = body ++ '"' :: rest := by
  fun_induction close? cs generalizing body rest with
  | case1 => simp at h
  | case2 r => simp_all
  | case3 c r ih =>
    obtain ⟨⟨b, r'⟩, hb, he⟩ := Option.map_eq_some_iff.mp h
    cases he
    simp [ih hb]
  | case4 => simp at h
  | case5 => simp at h
  | case6 => simp at h
  | case7 c r _ _ _ _ _ ih =>
    obtain ⟨⟨b, r'⟩, hb, he⟩ := Option.map_eq_some_iff.mp h
    cases he
    simp [ih hb]

theorem close?_length {cs body rest : List Char} (h : close? cs = some (body, rest)) :
    cs.length = body.length + 1 + rest.length := by
  rw [close?_eq h]
  simp only [List.length_append, List.length_cons]
  omega

/-- The body of a written literal ends where it was closed. -/
theorem close?_escape (s rest : List Char) :
    close? (escape s ++ '"' :: rest) = some (escape s, rest) := by
  induction s with
  | nil => rfl
  | cons c s ih =>
    rw [escape_cons, List.append_assoc]
    rcases escapeChar_cases c with ⟨he, h₁, h₂, h₃, h₄⟩ | ⟨d, he, -⟩
    · rw [he, List.singleton_append, close?_cons h₁ h₂ h₃ h₄, ih]
      rfl
    · rw [he]
      show (close? (escape s ++ '"' :: rest)).map _ = _
      rw [ih]
      rfl

/-- A backslash that is followed by none of the five letters. -/
structure BadEscape where
  /-- How many characters of the body stand before the backslash. -/
  offset : Nat
  /-- The character after the backslash. -/
  found : Char
deriving DecidableEq, Repr

/-- The text of a literal's body, `offset` characters of which have been read. -/
def unescapeFrom (offset : Nat) : List Char → Except BadEscape (List Char)
  | '\\' :: c :: rest =>
    match unescapeChar? c with
    | some d => (unescapeFrom (offset + 2) rest).map (d :: ·)
    | none => .error ⟨offset, c⟩
  | c :: rest => (unescapeFrom (offset + 1) rest).map (c :: ·)
  | [] => .ok []

/-- The text of a literal's body. -/
def unescape (body : List Char) : Except BadEscape (List Char) := unescapeFrom 0 body

theorem unescapeFrom_cons {c : Char} (h : c ≠ '\\') (offset : Nat) (cs : List Char) :
    unescapeFrom offset (c :: cs) = (unescapeFrom (offset + 1) cs).map (c :: ·) := by
  rw [unescapeFrom]
  intro d ds hc _
  exact h hc

/-- A written body reads as the text it was written for. -/
theorem unescapeFrom_escape (offset : Nat) (s : List Char) :
    unescapeFrom offset (escape s) = .ok s := by
  induction s generalizing offset with
  | nil => rfl
  | cons c s ih =>
    rw [escape_cons]
    rcases escapeChar_cases c with ⟨he, h₁, -⟩ | ⟨d, he, hd⟩
    · rw [he, List.singleton_append, unescapeFrom_cons h₁, ih]
      rfl
    · rw [he, List.cons_append, List.singleton_append, unescapeFrom, hd]
      dsimp only
      rw [ih]
      rfl

@[simp] theorem unescape_escape (s : List Char) : unescape (escape s) = .ok s :=
  unescapeFrom_escape 0 s

/-- A written literal tells its text and where it ends. -/
theorem quoted_append_inj {s t r r' : List Char} :
    quoted s ++ r = quoted t ++ r' ↔ s = t ∧ r = r' := by
  constructor
  · intro h
    have hclose : close? (escape s ++ '"' :: r) = close? (escape t ++ '"' :: r') := by
      simpa [quoted] using congrArg (fun cs => close? (cs.drop 1)) h
    rw [close?_escape, close?_escape, Option.some.injEq, Prod.mk.injEq] at hclose
    obtain ⟨hbody, hrest⟩ := hclose
    have hread := congrArg unescape hbody
    rw [unescape_escape, unescape_escape] at hread
    cases hread
    exact ⟨rfl, hrest⟩
  · rintro ⟨rfl, rfl⟩
    rfl

end ApiScenario.Literal
