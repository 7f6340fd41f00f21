/-!
# Positions in a text

Lines and columns count from one. A line feed ends a line and any other character, a carriage
return included, is one column of its line. Columns count characters, not bytes. Both are words of
32 bits: counting goes round to zero behind the largest of them.
-/

namespace ApiScenario

/-- A place in a text. -/
structure Position where
  line : UInt32
  column : UInt32
deriving DecidableEq, Repr, Inhabited

namespace Position

/-- The place of the first character of a text. -/
def start : Position := ⟨1, 1⟩

/-- The place after one more character. -/
def advance (p : Position) (c : Char) : Position :=
  if c = '\n' then ⟨p.line + 1, 1⟩ else ⟨p.line, p.column + 1⟩

/-- The place after a run of characters. -/
def after (p : Position) (cs : List Char) : Position := cs.foldl advance p

@[simp] theorem after_nil (p : Position) : p.after [] = p := rfl

@[simp] theorem after_cons (p : Position) (c : Char) (cs : List Char) :
    p.after (c :: cs) = (p.advance c).after cs := rfl

@[simp] theorem after_append (p : Position) (cs ds : List Char) :
    p.after (cs ++ ds) = (p.after cs).after ds := List.foldl_append

/-- The place `n` columns further on the same line. -/
def moveRight (p : Position) (n : Nat) : Position := ⟨p.line, p.column + .ofNat n⟩

@[simp] theorem moveRight_zero (p : Position) : p.moveRight 0 = p :=
  congrArg (mk p.line) (UInt32.add_zero p.column)

/-- Positions are ordered by line, then by column. -/
instance : LT Position := ⟨fun p q => p.line < q.line ∨ (p.line = q.line ∧ p.column < q.column)⟩

instance : LE Position := ⟨fun p q => p.line < q.line ∨ (p.line = q.line ∧ p.column ≤ q.column)⟩

instance (p q : Position) : Decidable (p < q) :=
  inferInstanceAs (Decidable (p.line < q.line ∨ (p.line = q.line ∧ p.column < q.column)))

instance (p q : Position) : Decidable (p ≤ q) :=
  inferInstanceAs (Decidable (p.line < q.line ∨ (p.line = q.line ∧ p.column ≤ q.column)))

/-- Positions in increasing order. -/
def sort (ps : List Position) : List Position := ps.mergeSort (fun p q => decide (p ≤ q))

/-- A position is written as line, colon, column. -/
def text (p : Position) : String := toString p.line ++ ":" ++ toString p.column

end Position

end ApiScenario
