import ApiScenario.Text.Identifier

/-!
# Templates

Inside a template a dollar sign and the longest identifier behind it make up a reference. Filling
a template puts the value of each reference in its place. A reference without a value, or without
a name, stays as it is written. Values are put in as they are: a dollar sign in one is no
reference.

`pieces` reads each character of the template once, since a reference takes at least its dollar
sign.
-/

namespace ApiScenario.Template

/-- A character that stands for itself, or a reference. -/
inductive Piece where
  | char (c : Char)
  | reference (name : List Char)
deriving DecidableEq, Repr

/-- A piece as it is written. -/
def Piece.chars : Piece → List Char
  | char c => [c]
  | reference name => '$' :: name

/-- The pieces of a template. -/
def pieces (cs : List Char) : List Piece :=
  match cs with
  | [] => []
  | c :: rest =>
    if c = '$' then
      .reference (Identifier.split rest).1 :: pieces (Identifier.split rest).2
    else .char c :: pieces rest
termination_by cs.length
decreasing_by
  · have := Identifier.split_length rest
    simp only [List.length_cons]
    omega
  · simp only [List.length_cons]
    omega

/-- The pieces of a template are the template. -/
theorem flatMap_pieces (cs : List Char) : (pieces cs).flatMap Piece.chars = cs := by
  fun_induction pieces cs with
  | case1 => rfl
  | case2 rest ih => simp [Piece.chars, ih, Identifier.split_append]
  | case3 c rest _ ih => simp [Piece.chars, ih]

/-- The names that a template refers to. -/
def references (cs : List Char) : List String :=
  (pieces cs).filterMap fun
    | .char _ => none
    | .reference name => if name.isEmpty then none else some (String.ofList name)

/-- What is put in the place of a piece. -/
def Piece.fill (value? : String → Option String) : Piece → List Char
  | char c => [c]
  | reference name =>
    if name.isEmpty then ['$']
    else match value? (String.ofList name) with
      | some value => value.toList
      | none => '$' :: name

/-- A template with values in the places of its references. -/
def fill (value? : String → Option String) (cs : List Char) : List Char :=
  (pieces cs).flatMap (Piece.fill value?)

end ApiScenario.Template
