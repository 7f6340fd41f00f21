import ApiScenario.Text.Decimal
import ApiScenario.Text.Literal

/-!
# Generated code

Code is written line by line. A line is made of fragments: words of the target language, numbers,
and texts, which are always written as quoted literals. What a program says can get into generated
code only through the last two, apart from the names of its tests.

Where lines stand is said by directives. `layout` follows them: a line that is not empty is put
behind four spaces for each level of indentation, and blank lines hold nothing at all. Going back
a level at the left margin changes nothing.
-/

namespace ApiScenario

/-- A part of a line of code. -/
inductive Fragment where
  /-- Words of the target language, as they are. -/
  | verbatim (text : String)
  /-- A text, as a quoted literal. -/
  | literal (text : String)
  /-- A number in decimal. -/
  | number (n : Int64)
deriving DecidableEq, Inhabited

instance : Coe String Fragment := ⟨.verbatim⟩

/-- A fragment as it is written. -/
def Fragment.chars : Fragment → List Char
  | verbatim text => text.toList
  | literal text => Literal.quoted text.toList
  | number n => Decimal.chars n

/-- A line of code. -/
abbrev Line := List Fragment

/-- Words of the target language in a row. -/
def Line.ofWords (texts : List String) : Line := texts.map .verbatim

/-- A line as it is written. -/
def Line.chars (l : Line) : List Char := l.flatMap Fragment.chars

/-- A step of writing code. -/
inductive Directive where
  | line (l : Line)
  | blank
  | indent
  | dedent
deriving DecidableEq, Inhabited

namespace Directive

/-- The level of indentation after a directive. -/
def depth (d : Nat) : Directive → Nat
  | line _ => d
  | blank => d
  | indent => d + 1
  | dedent => d - 1

/-- How far one level of indentation goes. -/
def indentWidth : Nat := 4

/-- What a directive writes at a level of indentation. -/
def written (d : Nat) : Directive → List Char
  | line l =>
    let text := l.chars
    if text.isEmpty then ['\n'] else List.replicate (indentWidth * d) ' ' ++ text ++ ['\n']
  | blank => ['\n']
  | indent => []
  | dedent => []

/-- Lines of words of the target language. -/
def lines (texts : List String) : List Directive := texts.map fun text => line [.verbatim text]

/-- An opening line, an indented body and a closing line. -/
def block (opening closing : Line) (body : List Directive) : List Directive :=
  line opening :: indent :: (body ++ [dedent, line closing])

/-- Directives one level further in. -/
def nested (body : List Directive) : List Directive := indent :: (body ++ [dedent])

end Directive

/-- What directives write from a level of indentation on. -/
def layout (d : Nat) : List Directive → List Char
  | [] => []
  | x :: rest => x.written d ++ layout (x.depth d) rest

/-- The level of indentation after directives. -/
def depthAfter (d : Nat) (xs : List Directive) : Nat := xs.foldl Directive.depth d

@[simp] theorem layout_nil (d : Nat) : layout d [] = [] := rfl

@[simp] theorem layout_append (d : Nat) (xs ys : List Directive) :
    layout d (xs ++ ys) = layout d xs ++ layout (depthAfter d xs) ys := by
  induction xs generalizing d with
  | nil => rfl
  | cons x xs ih => simp [layout, depthAfter, ih]

@[simp] theorem depthAfter_append (d : Nat) (xs ys : List Directive) :
    depthAfter d (xs ++ ys) = depthAfter (depthAfter d xs) ys := List.foldl_append

/-- A block whose body comes back to its own level comes back to the level it began at. -/
theorem depthAfter_block {d : Nat} {body : List Directive} (opening closing : Line)
    (h : depthAfter (d + 1) body = d + 1) :
    depthAfter d (Directive.block opening closing body) = d := by
  have hb : depthAfter d (Directive.block opening closing body) =
      depthAfter (depthAfter (d + 1) body) [.dedent, .line closing] := depthAfter_append (d + 1) body _
  rw [hb, h]
  rfl

/-- Code written from the left margin. -/
def codeText (xs : List Directive) : String := String.ofList (layout 0 xs)

/-- The level reached and the text written by each of several runs of directives in a row. -/
def layoutSteps (d : Nat) : List (List Directive) → List (Nat × String)
  | [] => []
  | xs :: rest =>
    (depthAfter d xs, String.ofList (layout d xs)) :: layoutSteps (depthAfter d xs) rest

end ApiScenario
