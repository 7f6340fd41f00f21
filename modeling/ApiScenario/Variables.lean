import ApiScenario.Program
import ApiScenario.Template

/-!
# Values of variables

A name can be declared several times; its last declaration counts.
-/

namespace ApiScenario.Variables

/-- The text of a variable, if it is declared. -/
def get? (vs : List Variable) (name : String) : Option String :=
  (vs.reverse.find? (·.name == name)).map (·.value.text)

/-- How many different names are declared. -/
def size (vs : List Variable) : Nat := (vs.map (·.name)).eraseDups.length

/-- A text with the values of variables in it. Without variables, or without a dollar sign, there
is nothing to look for. -/
def substitute (vs : List Variable) (text : String) : String :=
  if vs.isEmpty || !text.toList.contains '$' then text
  else String.ofList (Template.fill (get? vs) text.toList)

end ApiScenario.Variables
