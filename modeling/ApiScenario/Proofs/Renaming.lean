import ApiScenario.Proofs.AlikePrograms
import ApiScenario.Proofs.PlannedStatements
import ApiScenario.Proofs.Substitution

/-!
# Renaming a variable

A variable gets another name: in its declarations, and in the references to it in all paths and
bodies. If the new name is neither declared nor referred to before, the program comes to the same
(`rename_keeps_plan`).

A template with a reference renamed is cut where the template was cut (`cut_rename`), since what
ends one identifier ends the other: no reference grows into the text behind it, and none is broken
up. So each reference is still looked up, and what it finds is what it found before
(`get?_rename`).
-/

namespace ApiScenario

/-- The new name of what is called `name`, when `x` is renamed to `y`. -/
def renamed (x y name : String) : String := if name = x then y else name

theorem renamed_self (x y : String) : renamed x y x = y := if_pos rfl

theorem renamed_of_ne {x name : String} (y : String) (h : name ≠ x) : renamed x y name = name :=
  if_neg h

/-! ## Templates -/

namespace Template

/-- A reference with its new name, and the text behind it. -/
def Part.rename (x y : String) (r : Part) : Part :=
  ⟨(renamed x y (String.ofList r.name)).toList, r.text⟩

/-- A cut with the new names in it. -/
def Cut.rename (x y : String) (s : Cut) : Cut := ⟨s.first, s.parts.map (Part.rename x y)⟩

/-- A template with a variable renamed: each reference gets its new name, and the text between
references stays. -/
def rename (x y text : String) : String := String.ofList ((cut text.toList).rename x y).chars

/-- A template is renamed by whatever cuts it at its references. -/
theorem toList_rename {s : Cut} {text : String} (h : s.IsCut text.toList) (x y : String) :
    (rename x y text).toList = (s.rename x y).chars := by
  rw [isCut_iff.mp h, rename, String.toList_ofList]

variable {x y : String}

theorem Part.rename_eq_self {r : Part} (y : String) (h : r.name ≠ x.toList) :
    r.rename x y = r := by
  have hne : String.ofList r.name ≠ x := by
    rintro rfl
    rw [String.toList_ofList] at h
    exact h rfl
  rw [rename, renamed_of_ne y hne, String.toList_ofList]

theorem Part.rename_name_self {r : Part} (y : String) (h : r.name = x.toList) :
    (r.rename x y).name = y.toList := by
  rw [rename, h, String.ofList_toList, renamed_self]

/-- Words go on in the same way. -/
theorem goesOn_of_isWord {name : List Char} (h : IsWord name) :
    goesOn name = Identifier.isNext := by
  cases name with
  | nil => exact absurd rfl h.ne_nil
  | cons c cs => rfl

theorem head?_flatMap_rename (rs : List Part) :
    ((rs.map (Part.rename x y)).flatMap Part.chars).head? = (rs.flatMap Part.chars).head? := by
  cases rs <;> rfl

/-- What follows a reference begins as it did before. -/
theorem head?_behind_rename (text : List Char) (rs : List Part) :
    (text ++ (rs.map (Part.rename x y)).flatMap Part.chars).head?
      = (text ++ rs.flatMap Part.chars).head? := by
  rw [List.head?_append, List.head?_append, head?_flatMap_rename]

/-- **References with new names are still references.** -/
theorem areParts_rename (hx : IsWord x.toList) (hy : IsWord y.toList) {rs : List Part}
    (h : AreParts rs) : AreParts (rs.map (Part.rename x y)) := by
  induction rs with
  | nil => trivial
  | cons r rs ih =>
    obtain ⟨hname, htext, hrs⟩ := h
    refine ⟨?_, htext, ih hrs⟩
    -- Where a name ends is seen at the first character behind it, which stays the same.
    rw [longest_name_iff] at hname ⊢
    show _ ∧ ∀ c, (r.text ++ (rs.map (Part.rename x y)).flatMap Part.chars).head? = some c → _
    rw [head?_behind_rename]
    by_cases hr : r.name = x.toList
    · rw [Part.rename_name_self y hr, goesOn_of_isWord hy]
      rw [hr, goesOn_of_isWord hx] at hname
      exact ⟨.inr hy, hname.2⟩
    · rw [Part.rename_eq_self y hr]
      exact hname

/-- **A renamed template is cut where the template is.** -/
theorem cut_rename (hx : IsWord x.toList) (hy : IsWord y.toList) (text : String) :
    cut (rename x y text).toList = (cut text.toList).rename x y := by
  have hcut := isCut_cut text.toList
  have hrenamed : ((cut text.toList).rename x y).IsCut (rename x y text).toList :=
    ⟨(toList_rename hcut x y).symm, hcut.first, areParts_rename hx hy hcut.parts⟩
  exact (isCut_iff.mp hrenamed).symm

end Template

/-! ## Declarations -/

/-- A declaration with its new name. -/
def Variable.rename (x y : String) (d : Variable) : Variable := ⟨renamed x y d.name, d.value⟩

namespace Variables

variable {x y : String} {vs : List Variable}

/-- If no other name is renamed to the same, a name finds what it found before. -/
theorem get?_rename {name : String}
    (h : ∀ d ∈ vs, renamed x y d.name = renamed x y name → d.name = name) :
    get? (vs.map (Variable.rename x y)) (renamed x y name) = get? vs name := by
  induction vs with
  | nil => rfl
  | cons d vs ih =>
    have hd : (d.rename x y).name = renamed x y name ↔ d.name = name :=
      ⟨h d List.mem_cons_self, fun hname => congrArg (renamed x y) hname⟩
    rw [List.map_cons, get?_cons, get?_cons, ih fun e he => h e (List.mem_cons_of_mem d he)]
    simp only [hd]
    rfl

theorem get?_rename_new (hfresh : ∀ d ∈ vs, d.name ≠ y) :
    get? (vs.map (Variable.rename x y)) y = get? vs x := by
  have hmerge : ∀ d ∈ vs, renamed x y d.name = renamed x y x → d.name = x := by
    intro d hd hname
    rw [renamed_self] at hname
    by_contra hdx
    exact hfresh d hd ((renamed_of_ne y hdx).symm.trans hname)
  have hget := get?_rename hmerge
  rwa [renamed_self] at hget

theorem get?_rename_other {name : String} (hnx : name ≠ x) (hny : name ≠ y) :
    get? (vs.map (Variable.rename x y)) name = get? vs name := by
  have hmerge : ∀ d ∈ vs, renamed x y d.name = renamed x y name → d.name = name := by
    intro d _ hname
    rw [renamed_of_ne y hnx] at hname
    by_cases hdx : d.name = x
    · rw [hdx, renamed_self] at hname
      exact absurd hname.symm hny
    · rwa [renamed_of_ne y hdx] at hname
  have hget := get?_rename hmerge
  rwa [renamed_of_ne y hnx] at hget

end Variables

/-! ## Requests -/

/-- An item of a request with a variable renamed in a body. -/
def RequestItem.rename (x y : String) : RequestItem → RequestItem
  | header h => header h
  | body text => body (Template.rename x y text)

/-- A request with a variable renamed in its path and its bodies. -/
def Request.rename (x y : String) (r : Request) : Request :=
  ⟨r.method, Template.rename x y r.path, r.items.map (RequestItem.rename x y)⟩

theorem Request.headers_rename (x y : String) (r : Request) :
    (r.rename x y).headers = r.headers := by
  unfold headers rename
  rw [List.filterMap_map]
  refine List.filterMap_congr fun i _ => ?_
  cases i <;> rfl

theorem Request.body?_rename (x y : String) (r : Request) :
    (r.rename x y).body? = r.body?.map (Template.rename x y) := by
  unfold body? bodies rename
  rw [List.filterMap_map, ← List.head?_map, List.map_filterMap]
  congr 1
  refine List.filterMap_congr fun i _ => ?_
  cases i <;> rfl

/-! ## Programs -/

/-- A statement with a variable renamed. -/
def Statement.rename (x y : String) : Statement → Statement
  | request r => request (r.rename x y)
  | assertion a => assertion a

/-- A test with a variable renamed. -/
def TestBlock.rename (x y : String) (t : TestBlock) : TestBlock :=
  { t with statements := t.statements.map (Statement.rename x y) }

/-- A program with a variable renamed: in all declarations, paths and bodies. -/
def Program.rename (x y : String) (p : Program) : Program :=
  ⟨p.config, p.declarations.map (Variable.rename x y), p.tests.map (TestBlock.rename x y)⟩

/-- A path or a body of a request refers to a name. -/
def Request.Mentions (r : Request) (name : String) : Prop :=
  Template.RefersTo r.path.toList name ∨
    ∃ text, .body text ∈ r.items ∧ Template.RefersTo text.toList name

theorem Request.mem_bodies_iff {r : Request} {text : String} :
    text ∈ r.bodies ↔ .body text ∈ r.items := by
  unfold bodies
  rw [List.mem_filterMap]
  constructor
  · rintro ⟨i, hi, htext⟩
    cases i with
    | header h => cases htext
    | body text' => exact Option.some.inj htext ▸ hi
  · intro htext
    exact ⟨_, htext, rfl⟩

instance (r : Request) (name : String) : Decidable (r.Mentions name) :=
  decidable_of_iff
    (name ∈ Template.references r.path.toList ∨
      ∃ text ∈ r.bodies, name ∈ Template.references text.toList) <| by
    simp only [Request.Mentions, Request.mem_bodies_iff, Template.mem_references_iff]

/-- A path or a body of a program refers to a name. -/
def Program.Mentions (p : Program) (name : String) : Prop :=
  ∃ t ∈ p.tests, ∃ r, .request r ∈ t.statements ∧ r.Mentions name

instance (p : Program) (name : String) : Decidable (p.Mentions name) :=
  decidable_of_iff (∃ t ∈ p.tests, ∃ r ∈ t.requests, r.Mentions name) <| by
    simp only [Program.Mentions, TestBlock.mem_requests_iff]

/-! ## What is sent -/

section

variable {x y : String} {vs : List Variable} (hx : IsWord x.toList) (hy : IsWord y.toList)
  (hdeclared : ∃ d ∈ vs, d.name = x) (hfresh : ∀ d ∈ vs, d.name ≠ y)

include hx hy hdeclared hfresh

/-- What is put in the place of a renamed reference was put there before. -/
theorem fill_rename {r : Template.Part} (hr : r.name ≠ y.toList) :
    (Template.Piece.reference (r.rename x y).name).fill
        (Variables.get? (vs.map (Variable.rename x y)))
      = (Template.Piece.reference r.name).fill (Variables.get? vs) := by
  by_cases hrx : r.name = x.toList
  · -- The old name is declared, so a reference to it is not left as it is written.
    obtain ⟨d, hd, hdx⟩ := hdeclared
    cases hvalue : Variables.get? vs x with
    | none => exact absurd hdx (Variables.get?_eq_none_iff.mp hvalue d hd)
    | some value =>
      rw [Template.Part.rename_name_self y hrx, hrx, Template.fill_reference hy.ne_nil,
        Template.fill_reference hx.ne_nil, String.ofList_toList, String.ofList_toList,
        Variables.get?_rename_new hfresh, hvalue]
      rfl
  · rw [Template.Part.rename_eq_self y hrx]
    by_cases hnil : r.name = []
    · rw [hnil]
      rfl
    · have hnx : String.ofList r.name ≠ x := by
        rintro rfl
        exact hrx (String.toList_ofList).symm
      have hny : String.ofList r.name ≠ y := by
        rintro rfl
        exact hr (String.toList_ofList).symm
      rw [Template.fill_reference hnil, Template.fill_reference hnil,
        Variables.get?_rename_other hnx hny]

/-- **Renaming a variable in its declarations and in a text changes nothing in the result.** -/
theorem substitute_rename {text : String} (hunused : ¬Template.RefersTo text.toList y) :
    Variables.substitute (vs.map (Variable.rename x y)) (Template.rename x y text)
      = Variables.substitute vs text := by
  rw [Variables.substitute_eq, Variables.substitute_eq, Template.fill_eq, Template.fill_eq,
    Template.cut_rename hx hy, Template.Cut.rename, List.flatMap_map]
  refine congrArg (fun later => String.ofList ((Template.cut text.toList).first ++ later)) ?_
  refine List.flatMap_congr fun r hr => ?_
  have hry : r.name ≠ y.toList := by
    intro hname
    refine hunused (Template.refersTo_iff.mpr ⟨?_, hy.ne_nil⟩)
    exact Template.reference_mem_pieces_iff_cut.mpr ⟨r, hr, hname⟩
  rw [fill_rename hx hy hdeclared hfresh hry]
  rfl

/-- A renamed request is sent as the same call. -/
theorem Request.plan_rename {r : Request} (hunused : ¬r.Mentions y) :
    (r.rename x y).plan (vs.map (Variable.rename x y)) = r.plan vs := by
  have hpath := substitute_rename hx hy hdeclared hfresh fun h => hunused (.inl h)
  have hbody : (r.rename x y).planBody (vs.map (Variable.rename x y)) = r.planBody vs := by
    unfold planBody
    rw [body?_rename]
    cases htext : r.body? with
    | none => rfl
    | some text =>
      obtain ⟨before, after, hitems, -⟩ := exists_of_body? r.method r.path htext
      have hmem : .body text ∈ r.items := by simp [hitems]
      have hsame := substitute_rename hx hy hdeclared hfresh fun h => hunused (.inr ⟨text, hmem, h⟩)
      simp only [Option.map_some, hsame]
      rfl
  unfold Request.plan
  rw [hbody, headers_rename]
  exact congrArg (Call.mk r.method · r.headers (r.planBody vs)) (congrArg Url.ofPath hpath)

/-- A renamed test comes to the same. -/
theorem TestBlock.alike_rename {t : TestBlock}
    (hunused : ∀ r, .request r ∈ t.statements → ¬r.Mentions y) :
    t.Alike vs (vs.map (Variable.rename x y)) (t.rename x y) := by
  refine ⟨rfl, rfl, List.forall₂_map_right_iff.mpr (List.forall₂_same.mpr fun s hs => ?_)⟩
  cases s with
  | assertion a => exact .assertion a
  | request r => exact .request (r.plan_rename hx hy hdeclared hfresh (hunused r hs))

end

/-- **A variable can be renamed.** If the new name is neither declared nor referred to in a path
or a body, the program with the new name has the same plan, or none for the same reason, and the
same is generated for it. -/
theorem rename_keeps_plan (p : Program) (x y : String) (hx : IsWord x.toList)
    (hy : IsWord y.toList) (hdeclared : ∃ d ∈ p.declarations, d.name = x)
    (hfresh : ∀ d ∈ p.declarations, d.name ≠ y) (hunused : ¬p.Mentions y) :
    (p.rename x y).lower = p.lower ∧
      ∀ o : Options, (p.rename x y).generate o = p.generate o := by
  have halike : p.Alike (p.rename x y) := by
    refine ⟨rfl, rfl, List.forall₂_map_right_iff.mpr (List.forall₂_same.mpr fun t ht => ?_)⟩
    exact t.alike_rename hx hy hdeclared hfresh fun r hr hmem => hunused ⟨t, ht, r, hr, hmem⟩
  exact ⟨halike.lower, halike.generate⟩

/-- A variable declared twice, next to one whose name is longer. A value holds a reference to the
new name, and a letter outside of identifiers stands behind a reference. -/
theorem rename_keeps_plan_adjacent :
    let p : Program := ⟨none, [⟨"x", .int 1⟩, ⟨"x_1", .str "$x"⟩, ⟨"x", .str "$y"⟩],
      [⟨"t", [.request ⟨.post, "/$$x$x$x_1/$xé", [.header ⟨"X", "$x"⟩, .body "$x-$"]⟩,
        .request ⟨.get, "$", [.body "$x"]⟩], ⟨1, 1⟩⟩]⟩
    p.rename "x" "y" = ⟨none, [⟨"y", .int 1⟩, ⟨"x_1", .str "$x"⟩, ⟨"y", .str "$y"⟩],
      [⟨"t", [.request ⟨.post, "/$$y$y$x_1/$yé", [.header ⟨"X", "$x"⟩, .body "$y-$"]⟩,
        .request ⟨.get, "$", [.body "$y"]⟩], ⟨1, 1⟩⟩]⟩ ∧
    ¬p.Mentions "y" ∧ (p.rename "x" "y").lower = p.lower ∧
      ∀ o : Options, (p.rename "x" "y").generate o = p.generate o := by
  intro p
  have hunused : ¬p.Mentions "y" := by decide +kernel
  refine ⟨by decide +kernel, hunused, rename_keeps_plan p "x" "y" ?_ ?_ ?_ ?_ hunused⟩
  · exact show Identifier.isIdentifier "x".toList = true by decide +kernel
  · exact show Identifier.isIdentifier "y".toList = true by decide +kernel
  · exact ⟨_, List.mem_cons_self, rfl⟩
  · decide +kernel

end ApiScenario
