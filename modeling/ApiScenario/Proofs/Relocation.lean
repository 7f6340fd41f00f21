import ApiScenario.Compile
import ApiScenario.Proofs.Lowering

/-!
# Moving the places of a text

Places go through reading and checking untouched. If every place of a token or a program is moved by
some function, then all that changes in what comes out is that its places are moved by the same
function: drafts take the same tokens and expect the same (`ProgramDraft.step_relocate`), and the
same is wrong with a program (`Program.diagnostics_relocate`). What is generated holds no places at
all (`Program.generate_relocate`).
-/

namespace ApiScenario

variable (f : Position → Position)

/-! ## What holds places -/

/-- A token at the place that its own is moved to. -/
def Token.relocate (t : Token) : Token := ⟨t.kind, f t.position⟩

/-- A test at the place that its own is moved to. -/
def TestBlock.relocate (t : TestBlock) : TestBlock := { t with position := f t.position }

/-- A program with its tests moved. -/
def Program.relocate (p : Program) : Program := { p with tests := p.tests.map (.relocate f) }

/-- A partly read test, moved. -/
def TestDraft.relocate : TestDraft → TestDraft
  | name place => name (f place)
  | opening place n => opening (f place) n
  | statements t => statements (t.relocate f)
  | request t r => request (t.relocate f) r
  | assertion t a => assertion (t.relocate f) a

/-- A partly read program with its tests moved. -/
def ProgramDraft.relocate : ProgramDraft → ProgramDraft
  | between p => between (p.relocate f)
  | config c => config c
  | declaration p v => declaration (p.relocate f) v
  | test p t => test (p.relocate f) (t.relocate f)

/-- A diagnostic with its place moved, if it has one. -/
def Diagnostic.relocate (d : Diagnostic) : Diagnostic := { d with position := d.position.map f }

/-! ## Drafts -/

/-- A step with another draft or another finished thing in it. -/
def Step.map {δ α ε β : Type} (g : δ → ε) (h : α → β) : Step δ α → Step ε β
  | .more d => .more (g d)
  | .done x => .done (h x)

theorem Step.map_id {δ α : Type} (s : Option (Step δ α)) : s.map (Step.map id id) = s := by
  rcases s with _ | ⟨d⟩ | ⟨x⟩ <;> rfl

/-- If a part moves by a step as `g` and `h` say, then the draft that waits for it moves with it. -/
theorem Step.map_within {δ α ε β : Type} {g : δ → δ} {h : α → α} {g' : ε → ε} {h' : β → β}
    {more more' : δ → ε} {done done' : α → ε} {s s' : Option (Step δ α)}
    (hs : s' = s.map (Step.map g h)) (hm : ∀ d, more' (g d) = g' (more d))
    (hd : ∀ x, done' (h x) = g' (done x)) :
    s'.map (Step.within more' done' : _ → Step ε β)
      = (s.map (Step.within more done)).map (Step.map g' h') := by
  subst hs
  rcases s with _ | ⟨d⟩ | ⟨x⟩
  · rfl
  · exact congrArg (fun e => some (Step.more e)) (hm d)
  · exact congrArg (fun e => some (Step.more e)) (hd x)

theorem TestDraft.beginStatement_relocate (t : TestBlock) (k : Keyword) :
    beginStatement (t.relocate f) k = (beginStatement t k).map (relocate f) := by
  unfold beginStatement
  cases Method.ofKeyword? k with
  | some m => rfl
  | none => cases AssertionForm.ofKeyword? k <;> rfl

theorem TestDraft.step_relocate (d : TestDraft) (k : TokenKind) :
    (d.relocate f).step k = (d.step k).map (Step.map (relocate f) (.relocate f)) := by
  cases d with
  | name place => cases k <;> rfl
  | opening place n =>
    cases k with
    | punct p => cases p <;> rfl
    | _ => rfl
  | statements t =>
    cases k with
    | keyword k =>
      show (beginStatement (t.relocate f) k).map _ = ((beginStatement t k).map _).map _
      rw [beginStatement_relocate]
      cases beginStatement t k <;> rfl
    | punct p => cases p <;> rfl
    | _ => rfl
  | request t r => exact Step.map_within (Step.map_id _).symm (fun _ => rfl) fun _ => rfl
  | assertion t a => exact Step.map_within (Step.map_id _).symm (fun _ => rfl) fun _ => rfl

theorem TestDraft.expected_relocate (d : TestDraft) : (d.relocate f).expected = d.expected := by
  cases d <;> rfl

namespace ProgramDraft

theorem takesConfig_relocate (p : Program) : takesConfig (p.relocate f) = takesConfig p := by
  unfold takesConfig Program.relocate
  rw [List.isEmpty_map]

theorem takesVariable_relocate (p : Program) : takesVariable (p.relocate f) = takesVariable p :=
  List.isEmpty_map

theorem expected_relocate (d : ProgramDraft) : (d.relocate f).expected = d.expected := by
  cases d with
  | between p => rw [relocate, expected, expected, takesConfig_relocate, takesVariable_relocate]
  | config c => rfl
  | declaration p v => rfl
  | test p t => exact t.expected_relocate f

theorem step_between_relocate (p : Program) (t : Token) :
    (between (p.relocate f)).step (t.relocate f)
      = ((between p).step t).map (Step.map (relocate f) (.relocate f)) := by
  obtain ⟨kind, place⟩ := t
  cases kind with
  | keyword k =>
    cases k with
    | config =>
      show (if takesConfig (p.relocate f) then _ else _) = Option.map _ (if takesConfig p then _ else _)
      rw [takesConfig_relocate]
      cases takesConfig p <;> rfl
    | var =>
      show (if takesVariable (p.relocate f) then _ else _)
        = Option.map _ (if takesVariable p then _ else _)
      rw [takesVariable_relocate]
      cases takesVariable p <;> rfl
    | _ => rfl
  | _ => rfl

/-- **A draft takes a moved token as it takes the token.** -/
theorem step_relocate (d : ProgramDraft) (t : Token) :
    (d.relocate f).step (t.relocate f)
      = (d.step t).map (Step.map (relocate f) (.relocate f)) := by
  cases d with
  | between p => exact step_between_relocate f p t
  | config c => exact Step.map_within (Step.map_id _).symm (fun _ => rfl) fun _ => rfl
  | declaration p v => exact Step.map_within (Step.map_id _).symm (fun _ => rfl) fun _ => rfl
  | test p b =>
    refine Step.map_within (b.step_relocate f t.kind) (fun _ => rfl) fun block => ?_
    show between _ = between (Program.relocate f { p with tests := p.tests ++ [block] })
    simp [Program.relocate]

end ProgramDraft

/-! ## Rules and plans -/

theorem violations_relocate (earlier : List String) (t : TestBlock) :
    (t.relocate f).violations earlier = t.violations earlier := rfl

theorem testDiagnostics_relocate (ts : List TestBlock) : ∀ earlier : List String,
    Program.testDiagnostics earlier (ts.map (.relocate f))
      = (Program.testDiagnostics earlier ts).map (.relocate f) := by
  induction ts with
  | nil => intro earlier; rfl
  | cons t ts ih =>
    intro earlier
    rw [List.map_cons, Program.testDiagnostics, Program.testDiagnostics, List.map_append,
      List.map_map, violations_relocate, ih]
    rfl

namespace Program

/-- **What is wrong with a moved program is what is wrong with the program, moved.** -/
theorem diagnostics_relocate (p : Program) :
    (p.relocate f).diagnostics = p.diagnostics.map (.relocate f) := by
  unfold diagnostics relocate
  rw [List.isEmpty_map]
  split
  · rfl
  · exact testDiagnostics_relocate f p.tests []

/-- **The plan of a program does not depend on places.** -/
theorem lower_relocate (p : Program) : (p.relocate f).lower = p.lower := by
  have horphan : (p.tests.map (.relocate f)).findSome? TestBlock.orphan?
      = p.tests.findSome? TestBlock.orphan? := by
    rw [List.findSome?_map]
    rfl
  have hplanned : (p.tests.map (.relocate f)).map (TestBlock.planned p.declarations)
      = p.tests.map (TestBlock.planned p.declarations) := by
    rw [List.map_map]
    rfl
  rw [lower_eq, lower_eq]
  unfold relocate
  dsimp only
  rw [horphan, hplanned]
  rfl

theorem generate_relocate (p : Program) (o : Options) :
    (p.relocate f).generate o = p.generate o := by
  rw [generate, generate, lower_relocate]

end Program

end ApiScenario
