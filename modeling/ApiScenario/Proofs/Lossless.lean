import Mathlib.Control.Monad.Basic
import ApiScenario.Target
import ApiScenario.Proofs.JUnitReading
import ApiScenario.Proofs.RustReading

/-!
# Generated code loses nothing

From the text of a generated file the plan can be told, for each target: the base address, every
header, request and check, in order. The one thing that code does not show is whether an empty body
was written in the program or left out.
-/

namespace ApiScenario

namespace Options

/-- Whether empty bodies were given makes no difference to a file. -/
theorem file_normal (o : Options) (p : Plan) : o.file p.normal = o.file p := by
  unfold file
  split
  · exact RustTests.file_normal p
  · exact JUnitTests.file_normal _ p

/-- The text of a file determines its plan. -/
theorem normal_eq_of_codeText (o : Options) {p q : Plan} (hp : p.IsLowered) (hq : q.IsLowered)
    (h : codeText (o.file p) = codeText (o.file q)) : p.normal = q.normal := by
  have hlayout : layout 0 (o.file p) = layout 0 (o.file q) := String.ofList_injective h
  obtain ⟨target, className⟩ := o
  cases target with
  | rust => exact RustTests.normal_eq_of_layout hp.names hq.names hlayout
  | junit => exact JUnitTests.normal_eq_of_layout hp hq hlayout

end Options

/-- **Generated code loses nothing.** Two programs that were parsed and lowered are given the same
file exactly if their plans are the same, apart from whether empty bodies were given. -/
theorem codeText_eq_iff_normal_eq (o : Options) (source₁ source₂ : String) (p₁ p₂ : Program)
    (q₁ q₂ : Plan) (hparse₁ : Program.parse source₁ = .ok p₁) (hlower₁ : p₁.lower = .ok q₁)
    (hparse₂ : Program.parse source₂ = .ok p₂) (hlower₂ : p₂.lower = .ok q₂) :
    codeText (o.file q₁) = codeText (o.file q₂) ↔ q₁.normal = q₂.normal := by
  constructor
  · exact o.normal_eq_of_codeText (isLowered_of_parse hparse₁ hlower₁)
      (isLowered_of_parse hparse₂ hlower₂)
  · intro h
    rw [← o.file_normal q₁, ← o.file_normal q₂, h]

/-- A plan with one request that has a body. -/
def Plan.post (b : Body) : Plan :=
  ⟨Program.defaultBaseUrl, [], [⟨"t", [⟨⟨.post, .relative "/a", [], b⟩, []⟩]⟩]⟩

/-- A body that is left out and one that is empty give the same file, and a body that says something
gives another. -/
theorem codeText_eq_iff_normal_eq_post :
    (∃ p, Program.parse "test t \x7b POST \"/a\" \x7b \x7d \x7d" = .ok p ∧
      p.lower = .ok (.post .empty)) ∧
    (∃ p, Program.parse "test t \x7b POST \"/a\" \x7b body \"\"; \x7d \x7d" = .ok p ∧
      p.lower = .ok (.post (.text ""))) ∧
    (∃ p, Program.parse "test t \x7b POST \"/a\" \x7b body \"b\"; \x7d \x7d" = .ok p ∧
      p.lower = .ok (.post (.text "b"))) ∧
    codeText (Options.file ⟨.junit, "Api"⟩ (.post .empty))
      = codeText (Options.file ⟨.junit, "Api"⟩ (.post (.text ""))) ∧
    codeText (Options.file ⟨.junit, "Api"⟩ (.post .empty))
      ≠ codeText (Options.file ⟨.junit, "Api"⟩ (.post (.text "b"))) := by
  have hparse₁ : Program.parse "test t \x7b POST \"/a\" \x7b \x7d \x7d"
      = .ok ⟨none, [], [⟨"t", [.request ⟨.post, "/a", []⟩], ⟨1, 1⟩⟩]⟩ := by decide +kernel
  have hparse₂ : Program.parse "test t \x7b POST \"/a\" \x7b body \"\"; \x7d \x7d"
      = .ok ⟨none, [], [⟨"t", [.request ⟨.post, "/a", [.body ""]⟩], ⟨1, 1⟩⟩]⟩ := by decide +kernel
  have hparse₃ : Program.parse "test t \x7b POST \"/a\" \x7b body \"b\"; \x7d \x7d"
      = .ok ⟨none, [], [⟨"t", [.request ⟨.post, "/a", [.body "b"]⟩], ⟨1, 1⟩⟩]⟩ := by decide +kernel
  refine ⟨⟨_, hparse₁, by decide +kernel⟩, ⟨_, hparse₂, by decide +kernel⟩,
    ⟨_, hparse₃, by decide +kernel⟩, ?_, ?_⟩
  · exact (codeText_eq_iff_normal_eq _ _ _ _ _ _ _ hparse₁ (by decide +kernel) hparse₂
      (by decide +kernel)).mpr rfl
  · intro h
    have hnormal := (codeText_eq_iff_normal_eq _ _ _ _ _ _ _ hparse₁ (by decide +kernel) hparse₃
      (by decide +kernel)).mp h
    exact absurd hnormal (by decide)

end ApiScenario
