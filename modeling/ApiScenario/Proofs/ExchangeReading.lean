import ApiScenario.Proofs.CodeReading
import ApiScenario.Proofs.LoweredPlan

/-!
# Reading exchanges back

Both targets write the exchanges of a test in the same manner: a blank line, the lines of the
request, and one line for each check. Nothing marks the end of an exchange, so exchanges are read as
a row of items, each a request or an assertion, and grouped afterwards (`layout_exchanges`). What a
target has to provide is an `ExchangeStyle`: its requests and its checks can be read one by one.
-/

namespace ApiScenario

open Directive

/-! ## Code of items -/

/-- How requests and checks are written at a level of indentation, so that each can be read. -/
structure ExchangeStyle (d : Nat) (P : Call → Prop) where
  /-- The lines of a request. -/
  call : Call → List Directive
  /-- The line of a check. -/
  check : Assertion → Line
  legible_call : Legible d P Call.normal call
  legible_check : Legible d (fun _ => True) id fun a => [line (check a)]
  check_word : ∀ a, ∃ w l, w ≠ "" ∧ check a = .verbatim w :: l

namespace ExchangeStyle

variable {d : Nat} {P : Call → Prop} (s : ExchangeStyle (d + 1) P)

/-- The lines of an item. -/
def item : PlanItem → List Directive
  | .call c => blank :: s.call c
  | .check a => [line (s.check a)]

/-- The lines of an exchange. -/
def exchange (e : Exchange) : List Directive :=
  s.call e.call ++ e.checks.map fun a => line (s.check a)

theorem flatMap_exchange (es : List Exchange) :
    (es.flatMap fun e => blank :: s.exchange e)
      = (es.flatMap PlanItem.ofExchange).flatMap s.item := by
  have he : ∀ e, blank :: s.exchange e = (PlanItem.ofExchange e).flatMap s.item := by
    intro e
    have hchecks : (e.checks.map fun a => line (s.check a))
        = (e.checks.map PlanItem.check).flatMap s.item := by
      rw [List.flatMap_map, List.map_eq_flatMap]
      rfl
    rw [exchange, hchecks]
    rfl
  rw [List.flatMap_assoc]
  simp only [he]

/-- A request has a blank line before it, and a check has not. -/
theorem check_ne_call (a : Assertion) (c : Call) (xs ys : List Directive) :
    layout (d + 1) (s.item (.check a) ++ xs) ≠ layout (d + 1) (s.item (.call c) ++ ys) := by
  obtain ⟨w, l, hw, ha⟩ := s.check_word a
  rw [item, item, ha]
  exact layout_line_ne_blank hw _ _ _ _

/-- No item begins as the line that ends a test. -/
theorem item_ne_closing (i : PlanItem) (xs ys : List Directive) :
    layout (d + 1) (s.item i ++ xs) ≠ layout (d + 1) (dedent :: line ["\x7d"] :: ys) := by
  cases i with
  | call c => exact layout_blank_ne_dedent (by decide) _ _ _ _
  | check a =>
    obtain ⟨w, l, hw, ha⟩ := s.check_word a
    rw [item, ha]
    exact layout_line_ne_dedent hw (by decide) _ _ _ _ _

theorem legible_item : Legible (d + 1) (PlanItem.Requires P) PlanItem.normal s.item := by
  intro i j hi hj xs ys h
  cases i with
  | call c =>
    cases j with
    | call c' =>
      simp only [item, List.cons_append, layout_blank, List.cons.injEq, true_and] at h
      obtain ⟨hc, hrest⟩ := s.legible_call hi hj h
      exact ⟨by rw [PlanItem.normal, PlanItem.normal, hc], hrest⟩
    | check a => exact absurd h.symm (s.check_ne_call a c _ _)
  | check a =>
    cases j with
    | call c => exact absurd h (s.check_ne_call a c _ _)
    | check a' =>
      obtain ⟨ha, hrest⟩ := s.legible_check trivial trivial h
      exact ⟨congrArg PlanItem.check ha, hrest⟩

/-- The exchanges of a test are read up to the line that ends the test. -/
theorem layout_exchanges {es es' : List Exchange} (hes : ∀ e ∈ es, P e.call)
    (hes' : ∀ e ∈ es', P e.call) {xs ys : List Directive}
    (h : layout (d + 1) ((es.flatMap fun e => blank :: s.exchange e) ++
        dedent :: line ["\x7d"] :: xs)
      = layout (d + 1) ((es'.flatMap fun e => blank :: s.exchange e) ++
        dedent :: line ["\x7d"] :: ys)) :
    es.map Exchange.normal = es'.map Exchange.normal ∧ layout d xs = layout d ys := by
  rw [flatMap_exchange, flatMap_exchange] at h
  obtain ⟨hviews, hrest⟩ := s.legible_item.many (fun i zs => s.item_ne_closing i zs xs)
    (fun i zs => s.item_ne_closing i zs ys) (PlanItem.requires_flatMap hes)
    (PlanItem.requires_flatMap hes') h
  rw [layout_dedent, layout_dedent, layout_line_same] at hrest
  exact ⟨PlanItem.normal_eq_of_items hviews, hrest⟩

end ExchangeStyle

end ApiScenario
