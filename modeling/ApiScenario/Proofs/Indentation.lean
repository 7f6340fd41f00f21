import ApiScenario.Proofs.CodeLines
import ApiScenario.Target

/-!
# Levels of indentation

Going back a level at the left margin changes nothing, so in general a part of code cannot be moved
further in: what is lost at the margin is not lost there. Directives that never do this
(`StaysInside`) can be moved. They end as much further in as they begin (`depthAfter_add`), and
every line that is not empty is moved by the same number of spaces (`layout_add`).

Both kinds of files are put together from parts that come back to their level and go nowhere below
it (`Balanced`), whatever the plan is.
-/

namespace ApiScenario

open Directive

/-! ## Going back at the margin -/

/-- Directives that begin at a level of indentation and never go back from the left margin. -/
def StaysInside (d : Nat) : List Directive → Prop
  | [] => True
  | x :: xs => (x = dedent → 0 < d) ∧ StaysInside (x.depth d) xs

theorem stays_append {d : Nat} {xs ys : List Directive} :
    StaysInside d (xs ++ ys) ↔ StaysInside d xs ∧ StaysInside (depthAfter d xs) ys := by
  induction xs generalizing d with
  | nil => exact (and_iff_right trivial).symm
  | cons x xs ih =>
    show _ ∧ StaysInside (x.depth d) (xs ++ ys) ↔ (_ ∧ StaysInside (x.depth d) xs) ∧ _
    rw [ih, and_assoc]
    rfl

theorem depth_add {d : Nat} {x : Directive} (h : x = dedent → 0 < d) (k : Nat) :
    x.depth (d + k) = x.depth d + k := by
  cases x with
  | line l => rfl
  | blank => rfl
  | indent =>
    show d + k + 1 = d + 1 + k
    omega
  | dedent =>
    have hd : 0 < d := h rfl
    show d + k - 1 = d - 1 + k
    omega

/-- Directives that begin further in end further in. -/
theorem depthAfter_add {d : Nat} {xs : List Directive} (h : StaysInside d xs) (k : Nat) :
    depthAfter (d + k) xs = depthAfter d xs + k := by
  induction xs generalizing d with
  | nil => rfl
  | cons x xs ih =>
    show depthAfter (x.depth (d + k)) xs = depthAfter (x.depth d) xs + k
    rw [depth_add h.1, ih h.2]

/-! ## Moving text -/

/-- A line some levels further in. An empty line stays empty. -/
def indentLine (k : Nat) (l : String) : String :=
  if l = "" then "" else String.ofList (List.replicate (indentWidth * k) ' ') ++ l

/-- A text with all its lines some levels further in. -/
def indentText (k : Nat) (text : String) : String :=
  "\n".intercalate ((linesOf text).map (indentLine k))

theorem intercalate_linesOf (text : String) : "\n".intercalate (linesOf text) = text := by
  rw [← String.toList_inj, String.toList_intercalate, linesOf, List.map_map]
  have hlines : String.toList ∘ String.ofList = id := funext fun _ => String.toList_ofList
  rw [hlines, List.map_id]
  exact List.intercalate_splitOn '\n'

theorem indented_add (d k : Nat) (l : Line) :
    l.indented (d + k) = indentLine k (l.indented d) := by
  unfold Line.indented indentLine
  split
  · rw [if_pos rfl]
  · next hchars =>
    have hne : String.ofList (List.replicate (indentWidth * d) ' ' ++ l.chars) ≠ "" := by
      intro he
      have hnil := String.ofList_eq_empty_iff.mp he
      rw [(List.append_eq_nil_iff.mp hnil).2] at hchars
      exact hchars rfl
    rw [if_neg hne, ← String.ofList_append, ← List.append_assoc, List.replicate_append_replicate,
      ← Nat.mul_add, Nat.add_comm k d]

theorem line?_add (d k : Nat) (x : Directive) :
    x.line? (d + k) = (x.line? d).map (indentLine k) := by
  cases x with
  | line l => exact congrArg some (indented_add d k l)
  | blank | indent | dedent => rfl

theorem layoutLines_add {d : Nat} {xs : List Directive} (h : StaysInside d xs) (k : Nat) :
    layoutLines (d + k) xs = (layoutLines d xs).map (indentLine k) := by
  induction xs generalizing d with
  | nil => rfl
  | cons x xs ih =>
    rw [layoutLines, layoutLines, List.map_append, line?_add, depth_add h.1, ih h.2,
      Option.toList_map]

/-- **Directives that begin further in write the same lines further in.** -/
theorem layout_add {d : Nat} {xs : List Directive} (h : StaysInside d xs)
    (hlines : ∀ x ∈ xs, x.isInLine = true) (k : Nat) :
    String.ofList (layout (d + k) xs) = indentText k (String.ofList (layout d xs)) := by
  rw [indentText, linesOf_layout hlines, List.map_append, ← layoutLines_add h, List.map_singleton,
    show indentLine k "" = "" from rfl, ← linesOf_layout hlines, intercalate_linesOf]

/-! ## Parts that come back -/

/-- Directives that come back to the level at which they begin and go nowhere below it. -/
structure Balanced (xs : List Directive) : Prop where
  inside : ∀ d, StaysInside d xs
  back : ∀ d, depthAfter d xs = d

namespace Balanced

variable {xs ys : List Directive}

theorem nil : Balanced [] := ⟨fun _ => trivial, fun _ => rfl⟩

theorem line (l : Line) (h : Balanced xs) : Balanced (.line l :: xs) :=
  ⟨fun d => ⟨nofun, h.inside d⟩, h.back⟩

theorem blank (h : Balanced xs) : Balanced (.blank :: xs) :=
  ⟨fun d => ⟨nofun, h.inside d⟩, h.back⟩

theorem append (hx : Balanced xs) (hy : Balanced ys) : Balanced (xs ++ ys) where
  inside d := stays_append.mpr ⟨hx.inside d, hy.inside _⟩
  back d := by rw [depthAfter_append, hx.back, hy.back]

theorem flatMap {α : Type} {f : α → List Directive} {as : List α} (h : ∀ a, Balanced (f a)) :
    Balanced (as.flatMap f) := by
  induction as with
  | nil => exact nil
  | cons a as ih => exact (h a).append ih

theorem map {α : Type} {f : α → Directive} {as : List α} (h : ∀ a, Balanced [f a]) :
    Balanced (as.map f) := by
  rw [List.map_eq_flatMap]
  exact flatMap h

theorem lines (texts : List String) : Balanced (Directive.lines texts) :=
  map fun _ => line _ nil

/-- Lines in a row go nowhere. -/
theorem flat (h : xs.all (· matches .line _ | .blank) = true) : Balanced xs := by
  induction xs with
  | nil => exact nil
  | cons x xs ih =>
    rw [List.all_cons, Bool.and_eq_true] at h
    cases x with
    | line l => exact line l (ih h.2)
    | blank => exact blank (ih h.2)
    | indent | dedent => cases h.1

theorem nested (h : Balanced xs) : Balanced (nested xs) where
  inside d := by
    refine ⟨nofun, stays_append.mpr ⟨h.inside (d + 1), fun _ => ?_, trivial⟩⟩
    rw [h.back]
    exact Nat.succ_pos d
  back d := by
    show depthAfter (d + 1) (xs ++ [dedent]) = d
    rw [depthAfter_append, h.back]
    rfl

theorem block (opening closing : Line) (h : Balanced xs) :
    Balanced (block opening closing xs) := by
  rw [block_eq]
  exact (line _ nil).append h.nested |>.append (line _ nil)

end Balanced

/-! ## Files -/

namespace RustTests

theorem balanced_setup (hs : List Header) : Balanced (setup hs) :=
  .line _ (.block _ _ (.append (.block _ _ (.block _ _ (.map fun _ => .line _ .nil)))
    (.block _ _ (.line _ (.nested (.line _ (.line _ (.line _ .nil))))))))

theorem balanced_head (baseUrl : String) (hs : List Header) : Balanced (head baseUrl hs) := by
  have hpreamble : Balanced preamble := .flat rfl
  have hglobals : Balanced (globals baseUrl hs) := .append (.flat rfl) (balanced_setup hs)
  have hsupport : Balanced support := .flat rfl
  exact .append (.append (.append (.append hpreamble (.blank .nil)) hglobals) (.blank .nil)) hsupport

theorem balanced_body (b : Body) : Balanced (body b) := by
  cases b with
  | none => exact .nil
  | empty => exact .line _ .nil
  | text content => exact .line _ .nil

theorem balanced_send (c : Call) : Balanced (send c) :=
  .line _ (.nested (.append (.append (.line _ (.line _ (.line _ .nil))) (balanced_body c.body))
    (.line _ (.line _ .nil))))

theorem balanced_exchange (e : Exchange) : Balanced (exchange e) :=
  .append (.append (.append (.append (.line _ .nil) (.map fun _ => .line _ .nil)) (.line _ .nil))
    (.block _ _ (balanced_send e.call))) (.map fun _ => .line _ .nil)

theorem balanced_testFunction (t : PlannedTest) : Balanced (testFunction t) :=
  .line _ (.block _ _ (.line _ (.flatMap fun e => .blank (balanced_exchange e))))

theorem balanced_file (p : Plan) : Balanced (file p) :=
  .append (balanced_head _ _) (.flatMap fun t => .blank (balanced_testFunction t))

end RustTests

namespace JUnitTests

theorem balanced_preamble : Balanced preamble := .flat rfl

theorem balanced_setup (hs : List Header) : Balanced (setup hs) :=
  .line _ (.block _ _ (.line _ (.append (.nested (.lines _)) (.map fun _ => .line _ .nil))))

theorem balanced_applyDefaultHeaders : Balanced applyDefaultHeaders :=
  .line _ (.block _ _ (.append (.lines _) (.block _ _ (.block _ _ (.lines _)))))

theorem balanced_fixture (baseUrl : String) (hs : List Header) : Balanced (fixture baseUrl hs) :=
  .append (.append (.append (.line _ (.line _ (.line _ (.blank .nil)))) (balanced_setup hs))
    (.blank .nil)) balanced_applyDefaultHeaders

theorem balanced_exchange (e : Exchange) : Balanced (exchange e) :=
  .append (.append (.append (.line _ (.nested (.line _ .nil))) (.map fun _ => .line _ .nil))
    (.line _ (.line _ .nil))) (.map fun _ => .line _ .nil)

theorem balanced_testMethod (t : PlannedTest) : Balanced (testMethod t) :=
  .line _ (.block _ _ (.append (.lines _) (.flatMap fun e => .blank (balanced_exchange e))))

theorem balanced_file (className : String) (p : Plan) : Balanced (file className p) :=
  .append balanced_preamble (.block _ _ (.append (balanced_fixture _ _)
    (.flatMap fun t => .blank (balanced_testMethod t))))

end JUnitTests

/-- A file comes back to the left margin and never goes back from it. -/
theorem Options.balanced_file (o : Options) (p : Plan) : Balanced (o.file p) := by
  unfold Options.file
  split
  · exact RustTests.balanced_file p
  · exact JUnitTests.balanced_file _ p

/-! ## Trees of directives -/

/-- A step of writing code, where a block is one step with steps of its own inside. -/
inductive CodeTree where
  | single (x : Directive)
  | block (opening closing : Line) (body : List CodeTree)

namespace CodeTree

mutual

/-- The directives of a step. -/
def directives : CodeTree → List Directive
  | single x => [x]
  | block opening closing body => Directive.block opening closing (directivesAll body)

/-- The directives of steps in a row. -/
def directivesAll : List CodeTree → List Directive
  | [] => []
  | t :: ts => t.directives ++ directivesAll ts

end

end CodeTree

theorem isInLine_of_notMem_chars {xs : List Directive} (h : ∀ l, line l ∈ xs → '\n' ∉ l.chars) :
    ∀ x ∈ xs, x.isInLine = true := by
  intro x hx
  cases x with
  | line l =>
    refine List.all_eq_true.mpr fun f hf => ?_
    cases f with
    | verbatim text =>
      have htext : '\n' ∉ text.toList :=
        fun hmem => h l hx (List.mem_flatMap.mpr ⟨.verbatim text, hf, hmem⟩)
      simpa [Fragment.isInLine] using htext
    | literal text => rfl
    | number n => rfl
  | blank | indent | dedent => rfl

/-- **Code can be moved further in.** Take any steps of writing code, with lines that hold no line
feed, and any level from which they never go back at the left margin. If they begin some levels
further in, they end as many levels further in, and write the same text with every line that is not
empty as many levels further in. A block whose body comes back to its own level comes back to the
level it begins at. Whatever the plan is, a file of either kind never goes back from the left margin
and ends there. -/
theorem indentation_law :
    (∀ (ts : List CodeTree) (d : Nat),
      (∀ l, line l ∈ CodeTree.directivesAll ts → '\n' ∉ l.chars) →
      StaysInside d (CodeTree.directivesAll ts) → ∀ k,
        depthAfter (d + k) (CodeTree.directivesAll ts)
          = depthAfter d (CodeTree.directivesAll ts) + k ∧
        String.ofList (layout (d + k) (CodeTree.directivesAll ts))
          = indentText k (String.ofList (layout d (CodeTree.directivesAll ts)))) ∧
    (∀ (opening closing : Line) (body : List CodeTree) (d : Nat),
      depthAfter (d + 1) (CodeTree.directivesAll body) = d + 1 →
        depthAfter d (CodeTree.block opening closing body).directives = d) ∧
    (∀ (o : Options) (p : Plan), StaysInside 0 (o.file p) ∧ depthAfter 0 (o.file p) = 0) := by
  refine ⟨?_, ?_, ?_⟩
  · intro ts d hlines hinside k
    exact ⟨depthAfter_add hinside k, layout_add hinside (isInLine_of_notMem_chars hlines) k⟩
  · intro opening closing body d hbody
    exact depthAfter_block opening closing hbody
  · intro o p
    have hfile := o.balanced_file p
    exact ⟨hfile.inside 0, hfile.back 0⟩

/-- Steps that go back a level first and one further in at last. Their block has empty lines. -/
theorem indentation_law_unbalanced :
    let ts : List CodeTree := [.single dedent, .single (line ["a"]), .block ["b("] [")"]
      [.single blank, .single (line [""]), .single (line ["c"])], .single indent]
    StaysInside 1 (CodeTree.directivesAll ts) ∧
    depthAfter 3 (CodeTree.directivesAll ts) = 3 ∧
    String.ofList (layout 3 (CodeTree.directivesAll ts)) = indentText 2 "a\nb(\n\n\n    c\n)\n" ∧
    indentText 2 "a\nb(\n\n\n    c\n)\n"
      = "        a\n        b(\n\n\n            c\n        )\n" := by
  intro ts
  have hlines : ∀ l, line l ∈ CodeTree.directivesAll ts → '\n' ∉ l.chars := by
    intro l hl
    simp only [ts, CodeTree.directivesAll, CodeTree.directives, block, List.append_nil,
      List.cons_append, List.nil_append, List.mem_cons, reduceCtorEq, line.injEq, List.not_mem_nil,
      or_self, or_false, false_or] at hl
    rcases hl with rfl | rfl | rfl | rfl | rfl <;> decide
  have hinside : StaysInside 1 (CodeTree.directivesAll ts) := by
    simp [ts, CodeTree.directivesAll, CodeTree.directives, block, StaysInside, Directive.depth]
  obtain ⟨hdepth, htext⟩ := indentation_law.1 ts 1 hlines hinside 2
  exact ⟨hinside, hdepth, htext, by decide⟩

end ApiScenario
