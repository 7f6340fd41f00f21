import ApiScenario.Proofs.LiteralSafety

/-!
# Generated files are well bracketed

Every part of a file closes the brackets that it opens, and no word opens a literal
(`Options.closes_file`), so brackets are well nested once literals are emptied. No literal goes over
the end of a line either, as line breaks are escaped.
-/

namespace ApiScenario

open Brackets

/-- A part of code is no literal, or a literal that is closed on the line where it is opened. -/
def Segment.EndsInLine : Segment → Prop
  | char _ => True
  | literal body => '\n' ∉ body ∧ '\r' ∉ body
  | opened _ => False

/-- What is always written in another way, and is no letter behind a backslash, is in no literal. -/
theorem Literal.notMem_escape {c : Char} (hc : c ≠ '\\') (hescaped : escapeChar c ≠ [c])
    (hletter : unescapeChar? c = none) (s : List Char) : c ∉ escape s := by
  intro hmem
  obtain ⟨d, -, hd⟩ := List.mem_flatMap.mp hmem
  rcases escapeChar_cases d with ⟨he, -⟩ | ⟨letter, he, hread⟩
  · rw [he, List.mem_singleton] at hd
    subst hd
    exact hescaped he
  · rw [he] at hd
    rcases List.mem_cons.mp hd with rfl | hd
    · exact hc rfl
    · rw [List.mem_singleton.mp hd, hread] at hletter
      cases hletter

theorem endsInLine_chars (cs : List Char) : ∀ s ∈ cs.map Segment.char, s.EndsInLine := by
  intro s hs
  obtain ⟨c, -, rfl⟩ := List.mem_map.mp hs
  trivial

theorem Fragment.endsInLine_segments (f : Fragment) : ∀ s ∈ f.segments, s.EndsInLine := by
  cases f with
  | verbatim text => exact endsInLine_chars _
  | literal text =>
    intro s hs
    rw [List.mem_singleton.mp hs]
    exact ⟨Literal.notMem_escape (by decide) (by decide) rfl _,
      Literal.notMem_escape (by decide) (by decide) rfl _⟩
  | number n => exact endsInLine_chars _

theorem Directive.endsInLine_segments (x : Directive) (d : Nat) :
    ∀ s ∈ x.segments d, s.EndsInLine := by
  have hbreak : ∀ s ∈ [Segment.char '\n'], s.EndsInLine := endsInLine_chars ['\n']
  cases x with
  | line l =>
    intro s hs
    rw [segments] at hs
    split at hs
    · exact hbreak s hs
    · rw [List.mem_append, List.mem_append, List.mem_flatMap] at hs
      rcases hs with (hs | ⟨f, -, hs⟩) | hs
      · exact endsInLine_chars _ s hs
      · exact f.endsInLine_segments s hs
      · exact hbreak s hs
  | blank => exact hbreak
  | indent | dedent => simp [segments]

/-- **Literals of laid out code are closed on their lines.** -/
theorem endsInLine_layoutSegments (d : Nat) (xs : List Directive) :
    ∀ s ∈ layoutSegments d xs, s.EndsInLine := by
  induction xs generalizing d with
  | nil => simp [layoutSegments]
  | cons x xs ih =>
    intro s hs
    rcases List.mem_append.mp hs with hs | hs
    · exact x.endsInLine_segments d s hs
    · exact ih _ s hs

/-- **Generated code is well bracketed.** Take any plan whose tests are named by identifiers, any
name for the class and either target. When its literals are emptied, the brackets of the code are
well nested and all closed; and every literal that is opened is closed on the same line. -/
theorem code_wellBracketed (o : Options) (p : Plan) (hp : p.HasNames) :
    Nested (Segment.blanked (codeText (o.file p)).toList) ∧
    ∀ s ∈ Segment.ofCode (codeText (o.file p)).toList, s.EndsInLine := by
  have hcloses := o.closes_file hp
  rw [codeText, String.toList_ofList]
  refine ⟨nested_blanked_layout hcloses 0, ?_⟩
  rw [ofCode_layout hcloses.plain]
  exact endsInLine_layoutSegments 0 _

/-- Texts that close brackets and literals, and a class name that opens some, change nothing. -/
theorem code_wellBracketed_hostile :
    (Plan.uniform "\"]\x7d)\n\\").HasNames ∧
    Nested (Segment.blanked (codeText
      (Options.file ⟨.junit, "A\x7b("⟩ (Plan.uniform "\"]\x7d)\n\\"))).toList) := by
  have hn : (Plan.uniform "\"]\x7d)\n\\").HasNames := by
    intro t ht
    rw [List.mem_singleton.mp ht]
    decide
  exact ⟨hn, (code_wellBracketed ⟨.junit, "A\x7b("⟩ _ hn).1⟩

end ApiScenario
