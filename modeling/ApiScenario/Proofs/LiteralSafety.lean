import ApiScenario.Proofs.JUnitLiterals
import ApiScenario.Proofs.RustLiterals

/-!
# Texts stay inside their literals

A generated file is read back by someone who knows only where its literals begin and end. Such a
reader finds the same code for all plans that differ in nothing but their texts, and finds the
texts of the plan in the literals: no text, whatever quotes, backslashes and line breaks it holds,
gets out of its literal.
-/

namespace ApiScenario

/-- The literals of the file of a plan, in order. -/
def Options.quotes (o : Options) (p : Plan) : List Quote :=
  match o.target with
  | .rust => RustTests.quotes p
  | .junit => JUnitTests.quotes p

namespace Options

/-- Literals of a file are opened by its literals alone, and its brackets are closed. -/
theorem closes_file (o : Options) {p : Plan} (hp : p.HasNames) : Closes (o.file p) := by
  unfold file
  split
  · exact RustTests.closes_file hp
  · exact JUnitTests.closes_file hp o.className

/-- A file without the texts of its literals is that of the plan without its texts. -/
theorem blanked_file (o : Options) (p : Plan) :
    (o.file p.blank).map Directive.blanked = (o.file p).map Directive.blanked := by
  unfold file
  split
  · exact RustTests.blanked_file p
  · exact JUnitTests.blanked_file _ p

/-- The texts of the literals of a file. -/
theorem texts_file (o : Options) (p : Plan) :
    (o.file p).flatMap Directive.texts = (o.quotes p).map Quote.text := by
  obtain ⟨target, className⟩ := o
  cases target with
  | rust => exact RustTests.texts_file p
  | junit => exact JUnitTests.texts_file _ p

/-- The literals that a target adds are the same for plans that differ in nothing but texts. -/
theorem own_quotes (o : Options) (p : Plan) :
    (o.quotes p.blank).map Quote.own? = (o.quotes p).map Quote.own? := by
  unfold quotes
  split
  · exact RustTests.own_quotes p
  · exact JUnitTests.own_quotes p

/-- A literal that is said to hold a text of the plan holds one. -/
theorem mem_texts_of_quotes (o : Options) {p : Plan} {t : String} (h : .plan t ∈ o.quotes p) :
    t ∈ p.texts := by
  unfold quotes at h
  split at h
  · exact RustTests.mem_texts_of_quotes h
  · exact JUnitTests.mem_texts_of_quotes h

/-- What is left of the text of a file when its literals are emptied. -/
theorem blanked_codeText (o : Options) {p : Plan} (hp : p.HasNames) :
    Segment.blanked (codeText (o.file p)).toList
      = layout 0 ((o.file p.blank).map Directive.blanked) := by
  rw [codeText, String.toList_ofList, blanked_layout (o.closes_file hp).plain, o.blanked_file]

/-- What the literals in the text of a file stand for. -/
theorem literals_codeText (o : Options) {p : Plan} (hp : p.HasNames) :
    (Segment.literals (codeText (o.file p)).toList).map Literal.unescape
      = (o.quotes p).map fun x => .ok x.text.toList := by
  rw [codeText, String.toList_ofList, literals_layout (o.closes_file hp).plain, o.texts_file,
    List.map_map]
  rfl

end Options

/-- **No text of a plan gets into the code.** Take two plans that differ in nothing but their texts
and whose tests are named by identifiers. Their files are the same once every literal is emptied,
and so are the literals that the target adds. All other literals stand for texts of the plan:
unescaped, the literals of a file are, one after the other, those that `Options.quotes` lists. -/
theorem texts_stay_in_literals (o : Options) (p q : Plan) (hp : p.HasNames)
    (h : p.blank = q.blank) :
    Segment.blanked (codeText (o.file p)).toList = Segment.blanked (codeText (o.file q)).toList ∧
    (o.quotes p).map Quote.own? = (o.quotes q).map Quote.own? ∧
    ∀ r ∈ [p, q],
      (Segment.literals (codeText (o.file r)).toList).map Literal.unescape
        = ((o.quotes r).map fun x => .ok x.text.toList) ∧
      ∀ text, .plan text ∈ o.quotes r → text ∈ r.texts := by
  have hq : q.HasNames := hp.of_blank_eq h
  refine ⟨?_, ?_, ?_⟩
  · rw [o.blanked_codeText hp, o.blanked_codeText hq, h]
  · rw [← o.own_quotes p, ← o.own_quotes q, h]
  · intro r hr
    refine ⟨?_, fun text => o.mem_texts_of_quotes⟩
    rcases List.mem_cons.mp hr with rfl | hr
    · exact o.literals_codeText hp
    · rw [List.mem_singleton.mp hr]
      exact o.literals_codeText hq

/-- A plan with one test that has `text` wherever a plan can have a text. -/
def Plan.uniform (text : String) : Plan :=
  ⟨text, [⟨text, text⟩],
    [⟨"t", [⟨⟨.post, .absolute text, [⟨text, text⟩], .text text⟩,
      [.statusEquals 200, .statusRange 200 299, .headerEquals text text, .headerContains text text,
        .bodyContains text]⟩,
      ⟨⟨.get, .relative text, [], .none⟩, []⟩]⟩]⟩

/-- A text that would close its literal, end the call it stands in and open another literal is
kept in. -/
theorem texts_stay_in_literals_hostile :
    (Plan.uniform "ok").HasNames ∧
    (Plan.uniform "ok").blank = (Plan.uniform "\\\"); System.exit(0); //\n(\"").blank ∧
    Segment.blanked (codeText (Options.file ⟨.junit, "Api"⟩ (Plan.uniform "ok"))).toList
      = Segment.blanked (codeText (Options.file ⟨.junit, "Api"⟩
          (Plan.uniform "\\\"); System.exit(0); //\n(\""))).toList := by
  have hn : (Plan.uniform "ok").HasNames := by
    intro t ht
    rw [List.mem_singleton.mp ht]
    decide
  have hb : ∀ s t, (Plan.uniform s).blank = (Plan.uniform t).blank := fun _ _ => rfl
  exact ⟨hn, hb _ _, (texts_stay_in_literals ⟨.junit, "Api"⟩ _ _ hn (hb _ _)).1⟩

end ApiScenario
