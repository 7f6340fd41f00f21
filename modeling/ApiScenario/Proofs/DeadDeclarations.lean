import Mathlib.Logic.Relation
import ApiScenario.Proofs.AlikePrograms
import ApiScenario.Proofs.PlannedStatements
import ApiScenario.Proofs.Substitution

/-!
# Declarations that do not matter

Of several base addresses the first counts, of several declarations of a variable the last, of
several bodies of a request the first, and of the bodies of a request without a body none. What
does not count can be left out. So can a variable that is not referred to where values are put in,
and base addresses can change places with headers.

Each of these edits leads to a program that comes to the same (`DeadEdit.alike`), and so does any
number of them (`dead_edits_change_nothing`).
-/

namespace ApiScenario

/-- What comes first among the results does not depend on what stands behind a result. -/
theorem head?_filterMap_append {α β : Type} {f : α → Option β} {before : List α} {a : α} {b : β}
    (ha : a ∈ before) (hb : f a = some b) (after after' : List α) :
    ((before ++ after).filterMap f).head? = ((before ++ after').filterMap f).head? := by
  have hne : before.filterMap f ≠ [] :=
    List.ne_nil_of_mem (List.mem_filterMap.mpr ⟨a, ha, hb⟩)
  rw [List.filterMap_append, List.filterMap_append, List.head?_append_of_ne_nil _ hne,
    List.head?_append_of_ne_nil _ hne]

/-! ## Configurations -/

/-- Edits of the items of a configuration that change nothing. -/
inductive ConfigItem.DeadEdit : List ConfigItem → List ConfigItem → Prop
  /-- A base address behind another one is left out. -/
  | dropUrl (before : List ConfigItem) (url : String) (after : List ConfigItem) {first : String} :
      .baseUrl first ∈ before → DeadEdit (before ++ .baseUrl url :: after) (before ++ after)
  /-- A base address goes behind the header that follows it. -/
  | urlBehind (before : List ConfigItem) (url : String) (h : Header) (after : List ConfigItem) :
      DeadEdit (before ++ .baseUrl url :: .header h :: after)
        (before ++ .header h :: .baseUrl url :: after)
  /-- A base address goes before the header that it follows. -/
  | urlBefore (before : List ConfigItem) (url : String) (h : Header) (after : List ConfigItem) :
      DeadEdit (before ++ .header h :: .baseUrl url :: after)
        (before ++ .baseUrl url :: .header h :: after)

namespace ConfigItem.DeadEdit

variable {items items' : List ConfigItem}

theorem defaultHeaders (h : DeadEdit items items') (vs : List Variable) (ts : List TestBlock) :
    (Program.mk (some items') vs ts).defaultHeaders
      = (Program.mk (some items) vs ts).defaultHeaders := by
  unfold Program.defaultHeaders Program.configItems
  cases h <;> simp

theorem baseUrl (h : DeadEdit items items') (vs : List Variable) (ts : List TestBlock) :
    (Program.mk (some items') vs ts).baseUrl = (Program.mk (some items) vs ts).baseUrl := by
  cases h with
  | dropUrl before url after hfirst =>
    unfold Program.baseUrl Program.baseUrls
    exact congrArg (Option.getD · _) (head?_filterMap_append hfirst (by rfl) _ _)
  | urlBehind before url h after => simp [Program.baseUrl, Program.baseUrls, Program.configItems]
  | urlBefore before url h after => simp [Program.baseUrl, Program.baseUrls, Program.configItems]

end ConfigItem.DeadEdit

/-! ## Requests -/

/-- Edits of a request that change nothing. -/
inductive Request.DeadEdit : Request → Request → Prop
  /-- A body behind another one is left out. -/
  | dropLaterBody (m : Method) (path : String) (before : List RequestItem) (text : String)
      (after : List RequestItem) {first : String} : .body first ∈ before →
      DeadEdit ⟨m, path, before ++ .body text :: after⟩ ⟨m, path, before ++ after⟩
  /-- A body of a request that carries none is left out. -/
  | dropUnsentBody (m : Method) (path : String) (before : List RequestItem) (text : String)
      (after : List RequestItem) : m = .get ∨ m = .delete →
      DeadEdit ⟨m, path, before ++ .body text :: after⟩ ⟨m, path, before ++ after⟩

theorem Request.headers_dropBody (m : Method) (path : String) (before : List RequestItem)
    (text : String) (after : List RequestItem) :
    headers ⟨m, path, before ++ after⟩ = headers ⟨m, path, before ++ .body text :: after⟩ := by
  simp [headers]

theorem Request.DeadEdit.plan {r r' : Request} (h : r.DeadEdit r') (vs : List Variable) :
    r'.plan vs = r.plan vs := by
  cases h with
  | dropLaterBody m path before text after hfirst =>
    have hbody : body? ⟨m, path, before ++ after⟩
        = body? ⟨m, path, before ++ .body text :: after⟩ := by
      unfold body? bodies
      exact head?_filterMap_append hfirst (by rfl) _ _
    unfold Request.plan Request.planBody
    rw [headers_dropBody m path before text after, hbody]
  | dropUnsentBody m path before text after hm =>
    unfold Request.plan Request.planBody
    rw [headers_dropBody m path before text after]
    rcases hm with rfl | rfl <;> rfl

/-- The texts of a request that values are put into: the path, and the first body if the request
carries one. -/
inductive Request.Fills (r : Request) : String → Prop
  | path : Fills r r.path
  | body (before : List RequestItem) (text : String) (after : List RequestItem) :
      r.method = .post ∨ r.method = .put → r.items = before ++ .body text :: after →
      (∀ i ∈ before, i.isHeader = true) → Fills r text

/-- The texts that values are put into, in a list. -/
def Request.templates (r : Request) : List String :=
  r.path :: if r.method.sendsBody then r.body?.toList else []

theorem Request.mem_templates_iff {r : Request} {text : String} :
    text ∈ r.templates ↔ r.Fills text := by
  have hsends : r.method.sendsBody = true ↔ r.method = .post ∨ r.method = .put := by
    cases r.method <;> simp [Method.sendsBody]
  constructor
  · intro hmem
    rcases List.mem_cons.mp hmem with rfl | hmem
    · exact .path
    · split at hmem
      · next hm =>
        obtain ⟨before, after, hitems, hbefore⟩ :=
          exists_of_body? r.method r.path (Option.mem_toList.mp hmem)
        exact .body before text after (hsends.mp hm) hitems hbefore
      · cases hmem
  · rintro (_ | ⟨before, _, after, hm, hitems, hbefore⟩)
    · exact List.mem_cons_self
    · obtain ⟨m, path, items⟩ := r
      obtain rfl : items = _ := hitems
      refine List.mem_cons_of_mem _ ?_
      rw [if_pos (hsends.mpr hm), body?_eq_some m path text after before hbefore]
      exact List.mem_singleton_self text

/-- A request is sent as the same call if the same is put into its texts. -/
theorem Request.plan_congr {vs vs' : List Variable} {r : Request}
    (h : ∀ text, r.Fills text → Variables.substitute vs' text = Variables.substitute vs text) :
    r.plan vs' = r.plan vs := by
  have hbody : r.planBody vs' = r.planBody vs := by
    unfold planBody
    by_cases hsends : r.method.sendsBody = true
    · rw [if_pos hsends, if_pos hsends]
      cases htext : r.body? with
      | none => rfl
      | some text =>
        have hmem : text ∈ r.templates := by simp [templates, hsends, htext]
        exact congrArg Body.text (h text (mem_templates_iff.mp hmem))
    · rw [if_neg hsends, if_neg hsends]
  unfold Request.plan
  rw [h r.path .path, hbody]

/-! ## Programs -/

/-- Tests refer to a variable: its name is the longest identifier behind some dollar sign in a text
that values are put into. -/
def ReferTo (ts : List TestBlock) (name : String) : Prop :=
  ∃ t ∈ ts, ∃ r, .request r ∈ t.statements ∧ ∃ text, r.Fills text ∧
    Template.RefersTo text.toList name

instance (ts : List TestBlock) (name : String) : Decidable (ReferTo ts name) :=
  decidable_of_iff
    (∃ t ∈ ts, ∃ r ∈ t.requests, ∃ text ∈ r.templates, name ∈ Template.references text.toList) <| by
    simp only [ReferTo, TestBlock.mem_requests_iff, Request.mem_templates_iff,
      Template.mem_references_iff]

/-- Edits of a program that change nothing. -/
inductive Program.DeadEdit : Program → Program → Prop
  | config {items items' : List ConfigItem} (vs : List Variable) (ts : List TestBlock) :
      ConfigItem.DeadEdit items items' → DeadEdit ⟨some items, vs, ts⟩ ⟨some items', vs, ts⟩
  /-- A declaration before another one of the same name is left out. -/
  | dropRedeclared (c : Option (List ConfigItem)) (before : List Variable) (d : Variable)
      (after : List Variable) (ts : List TestBlock) {e : Variable} : e ∈ after → e.name = d.name →
      DeadEdit ⟨c, before ++ d :: after, ts⟩ ⟨c, before ++ after, ts⟩
  /-- A declaration of a variable that is not referred to is left out. -/
  | dropUnreferenced (c : Option (List ConfigItem)) (before : List Variable) (d : Variable)
      (after : List Variable) (ts : List TestBlock) : ¬ReferTo ts d.name →
      DeadEdit ⟨c, before ++ d :: after, ts⟩ ⟨c, before ++ after, ts⟩
  | request (c : Option (List ConfigItem)) (vs : List Variable) (before : List TestBlock)
      (n : String) (front : List Statement) {r r' : Request} (back : List Statement) (q : Position)
      (after : List TestBlock) : r.DeadEdit r' →
      DeadEdit ⟨c, vs, before ++ ⟨n, front ++ .request r :: back, q⟩ :: after⟩
        ⟨c, vs, before ++ ⟨n, front ++ .request r' :: back, q⟩ :: after⟩

/-- A declaration can be left out where it is not asked for, or a later one answers. -/
theorem Variables.get?_leave_out {before after : List Variable} {d : Variable} {name : String}
    (h : d.name = name → ∃ e ∈ after, e.name = name) :
    get? (before ++ after) name = get? (before ++ d :: after) name := by
  rw [get?_append, get?_append, get?_cons]
  by_cases hname : d.name = name
  · obtain ⟨e, he, hename⟩ := h hname
    cases hafter : get? after name with
    | none => exact absurd hename (get?_eq_none_iff.mp hafter e he)
    | some value => rfl
  · rw [if_neg hname, Option.or_none]

variable {vs vs' : List Variable}

/-- The same statements come to the same if their requests are sent as the same calls. -/
theorem Statement.forall₂_alike {ss : List Statement}
    (h : ∀ r, .request r ∈ ss → r.plan vs' = r.plan vs) :
    List.Forall₂ (Statement.Alike vs vs') ss ss := by
  refine List.forall₂_same.mpr fun s hs => ?_
  cases s with
  | assertion a => exact .assertion a
  | request r => exact .request (h r hs)

theorem TestBlock.forall₂_alike {ts : List TestBlock}
    (h : ∀ t ∈ ts, ∀ r, .request r ∈ t.statements → r.plan vs' = r.plan vs) :
    List.Forall₂ (TestBlock.Alike vs vs') ts ts :=
  List.forall₂_same.mpr fun t ht => ⟨rfl, rfl, Statement.forall₂_alike (h t ht)⟩

/-- Tests come to the same without a declaration that does not answer for what they refer to. -/
theorem alike_leave_out {before after : List Variable} {d : Variable} {ts : List TestBlock}
    (h : ReferTo ts d.name → ∃ e ∈ after, e.name = d.name) :
    List.Forall₂ (TestBlock.Alike (before ++ d :: after) (before ++ after)) ts ts := by
  -- Only names that are referred to are looked up.
  refine TestBlock.forall₂_alike fun t ht r hr => Request.plan_congr fun text htext => ?_
  rw [Variables.substitute_eq, Variables.substitute_eq]
  refine congrArg String.ofList (Template.fill_congr fun name hname => ?_)
  refine Variables.get?_leave_out ?_
  rintro rfl
  exact h ⟨t, ht, r, hr, text, htext, hname⟩

/-- **An edit that does not matter leads to a program that comes to the same.** -/
theorem Program.DeadEdit.alike {p p' : Program} (h : p.DeadEdit p') : p.Alike p' := by
  cases h with
  | config vs ts hitems =>
    exact ⟨hitems.baseUrl vs ts, hitems.defaultHeaders vs ts, TestBlock.forall₂_alike (by simp)⟩
  | dropRedeclared c before d after ts he hname =>
    exact ⟨rfl, rfl, alike_leave_out fun _ => ⟨_, he, hname⟩⟩
  | dropUnreferenced c before d after ts hunused =>
    exact ⟨rfl, rfl, alike_leave_out fun hused => absurd hused hunused⟩
  | request c vs before n front back q after hr =>
    have hsame : ∀ ts : List TestBlock, List.Forall₂ (TestBlock.Alike vs vs) ts ts :=
      fun ts => TestBlock.forall₂_alike (by simp)
    refine ⟨rfl, rfl, List.rel_append (hsame before) (.cons ⟨rfl, rfl, ?_⟩ (hsame after))⟩
    exact List.rel_append (Statement.forall₂_alike (by simp))
      (.cons (.request (hr.plan vs)) (Statement.forall₂_alike (by simp)))

/-- **Declarations that do not matter can be left out or moved, any number of them.** The same is
wrong with the program, it has the same plan or none for the same reason, and the same is
generated for it. -/
theorem dead_edits_change_nothing (p p' : Program)
    (h : Relation.ReflTransGen Program.DeadEdit p p') :
    p'.diagnostics = p.diagnostics ∧ p'.lower = p.lower ∧
      ∀ o : Options, p'.generate o = p.generate o := by
  induction h with
  | refl => exact ⟨rfl, rfl, fun _ => rfl⟩
  | tail _ hedit ih =>
    obtain ⟨hdiagnostics, hlower, hgenerate⟩ := ih
    exact ⟨hedit.alike.diagnostics.trans hdiagnostics, hedit.alike.lower.trans hlower,
      fun o => (hedit.alike.generate o).trans (hgenerate o)⟩

/-- One edit of each kind, after which no variables are left. The texts hold longer names than those
of the variables. -/
theorem dead_edits_change_nothing_each :
    let ask : Request := ⟨.post, "/$x_y", [.body "$xy", .header ⟨"H", "$x"⟩, .body "$x"]⟩
    let fetch : Request := ⟨.get, "/$", [.body "$y"]⟩
    let p : Program := ⟨some [.baseUrl "a", .header ⟨"K", "V"⟩, .baseUrl "b"],
      [⟨"x", .int 1⟩, ⟨"x", .int 2⟩], [⟨"t", [.request ask, .request fetch], ⟨1, 1⟩⟩]⟩
    let p' : Program := ⟨some [.header ⟨"K", "V"⟩, .baseUrl "a"], [],
      [⟨"t", [.request ⟨.post, "/$x_y", [.body "$xy", .header ⟨"H", "$x"⟩]⟩,
        .request ⟨.get, "/$", []⟩], ⟨1, 1⟩⟩]⟩
    Relation.ReflTransGen Program.DeadEdit p p' ∧ p'.diagnostics = p.diagnostics ∧
      p'.lower = p.lower ∧ ∀ o : Options, p'.generate o = p.generate o := by
  intro ask fetch p p'
  have hedits : Relation.ReflTransGen Program.DeadEdit p p' :=
    .head (.config _ _ (.dropUrl [.baseUrl "a", .header ⟨"K", "V"⟩] "b" [] List.mem_cons_self)) <|
    .head (.config _ _ (.urlBehind [] "a" ⟨"K", "V"⟩ [])) <|
    .head (.dropRedeclared _ [] ⟨"x", .int 1⟩ [⟨"x", .int 2⟩] _ List.mem_cons_self rfl) <|
    .head (.dropUnreferenced _ [] ⟨"x", .int 2⟩ [] _ (by decide +kernel)) <|
    .head (.request _ _ [] "t" [] [.request fetch] ⟨1, 1⟩ []
      (.dropLaterBody .post "/$x_y" [.body "$xy", .header ⟨"H", "$x"⟩] "$x" []
        List.mem_cons_self)) <|
    .single (.request _ _ [] "t" [_] [] ⟨1, 1⟩ []
      (.dropUnsentBody .get "/$" [] "$y" [] (.inl rfl)))
  exact ⟨hedits, dead_edits_change_nothing p p' hedits⟩

end ApiScenario
