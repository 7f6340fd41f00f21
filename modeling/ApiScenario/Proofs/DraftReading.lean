import ApiScenario.Program.Draft
import ApiScenario.Proofs.Grammar

/-!
# What drafts have read and what they can read

A draft holds all that has been read, so the tokens behind it can be told from it alone (`kinds`,
`places`). One step adds its token to them: that is what makes reading sound
(`ProgramDraft.Read.more`). The other way round, every derivation of the grammar is a row of tokens
that the drafts take one by one: that is what makes reading complete (`reads_programRel`).

Drafts are nested, and a draft hands its tokens to the part it waits for. Both directions are lifted
through this nesting by one lemma each (`Step.read_within`, `Reads.within`).
-/

namespace ApiScenario

open Grammar

/-! ## Steps and runs -/

section Runs

variable {δ ε κ τ α β : Type}

/-- The tokens read after a step, when `f` and `g` give those of drafts and of finished things. -/
def Step.read (f : δ → List κ) (g : α → List κ) : Step δ α → List κ
  | .more d => f d
  | .done x => g x

/-- If a part behind `front` has read one more token, then so has the draft that waits for it. -/
theorem Step.read_within {f : δ → List κ} {g : α → List κ} {f' : ε → List κ} {g' : β → List κ}
    {more : δ → ε} {done : α → ε} {s : Step δ α} {ks : List κ} {k : κ}
    (h : s.read f g = ks ++ [k]) (front : List κ) (hm : ∀ d, f' (more d) = front ++ f d)
    (hd : ∀ x, f' (done x) = front ++ g x) :
    (s.within more done : Step ε β).read f' g' = (front ++ ks) ++ [k] := by
  rw [List.append_assoc, ← h]
  cases s with
  | more d => exact hm d
  | done x => exact hd x

/-- A row of tokens takes a draft to a longer draft. -/
inductive Run (step : δ → κ → Option (Step δ α)) : δ → List κ → δ → Prop
  | nil (d : δ) : Run step d [] d
  | cons {d d' e : δ} {k : κ} {ks : List κ} :
      step d k = some (.more d') → Run step d' ks e → Run step d (k :: ks) e

/-- A row of tokens takes a draft to the finished thing. -/
inductive Reads (step : δ → κ → Option (Step δ α)) : δ → List κ → α → Prop
  | done {d : δ} {k : κ} {x : α} : step d k = some (.done x) → Reads step d [k] x
  | more {d d' : δ} {k : κ} {ks : List κ} {x : α} :
      step d k = some (.more d') → Reads step d' ks x → Reads step d (k :: ks) x

variable {step : δ → κ → Option (Step δ α)}

theorem Run.append {d d' e : δ} {ks ls : List κ} (h : Run step d ks d') (h' : Run step d' ls e) :
    Run step d (ks ++ ls) e := by
  induction h with
  | nil => exact h'
  | cons hs _ ih => exact .cons hs (ih h')

theorem Run.reads {d d' : δ} {ks ls : List κ} {x : α} (h : Run step d ks d')
    (h' : Reads step d' ls x) : Reads step d (ks ++ ls) x := by
  induction h with
  | nil => exact h'
  | cons hs _ ih => exact .more hs (ih h')

/-- What a part reads, the draft that waits for the part reads too. -/
theorem Reads.within {outer : ε → τ → Option (Step ε β)} (kind : τ → κ) (more : δ → ε)
    (done : α → ε) (h : ∀ d t, outer (more d) t = (step d (kind t)).map (.within more done))
    {d : δ} {ks : List κ} {x : α} (hr : Reads step d ks x) :
    ∀ ts : List τ, ts.map kind = ks → Run outer (more d) ts (done x) := by
  induction hr with
  | done hs =>
    intro ts hts
    obtain ⟨t, rfl, rfl⟩ := List.map_eq_singleton_iff.mp hts
    exact .cons (by rw [h, hs]; rfl) (.nil _)
  | more hs _ ih =>
    intro ts hts
    obtain ⟨t, rest, rfl, rfl, hrest⟩ := List.map_eq_cons_iff.mp hts
    exact .cons (by rw [h, hs]; rfl) (ih rest hrest)

/-- If a draft for a list takes one more thing, it takes any number of them. -/
theorem Run.many {R : List κ → β → Prop} {draft : List β → δ}
    (h : ∀ (xs : List β) {ks : List κ} {x : β}, R ks x →
      Run step (draft xs) ks (draft (xs ++ [x]))) :
    ∀ {ks : List κ} {ys : List β}, ManyRel R ks ys →
      ∀ xs : List β, Run step (draft xs) ks (draft (xs ++ ys)) := by
  intro ks ys hys
  induction hys with
  | nil => intro xs; rw [List.append_nil]; exact .nil _
  | @cons ks rest x ys hx _ ih =>
    intro xs
    have hrest := ih (xs ++ [x])
    rw [List.append_assoc, List.singleton_append] at hrest
    exact (h xs hx).append hrest

/-- Things in a row, told from a property of their tokens. -/
theorem manyRel_of_map {R : List κ → β → Prop} {f : τ → κ} : ∀ {xs : List β} {ts : List τ},
    ManyRel R (ts.map f) xs → ManyRel (fun us x => R (us.map f) x) ts xs
  | [], ts, h => by
    generalize hks : ts.map f = ks at h
    cases h
    rw [List.map_eq_nil_iff.mp hks]
    exact .nil
  | x :: xs, ts, h => by
    generalize hks : ts.map f = ks at h
    cases h with
    | cons hx hxs =>
      obtain ⟨us, rest, rfl, rfl, rfl⟩ := List.map_eq_append_iff.mp hks
      exact .cons hx (manyRel_of_map hxs)

end Runs

/-! ## Headers -/

namespace HeaderDraft

/-- The tokens of a partly read header. -/
def kinds : HeaderDraft → List TokenKind
  | key => [.keyword .header]
  | value k => [.keyword .header, .str k]
  | ending h => [.keyword .header, .str h.key, .str h.value]

theorem step_kinds {d : HeaderDraft} {k : TokenKind} {s : Step HeaderDraft Header}
    (h : d.step k = some s) : s.read kinds Header.kinds = d.kinds ++ [k] := by
  unfold step at h
  split at h <;> cases h <;> rfl

theorem step_test (d : HeaderDraft) : d.step (.keyword .test) = none := by
  cases d <;> rfl

theorem reads_header {ks : List TokenKind} {h : Header} (hr : HeaderRel ks h) :
    ∃ rest, ks = .keyword .header :: rest ∧ Reads step .key rest h := by
  cases hr with
  | header k v => exact ⟨_, rfl, .more rfl (.more rfl (.done rfl))⟩

end HeaderDraft

/-! ## Configuration -/

namespace ConfigDraft

/-- The tokens of a configuration block up to the items that it has. -/
def openKinds (is : List ConfigItem) : List TokenKind :=
  .keyword .config :: .punct .openBrace :: is.flatMap ConfigItem.kinds

/-- The tokens of a partly read configuration block. -/
def kinds : ConfigDraft → List TokenKind
  | opening => [.keyword .config]
  | items is => openKinds is
  | baseUrl is => openKinds is ++ [.keyword .baseUrl]
  | baseUrlEnding is url => openKinds is ++ [.keyword .baseUrl, .str url]
  | header is h => openKinds is ++ h.kinds

theorem openKinds_append (is : List ConfigItem) (item : ConfigItem) :
    openKinds (is ++ [item]) = openKinds is ++ item.kinds := by
  simp [openKinds]

theorem step_kinds {d : ConfigDraft} {k : TokenKind} {s : Step ConfigDraft (List ConfigItem)}
    (h : d.step k = some s) :
    s.read kinds (fun is => Program.configKinds (some is)) = d.kinds ++ [k] := by
  unfold step at h
  split at h
  · cases h; rfl
  · cases h; rfl
  · cases h; rfl
  · cases h; rfl
  · cases h; simp [Step.read, kinds]
  · cases h; simp [Step.read, kinds, openKinds_append, ConfigItem.kinds]
  · next is d =>
    obtain ⟨s', hs', rfl⟩ := Option.map_eq_some_iff.mp h
    exact Step.read_within (HeaderDraft.step_kinds hs') (openKinds is) (fun _ => rfl)
      (fun h => openKinds_append is (.header h))
  · cases h

theorem step_test (d : ConfigDraft) : d.step (.keyword .test) = none := by
  cases d with
  | header is h => simp [step, HeaderDraft.step_test]
  | opening | items | baseUrl | baseUrlEnding => rfl

/-- A configuration block takes one more item. -/
theorem run_item (is : List ConfigItem) {ks : List TokenKind} {item : ConfigItem}
    (h : ConfigItemRel ks item) : Run step (items is) ks (items (is ++ [item])) := by
  cases h with
  | baseUrl url => exact .cons rfl (.cons rfl (.cons rfl (.nil _)))
  | header hh =>
    obtain ⟨rest, rfl, hr⟩ := HeaderDraft.reads_header hh
    exact .cons rfl (hr.within id (header is) (fun h => items (is ++ [.header h]))
      (fun _ _ => rfl) rest (List.map_id rest))

theorem reads_config {ks : List TokenKind} {is : List ConfigItem} (hr : ConfigRel ks is) :
    ∃ rest, ks = .keyword .config :: rest ∧ Reads step .opening rest is := by
  cases hr with
  | config hs =>
    exact ⟨_, rfl, .more rfl ((Run.many run_item hs []).reads (.done rfl))⟩

end ConfigDraft

/-! ## Variables -/

namespace VariableDraft

/-- The tokens of a partly read variable. -/
def kinds : VariableDraft → List TokenKind
  | name => [.keyword .var]
  | equals n => [.keyword .var, .ident n]
  | value n => [.keyword .var, .ident n, .punct .equals]
  | ending v => [.keyword .var, .ident v.name, .punct .equals, v.value.kind]

theorem step_kinds {d : VariableDraft} {k : TokenKind} {s : Step VariableDraft Variable}
    (h : d.step k = some s) : s.read kinds Variable.kinds = d.kinds ++ [k] := by
  unfold step at h
  split at h <;> cases h <;> rfl

theorem step_test (d : VariableDraft) : d.step (.keyword .test) = none := by
  cases d <;> rfl

theorem reads_variable {ks : List TokenKind} {v : Variable} (hr : VariableRel ks v) :
    ∃ rest, ks = .keyword .var :: rest ∧ Reads step .name rest v := by
  cases hr with
  | str n text => exact ⟨_, rfl, .more rfl (.more rfl (.more rfl (.done rfl)))⟩
  | int n i => exact ⟨_, rfl, .more rfl (.more rfl (.more rfl (.done rfl)))⟩

end VariableDraft

/-! ## Requests -/

namespace RequestDraft

/-- The tokens of a request up to the items that it has. -/
def openKinds (r : Request) : List TokenKind :=
  .keyword r.method.keyword :: .str r.path :: .punct .openBrace :: r.items.flatMap RequestItem.kinds

/-- The tokens of a partly read request. -/
def kinds : RequestDraft → List TokenKind
  | path m => [.keyword m.keyword]
  | opening m p => [.keyword m.keyword, .str p]
  | items r => openKinds r
  | header r h => openKinds r ++ h.kinds
  | body r => openKinds r ++ [.keyword .body]
  | bodyEnding r text => openKinds r ++ [.keyword .body, .str text]

theorem openKinds_add (r : Request) (item : RequestItem) :
    openKinds (add r item) = openKinds r ++ item.kinds := by
  simp [openKinds, add]

theorem step_kinds {d : RequestDraft} {k : TokenKind} {s : Step RequestDraft Request}
    (h : d.step k = some s) : s.read kinds Request.kinds = d.kinds ++ [k] := by
  unfold step at h
  split at h
  · cases h; rfl
  · cases h; rfl
  · cases h; rfl
  · cases h; rfl
  · cases h; rfl
  · next r d =>
    obtain ⟨s', hs', rfl⟩ := Option.map_eq_some_iff.mp h
    exact Step.read_within (HeaderDraft.step_kinds hs') (openKinds r) (fun _ => rfl)
      (fun h => openKinds_add r (.header h))
  · cases h; simp [Step.read, kinds]
  · cases h; simp [Step.read, kinds, openKinds_add, RequestItem.kinds]
  · cases h

theorem step_test (d : RequestDraft) : d.step (.keyword .test) = none := by
  cases d with
  | header r h => simp [step, HeaderDraft.step_test]
  | path | opening | items | body | bodyEnding => rfl

/-- A request takes one more item. -/
theorem run_item (m : Method) (p : String) (is : List RequestItem) {ks : List TokenKind}
    {item : RequestItem} (h : RequestItemRel ks item) :
    Run step (items ⟨m, p, is⟩) ks (items ⟨m, p, is ++ [item]⟩) := by
  cases h with
  | header hh =>
    obtain ⟨rest, rfl, hr⟩ := HeaderDraft.reads_header hh
    exact .cons rfl (hr.within id (header ⟨m, p, is⟩) (fun h => items ⟨m, p, is ++ [.header h]⟩)
      (fun _ _ => rfl) rest (List.map_id rest))
  | body text => exact .cons rfl (.cons rfl (.cons rfl (.nil _)))

theorem reads_request {ks : List TokenKind} {r : Request} (hr : RequestRel ks r) :
    ∃ rest, ks = .keyword r.method.keyword :: rest ∧ Reads step (.path r.method) rest r := by
  cases hr with
  | request p hm hs =>
    obtain rfl := (methodRel_iff _ _).mp hm
    exact ⟨_, rfl, .more rfl (.more rfl ((Run.many (run_item _ p) hs []).reads (.done rfl)))⟩

end RequestDraft

/-! ## Assertions -/

namespace AssertionDraft

/-- The tokens of an assertion up to its last argument. -/
def openKinds (a : Assertion) : List TokenKind :=
  .keyword a.keyword :: .punct .openParen :: a.arguments

/-- The tokens of an assertion about a header up to the name of the header. -/
def headerKinds (test : HeaderTest) (key : String) : List TokenKind :=
  [.keyword (test.assertion key "").keyword, .punct .openParen, .str key]

/-- The tokens of a partly read assertion. -/
def kinds : AssertionDraft → List TokenKind
  | opening form => [.keyword form.keyword]
  | argument form => [.keyword form.keyword, .punct .openParen]
  | rangeComma start => [.keyword .assertStatusRange, .punct .openParen, .int start]
  | rangeStop start =>
    [.keyword .assertStatusRange, .punct .openParen, .int start, .punct .comma]
  | headerComma test key => headerKinds test key
  | headerText test key => headerKinds test key ++ [.punct .comma]
  | closing a => openKinds a
  | ending a => openKinds a ++ [.punct .closeParen]

theorem step_kinds {d : AssertionDraft} {k : TokenKind} {s : Step AssertionDraft Assertion}
    (h : d.step k = some s) : s.read kinds Assertion.kinds = d.kinds ++ [k] := by
  unfold step at h
  split at h
  case h_10 test key text =>
    cases h
    cases test <;> rfl
  case h_12 a =>
    cases h
    simp [Step.read, kinds, openKinds, Assertion.kinds]
  all_goals cases h <;> rfl

theorem step_test (d : AssertionDraft) : d.step (.keyword .test) = none := by
  cases d with
  | argument form => cases form <;> rfl
  | opening | rangeComma | rangeStop | headerComma | headerText | closing | ending => rfl

theorem reads_assertion {ks : List TokenKind} {a : Assertion} (hr : AssertionRel ks a) :
    ∃ form rest, ks = .keyword (AssertionForm.keyword form) :: rest ∧
      Reads step (.opening form) rest a := by
  cases hr with
  | status code =>
    exact ⟨.status, _, rfl, .more rfl (.more rfl (.more rfl (.done rfl)))⟩
  | statusRange start stop =>
    exact ⟨.statusRange, _, rfl,
      .more rfl (.more rfl (.more rfl (.more rfl (.more rfl (.done rfl)))))⟩
  | header key value =>
    exact ⟨.header, _, rfl,
      .more rfl (.more rfl (.more rfl (.more rfl (.more rfl (.done rfl)))))⟩
  | headerContains key substring =>
    exact ⟨.headerContains, _, rfl,
      .more rfl (.more rfl (.more rfl (.more rfl (.more rfl (.done rfl)))))⟩
  | bodyContains substring =>
    exact ⟨.bodyContains, _, rfl, .more rfl (.more rfl (.more rfl (.done rfl)))⟩

end AssertionDraft

/-! ## Tests -/

namespace TestDraft

/-- The tokens of a test up to the statements that it has. -/
def openKinds (t : TestBlock) : List TokenKind :=
  .keyword .test :: .ident t.name :: .punct .openBrace :: t.statements.flatMap Statement.kinds

/-- The tokens of a partly read test. -/
def kinds : TestDraft → List TokenKind
  | name _ => [.keyword .test]
  | opening _ n => [.keyword .test, .ident n]
  | statements t => openKinds t
  | request t r => openKinds t ++ r.kinds
  | assertion t a => openKinds t ++ a.kinds

/-- The place of a partly read test. -/
def position : TestDraft → Position
  | name place => place
  | opening place _ => place
  | statements t => t.position
  | request t _ => t.position
  | assertion t _ => t.position

theorem openKinds_add (t : TestBlock) (s : Statement) :
    openKinds (add t s) = openKinds t ++ s.kinds := by
  simp [openKinds, add]

/-- The keyword of a statement is all that has been read of it when its draft begins. -/
theorem beginStatement_kinds {t : TestBlock} {k : Keyword} {d : TestDraft}
    (h : beginStatement t k = some d) :
    d.kinds = openKinds t ++ [.keyword k] ∧ d.position = t.position := by
  cases k <;> first | cases h; exact ⟨rfl, rfl⟩ | cases h

theorem step_kinds {d : TestDraft} {k : TokenKind} {s : Step TestDraft TestBlock}
    (h : d.step k = some s) : s.read kinds TestBlock.kinds = d.kinds ++ [k] := by
  unfold step at h
  split at h
  · cases h; rfl
  · cases h; rfl
  · obtain ⟨d', hd', rfl⟩ := Option.map_eq_some_iff.mp h
    exact (beginStatement_kinds hd').1
  · cases h; rfl
  · next t r =>
    obtain ⟨s', hs', rfl⟩ := Option.map_eq_some_iff.mp h
    exact Step.read_within (RequestDraft.step_kinds hs') (openKinds t) (fun _ => rfl)
      (fun r => openKinds_add t (.request r))
  · next t a =>
    obtain ⟨s', hs', rfl⟩ := Option.map_eq_some_iff.mp h
    exact Step.read_within (AssertionDraft.step_kinds hs') (openKinds t) (fun _ => rfl)
      (fun a => openKinds_add t (.assertion a))
  · cases h

/-- A test keeps its place. -/
theorem step_position {d : TestDraft} {k : TokenKind} {s : Step TestDraft TestBlock}
    (h : d.step k = some s) :
    s.read (fun d => [d.position]) (fun t => [t.position]) = [d.position] := by
  unfold step at h
  split at h
  · cases h; rfl
  · cases h; rfl
  · obtain ⟨d', hd', rfl⟩ := Option.map_eq_some_iff.mp h
    rw [Step.read, (beginStatement_kinds hd').2]
    rfl
  · cases h; rfl
  · obtain ⟨s', -, rfl⟩ := Option.map_eq_some_iff.mp h
    cases s' <;> rfl
  · obtain ⟨s', -, rfl⟩ := Option.map_eq_some_iff.mp h
    cases s' <;> rfl
  · cases h

theorem step_test (d : TestDraft) : d.step (.keyword .test) = none := by
  cases d with
  | request t r => simp [step, RequestDraft.step_test]
  | assertion t a => simp [step, AssertionDraft.step_test]
  | name | opening | statements => rfl

/-- A test takes one more statement. -/
theorem run_statement (n : String) (place : Position) (ss : List Statement) {ks : List TokenKind}
    {s : Statement} (h : StatementRel ks s) :
    Run step (statements ⟨n, ss, place⟩) ks (statements ⟨n, ss ++ [s], place⟩) := by
  cases h with
  | @request r hr =>
    obtain ⟨rest, rfl, hreads⟩ := RequestDraft.reads_request hr
    refine .cons ?_ (hreads.within id (request ⟨n, ss, place⟩)
      (fun r => statements ⟨n, ss ++ [.request r], place⟩) (fun _ _ => rfl) rest (List.map_id rest))
    cases r.method <;> rfl
  | @assertion a ha =>
    obtain ⟨form, rest, rfl, hreads⟩ := AssertionDraft.reads_assertion ha
    refine .cons ?_ (hreads.within id (assertion ⟨n, ss, place⟩)
      (fun a => statements ⟨n, ss ++ [.assertion a], place⟩) (fun _ _ => rfl) rest
      (List.map_id rest))
    cases form <;> rfl

theorem reads_test {ts : List Token} {t : TestBlock} (hr : TestRel ts t) :
    ∃ rest, ts = ⟨.keyword .test, t.position⟩ :: rest ∧
      Reads step (.name t.position) (rest.map Token.kind) t := by
  cases hr with
  | test hrest hs =>
    refine ⟨_, rfl, ?_⟩
    rw [hrest]
    exact .more rfl (.more rfl ((Run.many (run_statement _ _) hs []).reads (.done rfl)))

end TestDraft

/-! ## Programs -/

namespace ProgramDraft

/-- The tokens of a partly read program. -/
def kinds : ProgramDraft → List TokenKind
  | between p => p.kinds
  | config c => c.kinds
  | declaration p v => p.kinds ++ v.kinds
  | test p t => p.kinds ++ t.kinds

/-- The places of the tests of a partly read program. -/
def places : ProgramDraft → List Position
  | between p => p.tests.map TestBlock.position
  | config _ => []
  | declaration p _ => p.tests.map TestBlock.position
  | test p t => p.tests.map TestBlock.position ++ [t.position]

/-- A variable is never read behind a test. -/
def InOrder : ProgramDraft → Prop
  | declaration p _ => p.tests = []
  | _ => True

/-- The tokens that a draft has taken. -/
structure Read (d : ProgramDraft) (ts : List Token) : Prop where
  inOrder : d.InOrder
  spelled : ts.map Token.kind = d.kinds
  placed : testPlaces ts = d.places

theorem start_read : Read start [] := ⟨trivial, rfl, rfl⟩

theorem eq_empty_of_takesConfig {p : Program} (h : takesConfig p = true) : p = .empty := by
  obtain ⟨c, vs, ts⟩ := p
  simp only [takesConfig, Bool.and_eq_true, Option.isNone_iff_eq_none, List.isEmpty_iff] at h
  obtain ⟨⟨rfl, rfl⟩, rfl⟩ := h
  rfl

theorem kinds_addVariable {p : Program} (h : p.tests = []) (v : Variable) :
    Program.kinds { p with declarations := p.declarations ++ [v] } = p.kinds ++ v.kinds := by
  simp [Program.kinds, h]

theorem kinds_addTest (p : Program) (t : TestBlock) :
    Program.kinds { p with tests := p.tests ++ [t] } = p.kinds ++ t.kinds := by
  simp [Program.kinds]

theorem places_snoc {ts : List Token} {t : Token} (h : t.kind ≠ .keyword .test) :
    testPlaces (ts ++ [t]) = testPlaces ts := by
  rw [testPlaces_append, testPlaces_cons_ne h]
  simp [testPlaces]

/-- A program draft with a token that begins no test, when `kinds` and `places` are known. -/
theorem Read.snoc {d d' : ProgramDraft} {ts : List Token} {t : Token} (hr : d.Read ts)
    (hne : t.kind ≠ .keyword .test) (ho : d'.InOrder) (hk : d'.kinds = d.kinds ++ [t.kind])
    (hp : d'.places = d.places) : d'.Read (ts ++ [t]) where
  inOrder := ho
  spelled := by rw [List.map_append, hr.spelled, hk]; rfl
  placed := by rw [places_snoc hne, hr.placed, hp]

theorem Read.between_more {p : Program} {d' : ProgramDraft} {ts : List Token} {t : Token}
    (hr : (between p).Read ts) (h : (between p).step t = some (.more d')) :
    d'.Read (ts ++ [t]) := by
  simp only [step] at h
  split at h
  · next hk =>
    split at h
    · next hc =>
      cases h
      obtain rfl := eq_empty_of_takesConfig hc
      exact hr.snoc (by simp [hk]) trivial (by rw [hk]; rfl) rfl
    · cases h
  · next hk =>
    split at h
    · next hv =>
      cases h
      exact hr.snoc (by simp [hk]) (List.isEmpty_iff.mp hv) (by rw [hk]; rfl) rfl
    · cases h
  · next hk =>
    cases h
    refine ⟨trivial, ?_, ?_⟩
    · rw [List.map_append, hr.spelled, List.map_singleton, hk]
      rfl
    · rw [testPlaces_append, hr.placed, testPlaces_cons_test hk]
      rfl
  · cases h
  · cases h

theorem Read.config_more {c : ConfigDraft} {d' : ProgramDraft} {ts : List Token} {t : Token}
    (hr : (config c).Read ts) (h : (config c).step t = some (.more d')) :
    d'.Read (ts ++ [t]) := by
  obtain ⟨s, hs, hd'⟩ := Option.map_eq_some_iff.mp h
  have hne : t.kind ≠ .keyword .test := by
    intro hk
    rw [hk, ConfigDraft.step_test] at hs
    cases hs
  have hk := ConfigDraft.step_kinds hs
  cases s with
  | more c' => cases hd'; exact hr.snoc hne trivial hk rfl
  | done is =>
    cases hd'
    refine hr.snoc hne trivial ?_ rfl
    rw [show (config c).kinds = c.kinds from rfl, ← hk]
    simp [kinds, Program.kinds, Program.empty, Step.read]

theorem Read.declaration_more {p : Program} {v : VariableDraft} {d' : ProgramDraft}
    {ts : List Token} {t : Token} (hr : (declaration p v).Read ts)
    (h : (declaration p v).step t = some (.more d')) : d'.Read (ts ++ [t]) := by
  obtain ⟨s, hs, hd'⟩ := Option.map_eq_some_iff.mp h
  have hne : t.kind ≠ .keyword .test := by
    intro hk
    rw [hk, VariableDraft.step_test] at hs
    cases hs
  have hk : s.read _ _ = _ := VariableDraft.step_kinds hs
  have htests : p.tests = [] := hr.inOrder
  cases s with
  | more v' =>
    cases hd'
    refine hr.snoc hne htests ?_ rfl
    simp only [kinds, List.append_assoc, ← hk]
    rfl
  | done w =>
    cases hd'
    refine hr.snoc hne trivial ?_ rfl
    simp only [kinds, List.append_assoc, ← hk]
    exact kinds_addVariable htests w

theorem Read.test_more {p : Program} {b : TestDraft} {d' : ProgramDraft} {ts : List Token}
    {t : Token} (hr : (test p b).Read ts) (h : (test p b).step t = some (.more d')) :
    d'.Read (ts ++ [t]) := by
  obtain ⟨s, hs, hd'⟩ := Option.map_eq_some_iff.mp h
  have hne : t.kind ≠ .keyword .test := by
    intro hk
    rw [hk, TestDraft.step_test] at hs
    cases hs
  have hk := TestDraft.step_kinds hs
  have hp := TestDraft.step_position hs
  cases s with
  | more b' =>
    cases hd'
    refine hr.snoc hne trivial ?_ ?_
    · simp only [kinds, List.append_assoc, ← hk]
      rfl
    · simp only [places, ← hp]
      rfl
  | done block =>
    cases hd'
    refine hr.snoc hne trivial ?_ ?_
    · simp only [kinds, List.append_assoc, ← hk]
      exact kinds_addTest p block
    · simp only [places, ← hp, List.map_append]
      rfl

/-- **A token that a draft takes becomes the last of those it has taken.** -/
theorem Read.more {d d' : ProgramDraft} {ts : List Token} {t : Token} (hr : d.Read ts)
    (h : d.step t = some (.more d')) : d'.Read (ts ++ [t]) := by
  cases d with
  | between p => exact hr.between_more h
  | config c => exact hr.config_more h
  | declaration p v => exact hr.declaration_more h
  | test p b => exact hr.test_more h

/-- A program is finished between two of its parts, by the end of the text. -/
theorem eq_between_of_done {d : ProgramDraft} {t : Token} {p : Program}
    (h : d.step t = some (.done p)) : d = between p ∧ t.kind = .eof := by
  cases d with
  | between q =>
    simp only [step] at h
    split at h
    · split at h <;> cases h
    · split at h <;> cases h
    · cases h
    · next hk => cases h; exact ⟨rfl, hk⟩
    · cases h
  | config c =>
    obtain ⟨s, -, hs⟩ := Option.map_eq_some_iff.mp h
    cases s <;> cases hs
  | declaration q v =>
    obtain ⟨s, -, hs⟩ := Option.map_eq_some_iff.mp h
    cases s <;> cases hs
  | test q b =>
    obtain ⟨s, -, hs⟩ := Option.map_eq_some_iff.mp h
    cases s <;> cases hs

/-- **What has been taken when a program is finished derives the program.** -/
theorem Read.done {d : ProgramDraft} {ts : List Token} {t : Token} {p : Program} (hr : d.Read ts)
    (h : d.step t = some (.done p)) : ProgramRel (ts ++ [t]) p := by
  obtain ⟨rfl, hk⟩ := eq_between_of_done h
  refine (programRel_iff _ _).mpr ⟨?_, ?_⟩
  · rw [List.map_append, hr.spelled, List.map_singleton, hk]
    rfl
  · rw [places_snoc (by simp [hk]), hr.placed]
    rfl

/-! ### Completeness -/

theorem run_variable (c : Option (List ConfigItem)) (vs : List Variable) {ts : List Token}
    {v : Variable} (h : VariableRel (ts.map Token.kind) v) :
    Run step (between ⟨c, vs, []⟩) ts (between ⟨c, vs ++ [v], []⟩) := by
  obtain ⟨rest, hts, hr⟩ := VariableDraft.reads_variable h
  obtain ⟨⟨kind, place⟩, us, rfl, rfl, hus⟩ := List.map_eq_cons_iff.mp hts
  exact .cons rfl (hr.within Token.kind (declaration ⟨c, vs, []⟩)
    (fun v => between ⟨c, vs ++ [v], []⟩) (fun _ _ => rfl) us hus)

theorem run_test (c : Option (List ConfigItem)) (vs : List Variable) (bs : List TestBlock)
    {ts : List Token} {b : TestBlock} (h : TestRel ts b) :
    Run step (between ⟨c, vs, bs⟩) ts (between ⟨c, vs, bs ++ [b]⟩) := by
  obtain ⟨rest, rfl, hr⟩ := TestDraft.reads_test h
  exact .cons rfl (hr.within Token.kind (test ⟨c, vs, bs⟩) (fun b => between ⟨c, vs, bs ++ [b]⟩)
    (fun _ _ => rfl) rest rfl)

theorem run_config {ts : List Token} {c : Option (List ConfigItem)}
    (h : OptionalRel ConfigRel (ts.map Token.kind) c) :
    Run step start ts (between ⟨c, [], []⟩) := by
  cases c with
  | none =>
    have hts : ts.map Token.kind = [] := (optionalConfigRel_iff _ none).mp h
    rw [List.map_eq_nil_iff.mp hts]
    exact .nil _
  | some is =>
    have hc : ConfigRel (ts.map Token.kind) is :=
      (configRel_iff _ is).mpr ((optionalConfigRel_iff _ (some is)).mp h)
    obtain ⟨rest, hts, hr⟩ := ConfigDraft.reads_config hc
    obtain ⟨⟨kind, place⟩, us, rfl, rfl, hus⟩ := List.map_eq_cons_iff.mp hts
    exact .cons rfl (hr.within Token.kind config (fun is => between ⟨some is, [], []⟩)
      (fun _ _ => rfl) us hus)

/-- **The drafts take what the grammar derives.** -/
theorem reads_programRel {ts : List Token} {p : Program} (h : ProgramRel ts p) :
    Reads step start ts p := by
  obtain @⟨cs, vs, us, c, ds, bs, place, hc, hv, ht⟩ := h
  have hvs := Run.many (run_variable c) (manyRel_of_map hv) []
  have hts := Run.many (run_test c ds) ht []
  exact (((run_config hc).append hvs).append hts).reads (.done rfl)

end ProgramDraft

end ApiScenario
