import ApiScenario.Program.Source

/-!
# The grammar as derivations

The grammar of the scenario language, production by production, as relations between rows of
tokens and what they stand for. Nothing here knows how programs are read.

```text
ProgramRel     := ConfigRel? VariableRel* TestRel* END
ConfigRel      := "config" "{" ConfigItemRel* "}"
ConfigItemRel  := "base_url" STRING ";" | HeaderRel
HeaderRel      := "header" STRING STRING ";"
VariableRel    := "var" IDENTIFIER "=" (STRING | INTEGER) ";"
TestRel        := "test" IDENTIFIER "{" StatementRel* "}"
StatementRel   := RequestRel | AssertionRel
RequestRel     := ("GET" | "POST" | "PUT" | "DELETE") STRING "{" RequestItemRel* "}"
RequestItemRel := HeaderRel | "body" STRING ";"
AssertionRel   := five forms, each with its own keyword
```

Only the places of the words that begin tests matter, so all but the last two levels are about
kinds of tokens. Every relation is shown to be the spelling of `Program.Source`: there is one row of
kinds for each tree (`programRel_iff`).
-/

namespace ApiScenario.Grammar

/-! ## Repetition and choice -/

/-- Things in a row. -/
inductive ManyRel {τ α : Type} (R : List τ → α → Prop) : List τ → List α → Prop
  | nil : ManyRel R [] []
  | cons {ks rest : List τ} {x : α} {xs : List α} :
      R ks x → ManyRel R rest xs → ManyRel R (ks ++ rest) (x :: xs)

/-- A thing or nothing. -/
inductive OptionalRel {τ α : Type} (R : List τ → α → Prop) : List τ → Option α → Prop
  | none : OptionalRel R [] none
  | some {ks : List τ} {x : α} : R ks x → OptionalRel R ks (some x)

/-! ## Productions on kinds of tokens -/

inductive HeaderRel : List TokenKind → Header → Prop
  | header (key value : String) :
      HeaderRel [.keyword .header, .str key, .str value, .punct .semicolon] ⟨key, value⟩

inductive ConfigItemRel : List TokenKind → ConfigItem → Prop
  | baseUrl (url : String) :
      ConfigItemRel [.keyword .baseUrl, .str url, .punct .semicolon] (.baseUrl url)
  | header {ks : List TokenKind} {h : Header} : HeaderRel ks h → ConfigItemRel ks (.header h)

inductive ConfigRel : List TokenKind → List ConfigItem → Prop
  | config {ks : List TokenKind} {items : List ConfigItem} :
      ManyRel ConfigItemRel ks items →
      ConfigRel (.keyword .config :: .punct .openBrace :: (ks ++ [.punct .closeBrace])) items

inductive VariableRel : List TokenKind → Variable → Prop
  | str (name text : String) :
      VariableRel [.keyword .var, .ident name, .punct .equals, .str text, .punct .semicolon]
        ⟨name, .str text⟩
  | int (name : String) (n : Int64) :
      VariableRel [.keyword .var, .ident name, .punct .equals, .int n, .punct .semicolon]
        ⟨name, .int n⟩

inductive RequestItemRel : List TokenKind → RequestItem → Prop
  | header {ks : List TokenKind} {h : Header} : HeaderRel ks h → RequestItemRel ks (.header h)
  | body (text : String) :
      RequestItemRel [.keyword .body, .str text, .punct .semicolon] (.body text)

inductive MethodRel : TokenKind → Method → Prop
  | get : MethodRel (.keyword .get) .get
  | post : MethodRel (.keyword .post) .post
  | put : MethodRel (.keyword .put) .put
  | delete : MethodRel (.keyword .delete) .delete

inductive RequestRel : List TokenKind → Request → Prop
  | request {k : TokenKind} {m : Method} {ks : List TokenKind} {items : List RequestItem}
      (path : String) :
      MethodRel k m → ManyRel RequestItemRel ks items →
      RequestRel (k :: .str path :: .punct .openBrace :: (ks ++ [.punct .closeBrace]))
        ⟨m, path, items⟩

inductive AssertionRel : List TokenKind → Assertion → Prop
  | status (code : Int64) :
      AssertionRel [.keyword .assertStatus, .punct .openParen, .int code, .punct .closeParen,
        .punct .semicolon] (.statusEquals code)
  | statusRange (start stop : Int64) :
      AssertionRel [.keyword .assertStatusRange, .punct .openParen, .int start, .punct .comma,
        .int stop, .punct .closeParen, .punct .semicolon] (.statusRange start stop)
  | header (key value : String) :
      AssertionRel [.keyword .assertHeader, .punct .openParen, .str key, .punct .comma, .str value,
        .punct .closeParen, .punct .semicolon] (.headerEquals key value)
  | headerContains (key substring : String) :
      AssertionRel [.keyword .assertHeaderContains, .punct .openParen, .str key, .punct .comma,
        .str substring, .punct .closeParen, .punct .semicolon] (.headerContains key substring)
  | bodyContains (substring : String) :
      AssertionRel [.keyword .assertBodyContains, .punct .openParen, .str substring,
        .punct .closeParen, .punct .semicolon] (.bodyContains substring)

inductive StatementRel : List TokenKind → Statement → Prop
  | request {ks : List TokenKind} {r : Request} : RequestRel ks r → StatementRel ks (.request r)
  | assertion {ks : List TokenKind} {a : Assertion} :
      AssertionRel ks a → StatementRel ks (.assertion a)

/-! ## Productions on tokens -/

/-- A test stands where its keyword stands. -/
inductive TestRel : List Token → TestBlock → Prop
  | test {place : Position} {rest : List Token} {name : String} {ks : List TokenKind}
      {statements : List Statement} :
      rest.map Token.kind = .ident name :: .punct .openBrace :: (ks ++ [.punct .closeBrace]) →
      ManyRel StatementRel ks statements →
      TestRel (⟨.keyword .test, place⟩ :: rest) ⟨name, statements, place⟩

inductive ProgramRel : List Token → Program → Prop
  | program {cs vs ts : List Token} {config : Option (List ConfigItem)}
      {declarations : List Variable} {tests : List TestBlock} (place : Position) :
      OptionalRel ConfigRel (cs.map Token.kind) config →
      ManyRel VariableRel (vs.map Token.kind) declarations →
      ManyRel TestRel ts tests →
      ProgramRel (cs ++ vs ++ ts ++ [⟨.eof, place⟩]) ⟨config, declarations, tests⟩

/-! ## Derivations are spellings -/

/-- If the things in a row have one spelling each, then so has the row. -/
theorem manyRel_iff {τ α : Type} {R : List τ → α → Prop} {f : α → List τ}
    (h : ∀ ks x, R ks x ↔ ks = f x) : ∀ (xs : List α) (ks : List τ),
    ManyRel R ks xs ↔ ks = xs.flatMap f
  | [], ks => by
    constructor
    · rintro ⟨⟩; rfl
    · rintro rfl; exact .nil
  | x :: xs, ks => by
    rw [List.flatMap_cons]
    constructor
    · rintro (_ | ⟨hx, hxs⟩)
      rw [(h _ x).mp hx, (manyRel_iff h xs _).mp hxs]
    · rintro rfl
      exact .cons ((h _ x).mpr rfl) ((manyRel_iff h xs _).mpr rfl)

theorem headerRel_iff (ks : List TokenKind) (h : Header) : HeaderRel ks h ↔ ks = h.kinds := by
  constructor
  · rintro ⟨key, value⟩; rfl
  · rintro rfl; exact .header h.key h.value

theorem configItemRel_iff (ks : List TokenKind) (item : ConfigItem) :
    ConfigItemRel ks item ↔ ks = item.kinds := by
  constructor
  · rintro (url | hh)
    · rfl
    · exact (headerRel_iff _ _).mp hh
  · rintro rfl
    cases item with
    | baseUrl url => exact .baseUrl url
    | header h => exact .header ((headerRel_iff _ h).mpr rfl)

theorem configRel_iff (ks : List TokenKind) (items : List ConfigItem) :
    ConfigRel ks items ↔ ks = Program.configKinds (some items) := by
  constructor
  · rintro ⟨hs⟩
    rw [(manyRel_iff configItemRel_iff items _).mp hs]
    rfl
  · rintro rfl
    exact .config ((manyRel_iff configItemRel_iff items _).mpr rfl)

theorem optionalConfigRel_iff (ks : List TokenKind) (config : Option (List ConfigItem)) :
    OptionalRel ConfigRel ks config ↔ ks = Program.configKinds config := by
  cases config with
  | none =>
    constructor
    · rintro ⟨⟩; rfl
    · rintro rfl; exact .none
  | some items =>
    constructor
    · rintro (_ | hc); exact (configRel_iff _ _).mp hc
    · rintro rfl; exact .some ((configRel_iff _ _).mpr rfl)

theorem variableRel_iff (ks : List TokenKind) (v : Variable) :
    VariableRel ks v ↔ ks = v.kinds := by
  constructor
  · rintro (_ | _) <;> rfl
  · rintro rfl
    obtain ⟨name, value⟩ := v
    cases value with
    | str text => exact .str name text
    | int n => exact .int name n

theorem requestItemRel_iff (ks : List TokenKind) (item : RequestItem) :
    RequestItemRel ks item ↔ ks = item.kinds := by
  constructor
  · rintro (hh | text)
    · exact (headerRel_iff _ _).mp hh
    · rfl
  · rintro rfl
    cases item with
    | header h => exact .header ((headerRel_iff _ h).mpr rfl)
    | body text => exact .body text

theorem methodRel_iff (k : TokenKind) (m : Method) : MethodRel k m ↔ k = .keyword m.keyword := by
  constructor
  · rintro (_ | _ | _ | _) <;> rfl
  · rintro rfl
    cases m with
    | get => exact .get
    | post => exact .post
    | put => exact .put
    | delete => exact .delete

theorem requestRel_iff (ks : List TokenKind) (r : Request) : RequestRel ks r ↔ ks = r.kinds := by
  constructor
  · rintro ⟨path, hm, hs⟩
    rw [(methodRel_iff _ _).mp hm, (manyRel_iff requestItemRel_iff _ _).mp hs]
    rfl
  · rintro rfl
    exact .request r.path ((methodRel_iff _ _).mpr rfl)
      ((manyRel_iff requestItemRel_iff r.items _).mpr rfl)

theorem assertionRel_iff (ks : List TokenKind) (a : Assertion) :
    AssertionRel ks a ↔ ks = a.kinds := by
  constructor
  · rintro (_ | _ | _ | _ | _) <;> rfl
  · rintro rfl
    cases a with
    | statusEquals code => exact .status code
    | statusRange start stop => exact .statusRange start stop
    | headerEquals key value => exact .header key value
    | headerContains key substring => exact .headerContains key substring
    | bodyContains substring => exact .bodyContains substring

theorem statementRel_iff (ks : List TokenKind) (s : Statement) :
    StatementRel ks s ↔ ks = s.kinds := by
  constructor
  · rintro (hr | ha)
    · exact (requestRel_iff _ _).mp hr
    · exact (assertionRel_iff _ _).mp ha
  · rintro rfl
    cases s with
    | request r => exact .request ((requestRel_iff _ r).mpr rfl)
    | assertion a => exact .assertion ((assertionRel_iff _ a).mpr rfl)

/-! ## Places of tests -/

/-- The places of the words that begin tests. -/
def testPlaces (ts : List Token) : List Position :=
  (ts.filter fun t => t.kind = .keyword .test).map Token.position

@[simp] theorem testPlaces_append (ts us : List Token) :
    testPlaces (ts ++ us) = testPlaces ts ++ testPlaces us := by
  simp [testPlaces]

theorem testPlaces_cons_test {t : Token} (h : t.kind = .keyword .test) (ts : List Token) :
    testPlaces (t :: ts) = t.position :: testPlaces ts := by
  simp [testPlaces, h]

theorem testPlaces_cons_ne {t : Token} (h : t.kind ≠ .keyword .test) (ts : List Token) :
    testPlaces (t :: ts) = testPlaces ts := by
  simp [testPlaces, h]

theorem testPlaces_eq_nil {ts : List Token} (h : .keyword .test ∉ ts.map Token.kind) :
    testPlaces ts = [] := by
  unfold testPlaces
  rw [List.filter_eq_nil_iff.mpr, List.map_nil]
  intro t ht
  have hne : t.kind ≠ .keyword .test := fun he => h (he ▸ List.mem_map_of_mem ht)
  simpa using hne

theorem test_notMem_header (h : Header) : .keyword .test ∉ h.kinds := by
  simp [Header.kinds]

theorem test_notMem_configItem (item : ConfigItem) : .keyword .test ∉ item.kinds := by
  cases item with
  | baseUrl url => simp [ConfigItem.kinds]
  | header h => exact test_notMem_header h

theorem test_notMem_config (config : Option (List ConfigItem)) :
    .keyword .test ∉ Program.configKinds config := by
  cases config with
  | none => simp [Program.configKinds]
  | some items =>
    simp [Program.configKinds, TokenKind.braced, test_notMem_configItem]

theorem test_notMem_variable (v : Variable) : .keyword .test ∉ v.kinds := by
  obtain ⟨name, value⟩ := v
  cases value <;> simp [Variable.kinds, Value.kind]

theorem test_notMem_variables (vs : List Variable) :
    .keyword .test ∉ vs.flatMap Variable.kinds := by
  simp [test_notMem_variable]

theorem test_notMem_request (r : Request) : .keyword .test ∉ r.kinds := by
  have hm : r.method.keyword ≠ .test := by cases r.method <;> decide
  have hi : ∀ item ∈ r.items, .keyword .test ∉ item.kinds := by
    intro item _
    cases item with
    | header h => exact test_notMem_header h
    | body text => simp [RequestItem.kinds]
  simpa [Request.kinds, TokenKind.braced, hm.symm] using hi

theorem test_notMem_statement (s : Statement) : .keyword .test ∉ s.kinds := by
  cases s with
  | request r => exact test_notMem_request r
  | assertion a => cases a <;> simp [Statement.kinds, Assertion.kinds, Assertion.keyword,
      Assertion.arguments]

/-- After its first word a test has no word that begins a test. -/
theorem testPlaces_test {t : Token} {rest : List Token} {b : TestBlock}
    (h : (t :: rest).map Token.kind = b.kinds) : testPlaces (t :: rest) = [t.position] := by
  unfold TestBlock.kinds at h
  rw [List.map_cons, List.cons.injEq] at h
  rw [testPlaces_cons_test h.1, testPlaces_eq_nil]
  rw [h.2]
  simp [TokenKind.braced, test_notMem_statement]

/-! ## Derivations of tests and programs -/

theorem testRel_iff (ts : List Token) (b : TestBlock) :
    TestRel ts b ↔ ts.map Token.kind = b.kinds ∧ testPlaces ts = [b.position] := by
  constructor
  · rintro @⟨place, rest, name, ks, statements, hrest, hs⟩
    have hk : (Token.mk (.keyword .test) place :: rest).map Token.kind
        = (TestBlock.mk name statements place).kinds := by
      rw [List.map_cons, hrest, (manyRel_iff statementRel_iff statements _).mp hs]
      rfl
    exact ⟨hk, testPlaces_test hk⟩
  · rintro ⟨hk, hp⟩
    match ts, hk with
    | ⟨kind, place⟩ :: rest, hk =>
      rw [testPlaces_test hk, List.cons.injEq] at hp
      have hkind : kind = .keyword .test := (List.cons.inj hk).1
      obtain ⟨name, statements, position⟩ := b
      obtain rfl : place = position := hp.1
      subst hkind
      exact .test (List.cons.inj hk).2 ((manyRel_iff statementRel_iff statements _).mpr rfl)

theorem manyTestRel_iff : ∀ (tests : List TestBlock) (ts : List Token),
    ManyRel TestRel ts tests ↔
      ts.map Token.kind = tests.flatMap TestBlock.kinds ∧
        testPlaces ts = tests.map TestBlock.position
  | [], ts => by
    constructor
    · rintro ⟨⟩; exact ⟨rfl, rfl⟩
    · rintro ⟨hk, -⟩
      rw [List.map_eq_nil_iff.mp hk]
      exact .nil
  | b :: tests, ts => by
    rw [List.flatMap_cons, List.map_cons]
    constructor
    · rintro (_ | ⟨hb, hrest⟩)
      obtain ⟨hk, hp⟩ := (testRel_iff _ b).mp hb
      obtain ⟨hks, hps⟩ := (manyTestRel_iff tests _).mp hrest
      rw [List.map_append, testPlaces_append, hk, hks, hp, hps]
      exact ⟨rfl, rfl⟩
    · rintro ⟨hk, hp⟩
      obtain ⟨us, rest, rfl, hus, hrest⟩ := List.map_eq_append_iff.mp hk
      match us, hus with
      | u :: us, hus =>
        -- the first token of the block is the only word in it that begins a test
        rw [testPlaces_append, testPlaces_test hus, List.singleton_append, List.cons.injEq] at hp
        refine .cons ((testRel_iff _ b).mpr ⟨hus, ?_⟩)
          ((manyTestRel_iff tests rest).mpr ⟨hrest, hp.2⟩)
        rw [testPlaces_test hus, hp.1]

/-- **A derivation of a program is its spelling, with the tests where their keywords stand.** -/
theorem programRel_iff (ts : List Token) (p : Program) :
    ProgramRel ts p ↔
      ts.map Token.kind = p.kinds ++ [.eof] ∧ testPlaces ts = p.tests.map TestBlock.position := by
  constructor
  · rintro ⟨place, hc, hv, ht⟩
    have hck := (optionalConfigRel_iff _ _).mp hc
    have hvk := (manyRel_iff variableRel_iff _ _).mp hv
    obtain ⟨htk, htp⟩ := (manyTestRel_iff _ _).mp ht
    refine ⟨?_, ?_⟩
    · simp only [List.map_append, hck, hvk, htk, Program.kinds]
      rfl
    · have hcn : testPlaces _ = [] := testPlaces_eq_nil (hck ▸ test_notMem_config _)
      have hvn : testPlaces _ = [] := testPlaces_eq_nil (hvk ▸ test_notMem_variables _)
      rw [testPlaces_append, testPlaces_append, testPlaces_append, hcn, hvn, htp,
        testPlaces_cons_ne (by simp)]
      simp [testPlaces]
  · rintro ⟨hk, hp⟩
    obtain ⟨config, declarations, tests⟩ := p
    obtain ⟨body, last, rfl, hbody, hlast⟩ := List.map_eq_append_iff.mp hk
    obtain ⟨front, us, rfl, hfront, hus⟩ := List.map_eq_append_iff.mp hbody
    obtain ⟨cs, vs, rfl, hcs, hvs⟩ := List.map_eq_append_iff.mp hfront
    obtain ⟨⟨kind, place⟩, rfl, hkind⟩ := List.map_eq_singleton_iff.mp hlast
    obtain rfl : kind = .eof := hkind
    have hcn : testPlaces cs = [] := testPlaces_eq_nil (hcs ▸ test_notMem_config _)
    have hvn : testPlaces vs = [] := testPlaces_eq_nil (hvs ▸ test_notMem_variables _)
    have hlastn : testPlaces [⟨.eof, place⟩] = [] := testPlaces_cons_ne (by simp) []
    rw [testPlaces_append, testPlaces_append, testPlaces_append, hcn, hvn, hlastn,
      List.append_nil] at hp
    exact .program place ((optionalConfigRel_iff _ _).mpr hcs)
      ((manyRel_iff variableRel_iff _ _).mpr hvs) ((manyTestRel_iff _ _).mpr ⟨hus, hp⟩)

end ApiScenario.Grammar
