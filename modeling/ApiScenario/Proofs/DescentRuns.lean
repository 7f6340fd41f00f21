import ApiScenario.Proofs.DescentReader
import ApiScenario.Proofs.Expectations

/-!
# Descent stays within the tokens

Reading by descent comes to the same as reading with drafts, and it never runs past the end
(`descent_stays_within_tokens`): nothing happens but that items are pulled, each once and in their
order, none behind the end of the text or an error, and no loop stalls.

A procedure is followed along the drafts. A reader stands `At` a draft if reading on from there with
the draft comes to the result that the whole stream comes to. What a procedure ensures is told by
`Ends`: it ends at the draft behind its construct and has taken tokens (`Took`), or it fails with
the result. There is one rule for each way of putting procedures together, and one fact for each
procedure.
-/

namespace ApiScenario.Descent

open Lexer

/-! ## Streams and readers -/

/-- A stream that has the end of the text or an error as its last item, and neither before. -/
def Ended (items : List Lexed) : Prop :=
  ∃ (ts : List Token) (last : Lexed), items = ts.map .ok ++ [last] ∧
    (∀ t ∈ ts, t.kind ≠ .eof) ∧ ∀ t, last = .ok t → t.kind = .eof

/-- A token that is not the end of the text is not the last item. -/
theorem Ended.rest_ne_nil {items before rest : List Lexed} {t : Token} (h : Ended items)
    (hitems : items = before ++ .ok t :: rest) (ht : t.kind ≠ .eof) : rest ≠ [] := by
  rintro rfl
  obtain ⟨ts, last, hts, -, hlast⟩ := h
  have hlasts := (List.append_inj' (hitems.symm.trans hts) rfl).2
  exact ht (hlast t (List.cons.inj hlasts).1.symm)

/-- An item that is not the last one is a token, and not the end of the text. -/
theorem Ended.token_of_rest {items before rest : List Lexed} {item : Lexed} (h : Ended items)
    (hitems : items = before ++ item :: rest) (hrest : rest ≠ []) :
    ∃ t, item = .ok t ∧ t.kind ≠ .eof := by
  obtain ⟨ts, last, hts, hkinds, -⟩ := h
  obtain ⟨front, z, rfl⟩ := (List.eq_nil_or_concat rest).resolve_left hrest
  have hsplit : (before ++ item :: front) ++ [z] = ts.map .ok ++ [last] := by
    rw [← hts, hitems, List.concat_eq_append, List.append_assoc, List.cons_append]
  have htokens := (List.append_inj' hsplit rfl).1
  have hmem : item ∈ ts.map .ok := htokens ▸ List.mem_append_right before List.mem_cons_self
  obtain ⟨t, ht, rfl⟩ := List.mem_map.mp hmem
  exact ⟨t, rfl, hkinds t ht⟩

theorem ended_lex (source : String) : Ended (lex source) := scan_shape .start source.toList

/-- What happens when items are pulled one after the other. -/
def pulls (items : List Lexed) : List Event := items.map fun item => .pulled (some item)

theorem pulls_append (xs ys : List Lexed) : pulls (xs ++ ys) = pulls xs ++ pulls ys :=
  List.map_append

/-- A reader of a stream stands at a draft: it has pulled the items up to the token ahead and done
nothing else, and what the draft reads from there is the result. -/
structure Reader.At (items : List Lexed) (result : Except SourceError Program) (d : ProgramDraft)
    (r : Reader) : Prop where
  place : ∃ before, items = before ++ .ok r.current :: r.rest ∧
    r.events = pulls (before ++ [.ok r.current])
  reads : Program.readFrom r.current.position d (.ok r.current :: r.rest) = result

theorem Reader.At.pulled {items : List Lexed} {result : Except SourceError Program}
    {d : ProgramDraft} {r : Reader} (h : r.At items result d) :
    ∃ front, front <+: items ∧ r.events = pulls front := by
  obtain ⟨before, hitems, hevents⟩ := h.place
  refine ⟨before ++ [.ok r.current], ⟨r.rest, ?_⟩, hevents⟩
  rw [hitems, List.append_assoc, List.singleton_append]

/-! ## Steps of drafts -/

/-- A draft refuses what it does not expect. -/
theorem step_eq_none {d : ProgramDraft} {expected : List Expectation}
    (hexpected : d.expected = expected) {t : Token} (ht : Expectation.ofKind t.kind ∉ expected) :
    d.step t = none := by
  rw [← hexpected, ← d.step_isSome_iff, Bool.not_eq_true, Option.isSome_eq_false_iff,
    Option.isNone_iff_eq_none] at ht
  exact ht

/-- A draft in a draft in a draft takes a token as a draft in a draft does. -/
theorem map_within_map_within {δ α ε β ζ γ : Type} (more : δ → ε) (done : α → ε) (more' : ε → ζ)
    (done' : β → ζ) (o : Option (Step δ α)) :
    (o.map (Step.within more done)).map (Step.within more' done' : Step ε β → Step ζ γ) =
      o.map (Step.within (fun d => more' (more d)) fun x => more' (done x)) := by
  rcases o with _ | _ | _ <;> rfl

/-! ## What procedures ensure -/

section Rules

variable {items : List Lexed} {result : Except SourceError Program} {α β σ : Type}

/-- A procedure does what it is to do, or fails with the result after pulling items from the front
of the stream. -/
def Ends (items : List Lexed) (result : Except SourceError Program) (post : α → Reader → Prop) :
    Reply α → Prop
  | .done x r => post x r
  | .failed e events => result = .error e ∧ ∃ front, front <+: items ∧ events = pulls front
  | .stalled _ => False

/-- A reader has come from `r` to the draft behind `x` and has taken at least `n` tokens. -/
def Took (items : List Lexed) (result : Except SourceError Program) (n : Nat) (r : Reader)
    (next : α → ProgramDraft) (x : α) (r' : Reader) : Prop :=
  r'.At items result (next x) ∧ r'.rest.length + n ≤ r.rest.length

theorem Ends.mono {post post' : α → Reader → Prop} {reply : Reply α}
    (h : Ends items result post reply) (himp : ∀ x r, post x r → post' x r) :
    Ends items result post' reply := by
  cases reply with
  | done x r => exact himp x r h
  | failed e events => exact h
  | stalled events => exact h

/-- Two procedures in a row. -/
theorem Ends.bind {p : Procedure α} {f : α → Procedure β} {mid : α → Reader → Prop}
    {post : β → Reader → Prop} {r : Reader} (hp : Ends items result mid (p r))
    (hf : ∀ x r', mid x r' → Ends items result post (f x r')) :
    Ends items result post ((p >>= f) r) := by
  show Ends items result post (match p r with
    | .done x r => f x r
    | .failed e events => .failed e events
    | .stalled events => .stalled events)
  cases hreply : p r with
  | done x r' =>
    rw [hreply] at hp
    exact hf x r' hp
  | failed e events =>
    rw [hreply] at hp
    exact hp
  | stalled events =>
    rw [hreply] at hp
    exact hp

/-- Two procedures in a row take at least what the first one takes. -/
theorem Ends.andThen {p : Procedure α} {f : α → Procedure β} {mid : α → ProgramDraft}
    {next : β → ProgramDraft} {r : Reader} {n m : Nat}
    (hp : Ends items result (Took items result n r mid) (p r))
    (hf : ∀ x r', r'.At items result (mid x) →
      Ends items result (Took items result m r' next) (f x r')) :
    Ends items result (Took items result n r next) ((p >>= f) r) := by
  refine hp.bind ?_
  rintro x r' ⟨hat, hlength⟩
  refine (hf x r' hat).mono ?_
  rintro y r'' ⟨hat', hlength'⟩
  exact ⟨hat', by omega⟩

theorem ends_pure {next : α → ProgramDraft} {x : α} {r : Reader}
    (h : r.At items result (next x)) :
    Ends items result (Took items result 0 r next) ((pure x : Procedure α) r) :=
  ⟨h, Nat.le_refl _⟩

/-- A token is refused that the draft refuses. -/
theorem ends_refuse {d : ProgramDraft} {r : Reader} (h : r.At items result d)
    {expected : List Expectation} (hexpected : d.expected = expected)
    (hstep : d.step r.current = none) {post : α → Reader → Prop} :
    Ends items result post ((refuse expected : Procedure α) r) := by
  refine ⟨?_, h.pulled⟩
  rw [← h.reads, Program.readFrom, hstep, Program.unexpected, hexpected]

/-- A token that the draft takes is passed. -/
theorem ends_bump (hended : Ended items) (next : Token → ProgramDraft) {d : ProgramDraft}
    {r : Reader} (h : r.At items result d)
    (hstep : d.step r.current = some (.more (next r.current))) :
    Ends items result (Took items result 1 r next) (bump r) := by
  obtain ⟨⟨before, hitems, hevents⟩, hreads⟩ := h
  have hkind : r.current.kind ≠ .eof := fun heof => ProgramDraft.step_eof_ne_more heof hstep
  have hread : Program.readFrom r.current.position (next r.current) r.rest = result := by
    rw [← hreads, Program.readFrom, hstep]
  have hall : items = (before ++ [.ok r.current]) ++ r.rest := by
    rw [hitems, List.append_assoc, List.singleton_append]
  rw [bump, if_neg hkind]
  cases hrest : r.rest with
  | nil => exact absurd hrest (hended.rest_ne_nil hitems hkind)
  | cons item rest =>
    rw [hrest] at hread hall
    have hfront : items = (before ++ [.ok r.current] ++ [item]) ++ rest := by
      rw [hall, List.append_assoc _ [item], List.singleton_append]
    have hpulled : r.events ++ [.pulled (some item)] =
        pulls (before ++ [.ok r.current] ++ [item]) := by
      rw [hevents, pulls_append _ [item]]
      rfl
    cases item with
    | error e => exact ⟨hread.symm, _, ⟨rest, hfront.symm⟩, hpulled⟩
    | ok t =>
      refine ⟨⟨⟨before ++ [.ok r.current], hall, hpulled⟩, hread⟩, ?_⟩
      show rest.length + 1 ≤ r.rest.length
      rw [hrest]
      exact Nat.le_refl _

/-- What a turn of a loop ensures: if there is to be another one, the invariant holds again and a
token has been taken. -/
def Turn.Ensures (inv : σ → Reader → Prop) (post : α → Reader → Prop) (r : Reader) :
    Turn σ α → Reader → Prop
  | .again s, r' => inv s r' ∧ r'.rest.length < r.rest.length
  | .leave x, r' => post x r'

/-- A loop whose turns keep an invariant and take tokens does not stall. -/
theorem ends_loop (inv : σ → Reader → Prop) {turn : σ → Procedure (Turn σ α)}
    {post : α → Reader → Prop}
    (hturn : ∀ s r, inv s r → Ends items result (Turn.Ensures inv post r) (turn s r))
    (s : σ) (r : Reader) (h : inv s r) : Ends items result post (loop turn s r) := by
  fun_induction loop turn s r with
  | case1 s r x next hreply =>
    have hends := hturn s r h
    rw [hreply] at hends
    exact hends
  | case2 s r s' next hreply hlength ih =>
    have hends := hturn s r h
    rw [hreply] at hends
    exact ih hends.1
  | case3 s r s' next hreply hlength =>
    have hends := hturn s r h
    rw [hreply] at hends
    exact hlength hends.2
  | case4 s r e events hreply =>
    have hends := hturn s r h
    rw [hreply] at hends
    exact hends
  | case5 s r events hreply =>
    have hends := hturn s r h
    rw [hreply] at hends
    exact hends

/-- Things that all begin with the same keyword: behind them that keyword does not follow, and if
there are none of them, the reader is where it was. -/
theorem ends_whileAt {k : Keyword} {item : Procedure α} (draft : List α → ProgramDraft)
    (hitem : ∀ xs r, r.At items result (draft xs) → r.current.kind = .keyword k →
      Ends items result (Took items result 1 r fun x => draft (xs ++ [x])) (item r))
    {r : Reader} (h : r.At items result (draft [])) :
    Ends items result (fun xs r' => r'.At items result (draft xs) ∧
      r'.current.kind ≠ .keyword k ∧ (xs = [] → r' = r)) (whileAt k item r) := by
  refine ends_loop (fun xs r' => r'.At items result (draft xs) ∧ (xs = [] → r' = r)) ?_ [] r
    ⟨h, fun _ => rfl⟩
  rintro xs r' ⟨hat, hsame⟩
  show Ends items result _ ((if r'.current.kind = .keyword k then _ else _ : Procedure _) r')
  by_cases hkind : r'.current.kind = .keyword k
  · rw [if_pos hkind]
    refine (hitem xs r' hat hkind).bind ?_
    rintro x r'' ⟨hat', htook⟩
    exact ⟨⟨hat', by simp⟩, by omega⟩
  · rw [if_neg hkind]
    exact ⟨hat, hkind, hsame⟩

/-- The draft behind a turn of a loop. -/
def Turn.draft (draft : σ → ProgramDraft) (next : α → ProgramDraft) : Turn σ α → ProgramDraft
  | again s => draft s
  | leave x => next x

/-- A loop all of whose turns take tokens. -/
theorem ends_loop_of_took {turn : σ → Procedure (Turn σ α)} (draft : σ → ProgramDraft)
    (next : α → ProgramDraft)
    (hturn : ∀ s r, r.At items result (draft s) →
      Ends items result (Took items result 1 r (Turn.draft draft next)) (turn s r))
    {s : σ} {r : Reader} (h : r.At items result (draft s)) :
    Ends items result (Took items result 0 r next) (loop turn s r) := by
  refine ends_loop (fun s r' => r'.At items result (draft s) ∧ r'.rest.length ≤ r.rest.length) ?_
    s r ⟨h, Nat.le_refl _⟩
  rintro s r' ⟨hat, hlength⟩
  refine (hturn s r' hat).mono ?_
  rintro (s' | x) r'' ⟨hat', htook⟩
  · exact ⟨⟨hat', by omega⟩, by omega⟩
  · exact ⟨hat', by omega⟩

end Rules

/-! ## Tokens -/

section Procedures

variable {items : List Lexed} {result : Except SourceError Program} (hended : Ended items)

include hended

theorem ends_expectKeyword {k : Keyword} (next : Position → ProgramDraft) {d : ProgramDraft}
    {r : Reader} (h : r.At items result d) (hkind : r.current.kind = .keyword k)
    (hstep : d.step r.current = some (.more (next r.current.position))) :
    Ends items result (Took items result 1 r next) (expectKeyword k r) := by
  show Ends items result _ ((if r.current.kind = .keyword k then _ else _ : Procedure Position) r)
  rw [if_pos hkind]
  exact (ends_bump hended (fun t => next t.position) h hstep).andThen fun _ _ h => ends_pure h

theorem ends_expectPunct {p : Punct} (next : ProgramDraft) {d : ProgramDraft} {r : Reader}
    (h : r.At items result d) (hexpected : d.expected = [.punct p])
    (hstep : ∀ place, d.step ⟨.punct p, place⟩ = some (.more next)) :
    Ends items result (Took items result 1 r fun _ => next) (expectPunct p r) := by
  obtain ⟨⟨kind, place⟩, rest, events⟩ := r
  show Ends items result _ ((if kind = .punct p then _ else _ : Procedure Unit) _)
  by_cases hkind : kind = .punct p
  · subst hkind
    rw [if_pos rfl]
    exact (ends_bump hended (fun _ => next) h (hstep place)).andThen fun _ _ h => ends_pure h
  · rw [if_neg hkind]
    refine ends_refuse h hexpected (step_eq_none hexpected ?_)
    cases kind <;> simp_all [Expectation.ofKind]

theorem ends_expectString (next : String → ProgramDraft) {d : ProgramDraft} {r : Reader}
    (h : r.At items result d) (hexpected : d.expected = [.string])
    (hstep : ∀ s place, d.step ⟨.str s, place⟩ = some (.more (next s))) :
    Ends items result (Took items result 1 r next) (expectString r) := by
  obtain ⟨⟨kind, place⟩, rest, events⟩ := r
  cases kind with
  | str s =>
    exact (ends_bump hended (fun _ => next s) h (hstep s place)).andThen fun _ _ h => ends_pure h
  | _ => exact ends_refuse h hexpected (step_eq_none hexpected (by simp [Expectation.ofKind]))

theorem ends_expectInteger (next : Int64 → ProgramDraft) {d : ProgramDraft} {r : Reader}
    (h : r.At items result d) (hexpected : d.expected = [.integer])
    (hstep : ∀ n place, d.step ⟨.int n, place⟩ = some (.more (next n))) :
    Ends items result (Took items result 1 r next) (expectInteger r) := by
  obtain ⟨⟨kind, place⟩, rest, events⟩ := r
  cases kind with
  | int n =>
    exact (ends_bump hended (fun _ => next n) h (hstep n place)).andThen fun _ _ h => ends_pure h
  | _ => exact ends_refuse h hexpected (step_eq_none hexpected (by simp [Expectation.ofKind]))

theorem ends_expectIdentifier (next : String → ProgramDraft) {d : ProgramDraft} {r : Reader}
    (h : r.At items result d) (hexpected : d.expected = [.identifier])
    (hstep : ∀ name place, d.step ⟨.ident name, place⟩ = some (.more (next name))) :
    Ends items result (Took items result 1 r next) (expectIdentifier r) := by
  obtain ⟨⟨kind, place⟩, rest, events⟩ := r
  cases kind with
  | ident name =>
    exact (ends_bump hended (fun _ => next name) h (hstep name place)).andThen
      fun _ _ h => ends_pure h
  | _ => exact ends_refuse h hexpected (step_eq_none hexpected (by simp [Expectation.ofKind]))

/-! ## Constructs -/

/-- A header inside another construct. -/
theorem ends_header (inside : HeaderDraft → ProgramDraft) (next : Header → ProgramDraft)
    (hexpected : ∀ h, (inside h).expected = h.expected)
    (hstep : ∀ h t, (inside h).step t = (h.step t.kind).map (.within inside next))
    {d : ProgramDraft} {r : Reader} (h : r.At items result d)
    (hkind : r.current.kind = .keyword .header)
    (hfirst : d.step r.current = some (.more (inside .key))) :
    Ends items result (Took items result 1 r next) (header r) :=
  (ends_expectKeyword hended (fun _ => inside .key) h hkind hfirst).andThen fun _ _ h =>
  (ends_expectString hended (fun key => inside (.value key)) h (hexpected _)
    fun _ _ => hstep _ _).andThen fun key _ h =>
  (ends_expectString hended (fun value => inside (.ending ⟨key, value⟩)) h (hexpected _)
    fun _ _ => hstep _ _).andThen fun value _ h =>
  (ends_expectPunct hended (next ⟨key, value⟩) h (hexpected _) fun _ => hstep _ _).andThen
    fun _ _ h => ends_pure h

/-- The draft behind a configuration block. -/
def afterConfig (is : List ConfigItem) : ProgramDraft :=
  .between { Program.empty with config := some is }

theorem ends_configTurn (is : List ConfigItem) (r : Reader)
    (h : r.At items result (.config (.items is))) :
    Ends items result (Took items result 1 r
      (Turn.draft (fun is => .config (.items is)) afterConfig)) (configTurn is r) := by
  obtain ⟨⟨kind, place⟩, rest, events⟩ := r
  cases kind with
  | keyword k =>
    cases k with
    | baseUrl =>
      exact (ends_bump hended (fun _ => .config (.baseUrl is)) h rfl).andThen fun _ _ h =>
        (ends_expectString hended (fun url => .config (.baseUrlEnding is url)) h rfl
          fun _ _ => rfl).andThen fun url _ h =>
        (ends_expectPunct hended (.config (.items (is ++ [ConfigItem.baseUrl url]))) h rfl
          fun _ => rfl).andThen fun _ _ h => ends_pure h
    | header =>
      exact (ends_header hended (fun h => .config (.header is h))
        (fun h => .config (.items (is ++ [ConfigItem.header h]))) (fun _ => rfl)
        (fun _ _ => map_within_map_within _ _ _ _ _) h rfl rfl).andThen fun _ _ h => ends_pure h
    | _ => exact ends_refuse h rfl rfl
  | punct p =>
    cases p with
    | closeBrace =>
      exact (ends_bump hended (fun _ => afterConfig is) h rfl).andThen fun _ _ h => ends_pure h
    | _ => exact ends_refuse h rfl rfl
  | _ => exact ends_refuse h rfl rfl

theorem ends_configBlock {r : Reader} (h : r.At items result .start)
    (hkind : r.current.kind = .keyword .config) :
    Ends items result (Took items result 1 r afterConfig) (configBlock r) := by
  have hfirst : ProgramDraft.start.step r.current = some (.more (.config .opening)) := by
    rw [ProgramDraft.start, ProgramDraft.step, hkind]
    rfl
  exact (ends_expectKeyword hended (fun _ => .config .opening) h hkind hfirst).andThen fun _ _ h =>
    (ends_expectPunct hended (.config (.items [])) h rfl fun _ => rfl).andThen fun _ _ h =>
    ends_loop_of_took (fun is => .config (.items is)) afterConfig (ends_configTurn hended) h

theorem ends_variableValue (p : Program) (name : String) {r : Reader}
    (h : r.At items result (.declaration p (.value name))) :
    Ends items result (Took items result 1 r
      fun value => .declaration p (.ending ⟨name, value⟩)) (variableValue r) := by
  obtain ⟨⟨kind, place⟩, rest, events⟩ := r
  cases kind with
  | str s =>
    have htext : Ends items result (Took items result 1 ⟨⟨.str s, place⟩, rest, events⟩
        fun s => .declaration p (.ending ⟨name, .str s⟩))
        (expectString ⟨⟨.str s, place⟩, rest, events⟩) :=
      (ends_bump hended (fun _ => .declaration p (.ending ⟨name, .str s⟩)) h rfl).andThen
        fun _ _ h => ends_pure h
    exact htext.andThen fun _ _ h => ends_pure h
  | int n =>
    have hnumber : Ends items result (Took items result 1 ⟨⟨.int n, place⟩, rest, events⟩
        fun n => .declaration p (.ending ⟨name, .int n⟩))
        (expectInteger ⟨⟨.int n, place⟩, rest, events⟩) :=
      (ends_bump hended (fun _ => .declaration p (.ending ⟨name, .int n⟩)) h rfl).andThen
        fun _ _ h => ends_pure h
    exact hnumber.andThen fun _ _ h => ends_pure h
  | _ => exact ends_refuse h rfl rfl

theorem ends_variableDeclaration (c : Option (List ConfigItem)) (vs : List Variable) {r : Reader}
    (h : r.At items result (.between ⟨c, vs, []⟩)) (hkind : r.current.kind = .keyword .var) :
    Ends items result (Took items result 1 r fun v => .between ⟨c, vs ++ [v], []⟩)
      (variableDeclaration r) := by
  have hfirst : (ProgramDraft.between ⟨c, vs, []⟩).step r.current =
      some (.more (.declaration ⟨c, vs, []⟩ .name)) := by
    rw [ProgramDraft.step, hkind]
    rfl
  exact (ends_expectKeyword hended (fun _ => .declaration ⟨c, vs, []⟩ .name) h hkind
      hfirst).andThen fun _ _ h =>
    (ends_expectIdentifier hended (fun name => .declaration ⟨c, vs, []⟩ (.equals name)) h rfl
      fun _ _ => rfl).andThen fun name _ h =>
    (ends_expectPunct hended (.declaration ⟨c, vs, []⟩ (.value name)) h rfl
      fun _ => rfl).andThen fun _ _ h =>
    (ends_variableValue hended ⟨c, vs, []⟩ name h).andThen fun value _ h =>
    (ends_expectPunct hended (.between ⟨c, vs ++ [⟨name, value⟩], []⟩) h rfl
      fun _ => rfl).andThen fun _ _ h => ends_pure h

theorem ends_requestTurn (p : Program) (t : TestBlock) (method : Method) (path : String)
    (is : List RequestItem) (r : Reader)
    (h : r.At items result (.test p (.request t (.items ⟨method, path, is⟩)))) :
    Ends items result (Took items result 1 r
      (Turn.draft (fun is => .test p (.request t (.items ⟨method, path, is⟩)))
        fun q => .test p (.statements (TestDraft.add t (.request q)))))
      (requestTurn method path is r) := by
  obtain ⟨⟨kind, place⟩, rest, events⟩ := r
  cases kind with
  | keyword k =>
    cases k with
    | header =>
      have hinside (d : HeaderDraft) (u : Token) :
          (ProgramDraft.test p (.request t (.header ⟨method, path, is⟩ d))).step u =
            (d.step u.kind).map
              (.within (fun d => .test p (.request t (.header ⟨method, path, is⟩ d))) fun x =>
                .test p (.request t (.items ⟨method, path, is ++ [RequestItem.header x]⟩))) := by
        show (((d.step u.kind).map _).map _).map _ = _
        rw [map_within_map_within, map_within_map_within]
        rfl
      exact (ends_header hended _ _ (fun _ => rfl) hinside h rfl rfl).andThen
        fun _ _ h => ends_pure h
    | body =>
      exact (ends_bump hended (fun _ => .test p (.request t (.body ⟨method, path, is⟩))) h
          rfl).andThen fun _ _ h =>
        (ends_expectString hended
          (fun text => .test p (.request t (.bodyEnding ⟨method, path, is⟩ text))) h rfl
          fun _ _ => rfl).andThen fun text _ h =>
        (ends_expectPunct hended
          (.test p (.request t (.items ⟨method, path, is ++ [RequestItem.body text]⟩))) h rfl
          fun _ => rfl).andThen fun _ _ h => ends_pure h
    | _ => exact ends_refuse h rfl rfl
  | punct q =>
    cases q with
    | closeBrace =>
      exact (ends_bump hended
        (fun _ => .test p (.statements (TestDraft.add t (.request ⟨method, path, is⟩)))) h
        rfl).andThen fun _ _ h => ends_pure h
    | _ => exact ends_refuse h rfl rfl
  | _ => exact ends_refuse h rfl rfl

theorem ends_request (p : Program) (t : TestBlock) (method : Method) {r : Reader}
    (h : r.At items result (.test p (.statements t)))
    (hfirst : (ProgramDraft.test p (.statements t)).step r.current =
      some (.more (.test p (.request t (.path method))))) :
    Ends items result (Took items result 1 r
      fun q => .test p (.statements (TestDraft.add t (.request q)))) (request method r) :=
  (ends_bump hended (fun _ => .test p (.request t (.path method))) h hfirst).andThen fun _ _ h =>
  (ends_expectString hended (fun path => .test p (.request t (.opening method path))) h rfl
    fun _ _ => rfl).andThen fun path _ h =>
  (ends_expectPunct hended (.test p (.request t (.items ⟨method, path, []⟩))) h rfl
    fun _ => rfl).andThen fun _ _ h =>
  ends_loop_of_took (fun is => .test p (.request t (.items ⟨method, path, is⟩)))
    (fun q => .test p (.statements (TestDraft.add t (.request q))))
    (ends_requestTurn hended p t method path) h

/-- The arguments of an assertion, and no keyword but those of the forms gets there. -/
theorem ends_assertionArguments (p : Program) (t : TestBlock) (form : AssertionForm) {r : Reader}
    (h : r.At items result (.test p (.assertion t (.argument form)))) :
    Ends items result (Took items result 1 r fun a => .test p (.assertion t (.closing a)))
      (assertionArguments form.keyword r) := by
  cases form with
  | status =>
    exact (ends_expectInteger hended (fun code => .test p (.assertion t
      (.closing (.statusEquals code)))) h rfl fun _ _ => rfl).andThen fun _ _ h => ends_pure h
  | statusRange =>
    exact (ends_expectInteger hended (fun start => .test p (.assertion t (.rangeComma start))) h
        rfl fun _ _ => rfl).andThen fun start _ h =>
      (ends_expectPunct hended (.test p (.assertion t (.rangeStop start))) h rfl
        fun _ => rfl).andThen fun _ _ h =>
      (ends_expectInteger hended (fun stop => .test p (.assertion t
        (.closing (.statusRange start stop)))) h rfl fun _ _ => rfl).andThen
        fun _ _ h => ends_pure h
  | header =>
    exact (ends_expectString hended (fun key => .test p (.assertion t (.headerComma .equals key))) h
        rfl fun _ _ => rfl).andThen fun key _ h =>
      (ends_expectPunct hended (.test p (.assertion t (.headerText .equals key))) h rfl
        fun _ => rfl).andThen fun _ _ h =>
      (ends_expectString hended (fun value => .test p (.assertion t
        (.closing (.headerEquals key value)))) h rfl fun _ _ => rfl).andThen
        fun _ _ h => ends_pure h
  | headerContains =>
    exact (ends_expectString hended (fun key => .test p (.assertion t (.headerComma .contains key)))
        h rfl fun _ _ => rfl).andThen fun key _ h =>
      (ends_expectPunct hended (.test p (.assertion t (.headerText .contains key))) h rfl
        fun _ => rfl).andThen fun _ _ h =>
      (ends_expectString hended (fun part => .test p (.assertion t
        (.closing (.headerContains key part)))) h rfl fun _ _ => rfl).andThen
        fun _ _ h => ends_pure h
  | bodyContains =>
    exact (ends_expectString hended (fun part => .test p (.assertion t
      (.closing (.bodyContains part)))) h rfl fun _ _ => rfl).andThen fun _ _ h => ends_pure h

theorem ends_assertion (p : Program) (t : TestBlock) (form : AssertionForm) {r : Reader}
    (h : r.At items result (.test p (.statements t)))
    (hkind : r.current.kind = .keyword form.keyword) :
    Ends items result
      (Took items result 1 r fun a => .test p (.statements (TestDraft.add t (.assertion a))))
      (assertion form.keyword r) := by
  have hfirst : (ProgramDraft.test p (.statements t)).step r.current =
      some (.more (.test p (.assertion t (.opening form)))) := by
    rw [ProgramDraft.step, hkind]
    cases form <;> rfl
  exact (ends_expectKeyword hended (fun _ => .test p (.assertion t (.opening form))) h hkind
      hfirst).andThen fun _ _ h =>
    (ends_expectPunct hended (.test p (.assertion t (.argument form))) h rfl
      fun _ => rfl).andThen fun _ _ h =>
    (ends_assertionArguments hended p t form h).andThen fun a _ h =>
    (ends_expectPunct hended (.test p (.assertion t (.ending a))) h rfl
      fun _ => rfl).andThen fun _ _ h =>
    (ends_expectPunct hended (.test p (.statements (TestDraft.add t (.assertion a)))) h rfl
      fun _ => rfl).andThen fun _ _ h => ends_pure h

/-- The draft inside a test. -/
def inTest (p : Program) (position : Position) (name : String) (ss : List Statement) :
    ProgramDraft :=
  .test p (.statements ⟨name, ss, position⟩)

/-- The draft behind a test. -/
def afterTest (p : Program) (t : TestBlock) : ProgramDraft :=
  .between { p with tests := p.tests ++ [t] }

theorem ends_testTurn (p : Program) (position : Position) (name : String) (ss : List Statement)
    (r : Reader) (h : r.At items result (inTest p position name ss)) :
    Ends items result (Took items result 1 r
      (Turn.draft (inTest p position name) (afterTest p))) (testTurn position name ss r) := by
  obtain ⟨⟨kind, place⟩, rest, events⟩ := r
  cases kind with
  | keyword k =>
    cases k with
    | get => exact (ends_request hended p _ .get h rfl).andThen fun _ _ h => ends_pure h
    | post => exact (ends_request hended p _ .post h rfl).andThen fun _ _ h => ends_pure h
    | put => exact (ends_request hended p _ .put h rfl).andThen fun _ _ h => ends_pure h
    | delete => exact (ends_request hended p _ .delete h rfl).andThen fun _ _ h => ends_pure h
    | assertStatus =>
      exact (ends_assertion hended p _ .status h rfl).andThen fun _ _ h => ends_pure h
    | assertStatusRange =>
      exact (ends_assertion hended p _ .statusRange h rfl).andThen fun _ _ h => ends_pure h
    | assertHeader =>
      exact (ends_assertion hended p _ .header h rfl).andThen fun _ _ h => ends_pure h
    | assertHeaderContains =>
      exact (ends_assertion hended p _ .headerContains h rfl).andThen fun _ _ h => ends_pure h
    | assertBodyContains =>
      exact (ends_assertion hended p _ .bodyContains h rfl).andThen fun _ _ h => ends_pure h
    | _ => exact ends_refuse h rfl rfl
  | punct q =>
    cases q with
    | closeBrace =>
      exact (ends_bump hended (fun _ => afterTest p ⟨name, ss, position⟩) h rfl).andThen
        fun _ _ h => ends_pure h
    | _ => exact ends_refuse h rfl rfl
  | _ => exact ends_refuse h rfl rfl

theorem ends_test (p : Program) {r : Reader} (h : r.At items result (.between p))
    (hkind : r.current.kind = .keyword .test) :
    Ends items result (Took items result 1 r (afterTest p)) (test r) := by
  have hfirst : (ProgramDraft.between p).step r.current =
      some (.more (.test p (.name r.current.position))) := by
    rw [ProgramDraft.step, hkind]
  exact (ends_expectKeyword hended (fun position => .test p (.name position)) h hkind
      hfirst).andThen fun position _ h =>
    (ends_expectIdentifier hended (fun name => .test p (.opening position name)) h rfl
      fun _ _ => rfl).andThen fun name _ h =>
    (ends_expectPunct hended (inTest p position name []) h rfl fun _ => rfl).andThen fun _ _ h =>
    ends_loop_of_took (inTest p position name) (afterTest p)
      (ends_testTurn hended p position name) h

theorem ends_config? {r : Reader} (h : r.At items result .start) :
    Ends items result (fun c r' => r'.At items result (.between ⟨c, [], []⟩) ∧
      (c = none → r'.current.kind ≠ .keyword .config)) (config? r) := by
  show Ends items result _ ((if r.current.kind = .keyword .config then _ else _ : Procedure _) r)
  by_cases hkind : r.current.kind = .keyword .config
  · rw [if_pos hkind]
    refine (ends_configBlock hended h hkind).bind ?_
    rintro is r' ⟨hat, -⟩
    exact ⟨hat, by simp⟩
  · rw [if_neg hkind]
    exact ⟨h, fun _ => hkind⟩

end Procedures

/-! ## Whole programs -/

section Programs

variable {items : List Lexed} {result : Except SourceError Program}

/-- A program has been read, and items have been pulled from the front of the stream. -/
def Finished (items : List Lexed) (result : Except SourceError Program) (p : Program) (r : Reader) :
    Prop :=
  result = .ok p ∧ ∃ front, front <+: items ∧ r.events = pulls front

/-- Behind a program only the end of the text is left, if nothing follows that could be read. -/
theorem ends_ending {p : Program} {r : Reader} (h : r.At items result (.between p))
    (hconfig : ProgramDraft.takesConfig p = true → r.current.kind ≠ .keyword .config)
    (hvar : ProgramDraft.takesVariable p = true → r.current.kind ≠ .keyword .var)
    (htest : r.current.kind ≠ .keyword .test) :
    Ends items result (Finished items result) (ending p r) := by
  show Ends items result _ ((if r.current.kind = .eof then _ else _ : Procedure _) r)
  by_cases hkind : r.current.kind = .eof
  · rw [if_pos hkind]
    refine ⟨?_, h.pulled⟩
    rw [← h.reads, Program.readFrom, ProgramDraft.step, hkind]
  · rw [if_neg hkind]
    refine ends_refuse h ?_ ?_
    · rw [ProgramDraft.expected, ProgramDraft.takesConfig, ProgramDraft.takesVariable]
      cases p.tests.isEmpty <;> simp
    · rw [ProgramDraft.step]
      split <;> simp_all

theorem ends_program (hended : Ended items) {r : Reader} (h : r.At items result .start) :
    Ends items result (Finished items result) (program r) := by
  refine (ends_config? hended h).bind ?_
  rintro c r₁ ⟨hat₁, hconfig⟩
  refine (ends_whileAt (fun vs => .between ⟨c, vs, []⟩)
    (fun vs _ => ends_variableDeclaration hended c vs) hat₁).bind ?_
  rintro vs r₂ ⟨hat₂, hvar, hsame₂⟩
  refine (ends_whileAt (fun ts => .between ⟨c, vs, ts⟩)
    (fun ts _ => ends_test hended ⟨c, vs, ts⟩) hat₂).bind ?_
  rintro ts r₃ ⟨hat₃, htest, hsame₃⟩
  -- What could come earlier in a program would have been read there.
  refine ends_ending hat₃ ?_ ?_ htest
  · intro htakes
    simp only [ProgramDraft.takesConfig, Bool.and_eq_true, Option.isNone_iff_eq_none,
      List.isEmpty_iff] at htakes
    rw [hsame₃ htakes.2, hsame₂ htakes.1.2]
    exact hconfig htakes.1.1
  · intro htakes
    rw [hsame₃ (List.isEmpty_iff.mp htakes)]
    exact hvar

/-- A stream is read as the drafts read it, and items are pulled from its front. -/
theorem ends_read (hended : Ended items) :
    Ends items (Program.ofTokens items) (Finished items (Program.ofTokens items)) (read items) := by
  cases items with
  | nil =>
    obtain ⟨ts, last, hnil, -⟩ := hended
    exact absurd hnil.symm (List.append_ne_nil_of_right_ne_nil _ (List.cons_ne_nil _ _))
  | cons item rest =>
    cases item with
    | error e => exact ⟨rfl, [.error e], ⟨rest, rfl⟩, rfl⟩
    | ok t => exact ends_program hended ⟨⟨[], rfl, rfl⟩, rfl⟩

end Programs

/-- A procedure that ends has come to the result. -/
theorem Ends.result_eq {items : List Lexed} {result : Except SourceError Program}
    {reply : Reply Program} (h : Ends items result (Finished items result) reply) :
    reply.result? = some result ∧ ∃ front, front <+: items ∧ reply.events = pulls front := by
  cases reply with
  | done p r => exact ⟨congrArg some h.1.symm, h.2⟩
  | failed e events => exact ⟨congrArg some h.1.symm, h.2⟩
  | stalled events => exact h.elim

/-- No kind of token is named as the error for an exhausted stream names what is missing. -/
theorem text_ne_moreInput (c : Expectation) : c.text ≠ "more input" := by
  have hall : ∀ text ∈ Expectation.all.map Expectation.text, text ≠ "more input" := by
    decide +kernel
  exact hall _ (List.mem_map_of_mem (Expectation.mem_all c))

/-- **Reading stays within the tokens.** Reading a text by descent comes to an end, with the program
or the error that the drafts give, so no turn of a loop leaves the tokens as they are. Items are
pulled from the front of the stream, each once and in their order, and nothing else happens. Nothing
is pulled behind the end of the text or behind an error. -/
theorem descent_stays_within_tokens (source : String) :
    (read (lex source)).result? = some (Program.parse source) ∧
    (∃ front rest, lex source = front ++ rest ∧ (read (lex source)).events = pulls front) ∧
    (∀ before item after, (read (lex source)).events = before ++ .pulled item :: after →
      after ≠ [] → ∃ t, item = some (.ok t) ∧ t.kind ≠ .eof) ∧
    .heldAtEnd ∉ (read (lex source)).events ∧
    (∀ k, .strayKeyword k ∉ (read (lex source)).events) ∧
    ∀ e, Program.parse source = .error (.unexpected e) → "more input" ∉ e.expected := by
  obtain ⟨hresult, front, ⟨rest, hrest⟩, hevents⟩ := (ends_read (ended_lex source)).result_eq
  refine ⟨hresult, ⟨front, rest, hrest.symm, hevents⟩, ?_, ?_, ?_, ?_⟩
  · intro before item after hsplit hafter
    rw [hevents] at hsplit
    obtain ⟨xs, ys, rfl, -, hys⟩ := List.map_eq_append_iff.mp hsplit
    obtain ⟨x, zs, rfl, hx, hzs⟩ := List.map_eq_cons_iff.mp hys
    cases hx
    have hitems : lex source = xs ++ x :: (zs ++ rest) := by
      rw [← hrest, List.append_assoc, List.cons_append]
    obtain ⟨t, rfl, ht⟩ := (ended_lex source).token_of_rest hitems (by
      rintro hnil
      obtain ⟨rfl, -⟩ := List.append_eq_nil_iff.mp hnil
      exact hafter hzs.symm)
    exact ⟨t, rfl, ht⟩
  · rw [hevents]
    simp [pulls]
  · rw [hevents]
    simp [pulls]
  · intro e he hmem
    obtain ⟨ts, t, _, d, -, -, -, rfl⟩ | ⟨ts, d, hlex, hrun⟩ := readFrom_unexpected he
    · obtain ⟨c, -, hc⟩ := List.mem_map.mp hmem
      exact text_ne_moreInput c hc
    · exact lex_ne_run source hrun hlex

/-- A block that is not opened: the end of the text is pulled, and it is the end that is refused. -/
theorem descent_stays_within_tokens_unopened :
    Program.parse "config" =
      .error (.unexpected ⟨⟨1, 7⟩, ["'\x7b'"], "end of input"⟩) ∧
    (read (lex "config")).events = [] ++ .pulled (some (.ok ⟨.keyword .config, ⟨1, 1⟩⟩)) ::
      [.pulled (some (.ok ⟨.eof, ⟨1, 7⟩⟩))] ∧
    (read (lex "config")).result? = some (Program.parse "config") ∧
    (∃ t, some (.ok ⟨.keyword .config, ⟨1, 1⟩⟩) = some (Except.ok t : Lexed) ∧ t.kind ≠ .eof) ∧
    "more input" ∉ ["'\x7b'"] := by
  have hparse : Program.parse "config" =
      .error (.unexpected ⟨⟨1, 7⟩, ["'\x7b'"], "end of input"⟩) := by
    decide +kernel
  have hlex : lex "config" = [.ok ⟨.keyword .config, ⟨1, 1⟩⟩, .ok ⟨.eof, ⟨1, 7⟩⟩] := by
    decide +kernel
  have hevents : (read (lex "config")).events =
      [] ++ .pulled (some (.ok ⟨.keyword .config, ⟨1, 1⟩⟩)) ::
        [.pulled (some (.ok ⟨.eof, ⟨1, 7⟩⟩))] := by
    rw [hlex]
    rfl
  obtain ⟨hresult, -, hlast, -, -, hmore⟩ := descent_stays_within_tokens "config"
  exact ⟨hparse, hevents, hresult, hlast _ _ _ hevents (List.cons_ne_nil _ _), hmore _ hparse⟩

end ApiScenario.Descent
