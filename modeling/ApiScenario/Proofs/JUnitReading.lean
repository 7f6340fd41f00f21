import ApiScenario.Target.JUnitTests
import ApiScenario.Proofs.ExchangeReading

/-!
# Reading JUnit tests back

The text of a file of JUnit tests determines its plan, up to whether empty bodies were given
(`normal_eq_of_layout`). The code does not show the body of a request whose method carries none, so
this needs plans in which such a request has no body.
-/

namespace ApiScenario.JUnitTests

open Directive

variable {d : Nat} {xs ys : List Directive}

/-! ## Requests -/

/-- The headers of a request are read up to the line that follows them. -/
theorem layout_ownHeaders {hs hs' : List Header}
    (h : layout d (hs.map ownHeader ++ line (otherHeaders hs) :: xs)
      = layout d (hs'.map ownHeader ++ line (otherHeaders hs') :: ys)) :
    hs = hs' ∧ layout d xs = layout d ys := by
  have hstop : ∀ (hs : List Header) (r : List Directive) (a : Header) (zs : List Directive),
      layout d (ownHeader a :: zs) ≠ layout d (line (otherHeaders hs) :: r) := by
    intro hs r a zs
    exact layout_line_ne (by decide) _ _ _ _ _
  obtain ⟨hhs, hrest⟩ := layout_map_inj (fun _ _ _ _ => layout_header_inj (by decide))
    (hstop hs xs) (hstop hs' ys) h
  rw [hhs, layout_line_same] at hrest
  exact ⟨hhs, hrest⟩

theorem url_inj {u u' : Url} {r s : List Char} (h : (url u).chars ++ r = (url u').chars ++ s) :
    u = u' ∧ r = s := by
  cases u with
  | absolute address =>
    cases u' with
    | absolute address' => simpa [url] using h
    | relative path => exact absurd h (chars_literal_ne (by decide) _ _ _ _ _)
  | relative path =>
    cases u' with
    | absolute address => exact absurd h.symm (chars_literal_ne (by decide) _ _ _ _ _)
    | relative path' => simpa [url] using h

/-- The line with the address of a request is read. -/
theorem layout_url {u u' : Url}
    (h : layout d (line (Line.ofWords ["b = HttpRequest.newBuilder(URI.create("] ++ url u ++
        Line.ofWords ["))"]) :: xs)
      = layout d (line (Line.ofWords ["b = HttpRequest.newBuilder(URI.create("] ++ url u' ++
        Line.ofWords ["))"]) :: ys)) :
    u = u' ∧ layout d xs = layout d ys := by
  have hline : ∀ u, Line.ofWords ["b = HttpRequest.newBuilder(URI.create("] ++ url u ++
      Line.ofWords ["))"]
        = .verbatim "b = HttpRequest.newBuilder(URI.create(" :: (url u ++ [.verbatim "))"]) := by
    intro u
    rfl
  rw [hline, hline, layout_line_inj (by decide), chars_append, chars_append, List.append_assoc,
    List.append_assoc] at h
  obtain ⟨hu, h⟩ := url_inj h
  exact ⟨hu, by simpa using h⟩

/-- What is given to the client's method. -/
def arguments (b : Body) : Method → Line
  | .get => [");"]
  | .delete => [");"]
  | .post => ["HttpRequest.BodyPublishers.ofString(", .literal (content b), "));"]
  | .put => ["HttpRequest.BodyPublishers.ofString(", .literal (content b), "));"]

/-- The line of a method is the call of the client's method of that name. -/
theorem layout_method_eq (b : Body) (m : Method) (xs : List Directive) :
    layout d (line (method b m) :: xs)
      = layout d (line (.verbatim ".timeout(Duration.ofSeconds(10))." ::
          .verbatim m.keyword.word :: .verbatim "(" :: arguments b m) :: xs) := by
  apply layout_line_congr
  cases m with
  | get | delete | post | put =>
    simp only [method, withBody, arguments, Method.keyword, Keyword.word, chars_cons, chars_nil,
      Fragment.chars]
    repeat rw [String.toList_ofList]
    rfl

theorem arguments_inj {b b' : Body} {m : Method} (hb : b = .none ↔ m.sendsBody = false)
    (hb' : b' = .none ↔ m.sendsBody = false) {r s : List Char}
    (h : (arguments b m).chars ++ r = (arguments b' m).chars ++ s) :
    b.normal = b'.normal ∧ r = s := by
  have htext : ∀ b : Body, b ≠ .none → b.normal = .text (content b) := by
    intro b hb
    cases b with
    | none => exact absurd rfl hb
    | empty | text => rfl
  cases m with
  | get | delete =>
    rw [hb.mpr rfl, hb'.mpr rfl]
    exact ⟨rfl, by simpa [arguments] using h⟩
  | post | put =>
    rw [htext b (fun he => absurd (hb.mp he) (by decide)),
      htext b' (fun he => absurd (hb'.mp he) (by decide))]
    simpa [arguments] using h

/-- The line with the method and the body of a request is read. -/
theorem layout_method {b b' : Body} {m m' : Method} (hb : b = .none ↔ m.sendsBody = false)
    (hb' : b' = .none ↔ m'.sendsBody = false)
    (h : layout d (line (method b m) :: xs) = layout d (line (method b' m') :: ys)) :
    m = m' ∧ b.normal = b'.normal ∧ layout d xs = layout d ys := by
  have hparen : ∀ m : Method, '(' ∉ m.keyword.word.toList := by
    intro m
    cases m <;> decide
  have hkeyword : ∀ m m' : Method, m.keyword.word = m'.keyword.word → m = m' := by
    intro m m'
    cases m <;> cases m' <;> decide
  rw [layout_method_eq, layout_method_eq, layout_line_inj (by decide)] at h
  obtain ⟨hname, h⟩ := chars_word_inj (hparen m) (hparen m') h
  obtain rfl := hkeyword m m' hname
  obtain ⟨hbody, h⟩ := arguments_inj hb hb' h
  exact ⟨rfl, hbody, by simpa using h⟩

/-- The lines of a request. -/
def callCode (c : Call) : List Directive :=
  line (Line.ofWords ["b = HttpRequest.newBuilder(URI.create("] ++ url c.url ++
      Line.ofWords ["))"]) ::
    indent :: line (method c.body c.method) :: dedent :: (c.headers.map ownHeader ++
      [line (otherHeaders c.headers),
        line ["resp = client.send(b.build(), ",
          "HttpResponse.BodyHandlers.ofString(StandardCharsets.UTF_8));"]])

theorem legible_call : Legible d Call.CarriesBody Call.normal callCode := by
  intro c c' hc hc' xs ys h
  simp only [callCode, List.cons_append, List.append_assoc] at h
  obtain ⟨hu, hmethod⟩ := layout_url h
  simp only [layout_indent] at hmethod
  obtain ⟨hm, hb, hheaders⟩ := layout_method hc hc' hmethod
  simp only [layout_dedent] at hheaders
  obtain ⟨hhs, hrest⟩ := layout_ownHeaders hheaders
  refine ⟨?_, by simpa using hrest⟩
  rw [Call.normal, Call.normal, hm, hu, hhs, hb]

/-! ## Checks -/

/-- An integer is read if words follow that do not go on with digits or the letter. -/
theorem integer_inj {c : Char} (h₁ : c ≠ '-') (h₂ : c.isDigit = false) (h₃ : c ≠ 'L')
    {cs cs' : List Char} {n m : Int64} {l l' : Line} {r s : List Char}
    (h : Line.chars (integer n ++ .verbatim (String.ofList (c :: cs)) :: l) ++ r
      = Line.chars (integer m ++ .verbatim (String.ofList (c :: cs')) :: l') ++ s) :
    n = m ∧ cs ++ (l.chars ++ r) = cs' ++ (l'.chars ++ s) := by
  have hmem : ∀ n, c ∉ (integer n).chars := by
    intro n
    unfold integer
    split
    · simpa [chars_cons, Fragment.chars] using Decimal.notMem_chars h₁ h₂ n
    · simpa [chars_cons, Fragment.chars, h₃] using Decimal.notMem_chars h₁ h₂ n
  -- Without the letter, which no numeral holds, the numeral is left.
  have hdrop : ∀ n, (integer n).chars.filter (· != 'L') = Decimal.chars n := by
    intro n
    have hdigits : (Decimal.chars n).filter (· != 'L') = Decimal.chars n := by
      rw [List.filter_eq_self]
      intro x hx
      exact bne_iff_ne.mpr fun he => Decimal.notMem_chars (by decide) (by decide) n (he ▸ hx)
    unfold integer
    split
    · simpa [chars_cons, Fragment.chars] using hdigits
    · simpa [chars_cons, Fragment.chars] using hdigits
  simp only [chars_append, chars_cons, Fragment.chars, String.toList_ofList, List.append_assoc,
    List.cons_append] at h
  obtain ⟨hn, hrest⟩ := append_cons_inj (hmem n) (hmem m) h
  refine ⟨Decimal.chars_inj.mp ?_, hrest⟩
  rw [← hdrop n, ← hdrop m, hn]

/-- An integer is told apart from a literal. -/
theorem integer_ne_literal (n : Int64) (t : String) (l : Line) (r s : List Char) :
    (integer n).chars ++ r ≠ Line.chars (.literal t :: l) ++ s := by
  intro h
  have hquote : '"' ∉ Decimal.chars n := Decimal.notMem_chars (by decide) (by decide) n
  have hinteger : ∃ cs, (integer n).chars = Decimal.chars n ++ cs := by
    unfold integer
    split
    · exact ⟨[], rfl⟩
    · exact ⟨_, rfl⟩
  obtain ⟨cs, hcs⟩ := hinteger
  rw [hcs, List.append_assoc] at h
  cases hn : Decimal.chars n with
  | nil => exact Decimal.chars_ne_nil n hn
  | cons x xs =>
    rw [hn] at h hquote
    exact hquote (List.mem_cons.mpr (.inl (List.cons.inj h).1.symm))

/-- The check of a status, with what follows its integer. -/
theorem check_statusEquals (n : Int64) : ∃ cs, check (.statusEquals n)
    = .verbatim "assertEquals(" :: (integer n ++ [.verbatim (String.ofList (',' :: cs))]) := by
  rw [check]
  split
  · exact ⟨_, rfl⟩
  · exact ⟨_, rfl⟩

theorem check_statusRange (start stop : Int64) : check (.statusRange start stop)
    = .verbatim "assertTrue(resp.statusCode() >= " :: (integer start ++
        .verbatim " && resp.statusCode() <= " :: (integer stop ++ .verbatim ", " ::
          [.literal ("Status code should be in range [" ++ Decimal.text start ++ ".." ++
            Decimal.text stop ++ "]"), .verbatim ");"])) := by
  simp [check, rangeMessage, Line.ofWords]

/-- The word that a check begins with. -/
def opening : Assertion → String
  | .statusEquals _ => "assertEquals("
  | .statusRange _ _ => "assertTrue(resp.statusCode() >= "
  | .headerEquals _ _ => "assertEquals("
  | .headerContains _ _ => "assertTrue(resp.headers().firstValue("
  | .bodyContains _ => "assertTrue(resp.body().contains("

theorem check_opening (a : Assertion) : ∃ l, check a = .verbatim (opening a) :: l := by
  cases a with
  | statusEquals code =>
    obtain ⟨cs, h⟩ := check_statusEquals code
    exact ⟨_, h⟩
  | statusRange start stop => exact ⟨_, check_statusRange start stop⟩
  | headerEquals | headerContains | bodyContains => exact ⟨_, rfl⟩

theorem check_eq_cons (a : Assertion) : ∃ w l, w ≠ "" ∧ check a = .verbatim w :: l := by
  obtain ⟨l, hl⟩ := check_opening a
  refine ⟨opening a, l, ?_, hl⟩
  cases a <;> simp [opening]

/-- Of two words that checks begin with, neither begins with the other. -/
theorem opening_eq_of_layout {a a' : Assertion}
    (h : layout d (line (check a) :: xs) = layout d (line (check a') :: ys)) :
    opening a = opening a' := by
  obtain ⟨l, hl⟩ := check_opening a
  obtain ⟨l', hl'⟩ := check_opening a'
  rw [hl, hl'] at h
  cases a <;> cases a' <;> first | rfl | exact absurd h (layout_line_ne (by decide) _ _ _ _ _)

theorem layout_statusEquals {n n' : Int64}
    (h : layout d (line (check (.statusEquals n)) :: xs)
      = layout d (line (check (.statusEquals n')) :: ys)) : n = n' := by
  obtain ⟨cs, hcs⟩ := check_statusEquals n
  obtain ⟨cs', hcs'⟩ := check_statusEquals n'
  rw [hcs, hcs', layout_line_inj (by decide)] at h
  exact (integer_inj (by decide) (by decide) (by decide) h).1

theorem layout_statusRange {start stop start' stop' : Int64}
    (h : layout d (line (check (.statusRange start stop)) :: xs)
      = layout d (line (check (.statusRange start' stop')) :: ys)) :
    start = start' ∧ stop = stop' := by
  rw [check_statusRange, check_statusRange, layout_line_inj (by decide)] at h
  obtain ⟨hstart, h⟩ := integer_inj (by decide) (by decide) (by decide) h
  obtain ⟨hstop, -⟩ := integer_inj (by decide) (by decide) (by decide) (List.append_cancel_left h)
  exact ⟨hstart, hstop⟩

theorem layout_statusEquals_ne {n : Int64} {key value : String} :
    layout d (line (check (.statusEquals n)) :: xs)
      ≠ layout d (line (check (.headerEquals key value)) :: ys) := by
  intro h
  obtain ⟨cs, hcs⟩ := check_statusEquals n
  rw [hcs, check, layout_line_inj (by decide), chars_append, List.append_assoc] at h
  exact integer_ne_literal _ _ _ _ _ h

/-- A check is read. -/
theorem layout_check {a a' : Assertion}
    (h : layout d (line (check a) :: xs) = layout d (line (check a') :: ys)) :
    a = a' ∧ layout d xs = layout d ys := by
  suffices ha : a = a' by
    rw [ha, layout_line_same] at h
    exact ⟨ha, h⟩
  have hopening := opening_eq_of_layout h
  cases a with
  | statusEquals code =>
    cases a' with
    | statusEquals code' => rw [layout_statusEquals h]
    | headerEquals key value => exact absurd h layout_statusEquals_ne
    | statusRange | headerContains | bodyContains => exact absurd hopening (by simp [opening])
  | statusRange start stop =>
    cases a' with
    | statusRange start' stop' =>
      obtain ⟨rfl, rfl⟩ := layout_statusRange h
      rfl
    | statusEquals | headerEquals | headerContains | bodyContains =>
      exact absurd hopening (by simp [opening])
  | headerEquals key value =>
    cases a' with
    | headerEquals key' value' =>
      rw [check, check, layout_line_inj (by decide)] at h
      simp only [chars_literal_inj, chars_verbatim_same] at h
      rw [h.1, h.2.1]
    | statusEquals code => exact absurd h.symm layout_statusEquals_ne
    | statusRange | headerContains | bodyContains => exact absurd hopening (by simp [opening])
  | headerContains key substring =>
    cases a' with
    | headerContains key' substring' =>
      rw [check, check, layout_line_inj (by decide)] at h
      simp only [chars_literal_inj, chars_verbatim_same, true_and] at h
      rw [h.1, h.2.1]
    | statusEquals | statusRange | headerEquals | bodyContains =>
      exact absurd hopening (by simp [opening])
  | bodyContains substring =>
    cases a' with
    | bodyContains substring' =>
      rw [check, check, layout_line_inj (by decide)] at h
      simp only [chars_literal_inj, chars_verbatim_same] at h
      rw [h.1]
    | statusEquals | statusRange | headerEquals | headerContains =>
      exact absurd hopening (by simp [opening])

/-! ## Tests -/

/-- How exchanges are written. -/
def style (d : Nat) : ExchangeStyle d Call.CarriesBody where
  call := callCode
  check := check
  legible_call := legible_call
  legible_check := fun _ _ _ _ _ _ => layout_check
  check_word := check_eq_cons

theorem exchange_eq (d : Nat) (e : Exchange) : exchange e = (style (d + 1)).exchange e := by
  simp [exchange, ExchangeStyle.exchange, style, callCode, nested]

theorem legible_test : Legible (d + 1)
    (fun t => Identifier.isIdentifier t.name.toList = true ∧ ∀ e ∈ t.exchanges, e.call.CarriesBody)
    PlannedTest.normal fun t => blank :: testMethod t := by
  intro t t' ht ht' xs ys h
  simp only [testMethod, block, lines, List.map_cons, List.map_nil, List.cons_append,
    List.append_assoc, List.nil_append, layout_blank, List.cons.injEq, true_and,
    layout_line_same] at h
  rw [layout_line_inj (by decide)] at h
  obtain ⟨hname, h⟩ := chars_word_inj (notMem_identifier ht.1 (by decide))
    (notMem_identifier ht'.1 (by decide)) h
  simp only [chars_nil, List.nil_append, List.cons.injEq, true_and, layout_indent,
    layout_line_same, exchange_eq (d + 1)] at h
  obtain ⟨hexchanges, hrest⟩ := (style (d + 1 + 1)).layout_exchanges ht.2 ht'.2 h
  refine ⟨?_, hrest⟩
  rw [PlannedTest.normal, PlannedTest.normal, hname, hexchanges]

/-! ## Files -/

theorem layout_fixture {baseUrl baseUrl' : String} {hs hs' : List Header}
    (h : layout d (fixture baseUrl hs ++ xs) = layout d (fixture baseUrl' hs' ++ ys)) :
    baseUrl = baseUrl' ∧ hs = hs' ∧ layout d xs = layout d ys := by
  have hstop : ∀ (r : List Directive) (a : Header) (zs : List Directive),
      layout (d + 1) (defaultHeader a :: zs) ≠ layout (d + 1) (dedent :: line ["\x7d"] :: r) := by
    intro r a zs
    exact layout_line_ne_dedent (by decide) (by decide) _ _ _ _ _
  have happly : depthAfter d applyDefaultHeaders = d := rfl
  simp only [fixture, setup, block, nested, lines, List.map_cons, List.map_nil, List.cons_append,
    List.append_assoc, List.nil_append] at h
  rw [layout_line_inj (by decide)] at h
  simp only [chars_literal_inj, chars_verbatim_same, chars_nil, List.nil_append, List.cons.injEq,
    true_and, layout_blank, layout_line_same, layout_indent, layout_dedent] at h
  obtain ⟨hurl, h⟩ := h
  obtain ⟨hhs, hrest⟩ := layout_map_inj (fun _ _ _ _ => layout_header_inj (by decide)) (hstop _)
    (hstop _) h
  simp only [layout_dedent, layout_line_same, layout_blank, List.cons.injEq, true_and,
    layout_append_same happly] at hrest
  exact ⟨hurl, hhs, hrest⟩

theorem file_normal (className : String) (p : Plan) :
    file className p.normal = file className p := by
  have hm : ∀ b m, method (Body.normal b) m = method b m := by
    intro b m
    cases m <;> cases b <;> rfl
  have he : ∀ e : Exchange, exchange e.normal = exchange e := by
    intro e
    simp only [exchange, Exchange.normal, Call.normal, hm]
  simp only [file, testMethod, Plan.normal, PlannedTest.normal, List.flatMap_map, he]

/-- The text of a file of JUnit tests determines its plan. -/
theorem normal_eq_of_layout {className : String} {p q : Plan} (hp : p.IsLowered)
    (hq : q.IsLowered) (h : layout 0 (file className p) = layout 0 (file className q)) :
    p.normal = q.normal := by
  obtain ⟨baseUrl, hs, ts⟩ := p
  obtain ⟨baseUrl', hs', ts'⟩ := q
  have hpreamble : depthAfter 0 preamble = 0 := rfl
  simp only [file, block, List.append_assoc, layout_append_same hpreamble, layout_line_same,
    layout_indent] at h
  obtain ⟨hurl, hhs, h⟩ := layout_fixture h
  have hend : ∀ (t : PlannedTest) (zs : List Directive),
      layout (0 + 1) (blank :: testMethod t ++ zs)
        ≠ layout (0 + 1) [dedent, line ["\x7d"]] := by
    intro t zs
    exact layout_blank_ne_dedent (by decide) _ _ _ _
  obtain ⟨htests, -⟩ := legible_test.many hend hend (fun t ht => ⟨hp.names t ht, hp.bodies t ht⟩)
    (fun t ht => ⟨hq.names t ht, hq.bodies t ht⟩) h
  rw [Plan.normal, Plan.normal, hurl, hhs, htests]

end ApiScenario.JUnitTests
