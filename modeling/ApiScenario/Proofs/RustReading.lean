import ApiScenario.Target.RustTests
import ApiScenario.Proofs.ExchangeReading

/-!
# Reading Rust tests back

The text of a file of Rust tests determines its plan, up to whether empty bodies were given
(`normal_eq_of_layout`). Each part of the code is read by a lemma of its own: what was written the
same, together with what follows, was written for the same, and what follows is the same.
-/

namespace ApiScenario.RustTests

open Directive

variable {d : Nat} {xs ys : List Directive}

/-! ## Requests -/

/-- The headers of a request are read up to the line that follows them. -/
theorem layout_ownHeaders {hs hs' : List Header}
    (h : layout d (hs.map ownHeader ++ line ["apply_default_headers(&mut headers);"] :: xs)
      = layout d (hs'.map ownHeader ++ line ["apply_default_headers(&mut headers);"] :: ys)) :
    hs = hs' ∧ layout d xs = layout d ys := by
  have hstop : ∀ (r : List Directive) (a : Header) (zs : List Directive),
      layout d (ownHeader a :: zs)
        ≠ layout d (line ["apply_default_headers(&mut headers);"] :: r) := by
    intro r a zs
    exact layout_line_ne (by decide) _ _ _ _ _
  obtain ⟨hhs, hrest⟩ := layout_map_inj (fun _ _ _ _ => layout_header_inj (by decide))
    (hstop xs) (hstop ys) h
  exact ⟨hhs, (layout_line_same _ _ _ _).mp hrest⟩

theorem url_inj {u u' : Url} {r s : List Char} (h : (url u).chars ++ r = (url u').chars ++ s) :
    u = u' ∧ r = s := by
  cases u with
  | absolute address =>
    cases u' with
    | absolute address' => simpa [url] using h
    | relative path => exact absurd h (chars_literal_ne (by decide) _ _ _ _ _)
  | relative path =>
    cases u' with
    | absolute address => exact absurd h.symm (chars_literal_ne (by decide) _ _ _ _ _)
    | relative path' => simpa [url] using h

theorem verb_inj (m m' : Method) : verb m = verb m' → m = m' := by
  cases m <;> cases m' <;> decide

/-- The line with the method and the address of a request is read. -/
theorem layout_verb {m m' : Method} {u u' : Url}
    (h : layout d (line (Line.ofWords [".", verb m, "("] ++ url u ++ Line.ofWords [")"]) :: xs)
      = layout d (line (Line.ofWords [".", verb m', "("] ++ url u' ++ Line.ofWords [")"]) :: ys)) :
    m = m' ∧ u = u' ∧ layout d xs = layout d ys := by
  have hparen : ∀ m, '(' ∉ (verb m).toList := by
    intro m
    cases m <;> decide
  have hline : ∀ m u, Line.ofWords [".", verb m, "("] ++ url u ++ Line.ofWords [")"]
      = .verbatim "." :: .verbatim (verb m) :: .verbatim "(" :: (url u ++ [.verbatim ")"]) := by
    intro m u
    rfl
  rw [hline, hline, layout_line_inj (by decide)] at h
  obtain ⟨hverb, h⟩ := chars_word_inj (hparen m) (hparen m') h
  rw [chars_append, chars_append, List.append_assoc, List.append_assoc] at h
  obtain ⟨hu, h⟩ := url_inj h
  exact ⟨verb_inj m m' hverb, hu, by simpa using h⟩

theorem body_normal (b : Body) : body b.normal = body b := by
  cases b <;> rfl

/-- The body of a request is read up to the line that follows it, but not whether it was given. -/
theorem layout_body {b b' : Body}
    (h : layout d (body b ++ line [".send()"] :: xs)
      = layout d (body b' ++ line [".send()"] :: ys)) :
    b.normal = b'.normal ∧ layout d xs = layout d ys := by
  rw [← body_normal b, ← body_normal b'] at h
  -- Where one request has a body and the other none, `.body(` stands where `.send()` does.
  rcases b.normal_cases with hb | ⟨t, hb⟩ <;> rcases b'.normal_cases with hb' | ⟨t', hb'⟩
  · rw [hb, hb'] at h ⊢
    exact ⟨rfl, by simpa [body] using h⟩
  · rw [hb, hb'] at h
    exact absurd h (layout_line_ne (by decide) _ _ _ _ _)
  · rw [hb, hb'] at h
    exact absurd h (layout_line_ne (by decide) _ _ _ _ _)
  · rw [hb, hb', body, body, List.singleton_append, List.singleton_append,
      layout_line_inj (by decide)] at h
    rw [hb, hb']
    simpa using h

/-- The lines of a request. -/
def callCode (c : Call) : List Directive :=
  line ["let mut headers = HeaderMap::new();"] ::
    (c.headers.map ownHeader ++ line ["apply_default_headers(&mut headers);"] ::
      block ["let resp = capture("] [");"] (send c))

theorem legible_call : Legible d (fun _ => True) Call.normal callCode := by
  intro c c' _ _ xs ys h
  obtain ⟨m, u, hs, b⟩ := c
  obtain ⟨m', u', hs', b'⟩ := c'
  simp only [callCode, List.cons_append, List.append_assoc, layout_line_same] at h
  obtain ⟨rfl, h⟩ := layout_ownHeaders h
  simp only [block, send, nested, List.cons_append, List.append_assoc, List.nil_append,
    layout_line_same, layout_indent] at h
  obtain ⟨rfl, rfl, h⟩ := layout_verb h
  simp only [layout_line_same] at h
  obtain ⟨hb, h⟩ := layout_body h
  simp only [layout_line_same, layout_dedent] at h
  exact ⟨by simp [Call.normal, hb], h⟩

/-! ## Checks -/

/-- Every check begins with a word. -/
theorem check_eq_cons (a : Assertion) : ∃ w l, w ≠ "" ∧ check a = .verbatim w :: l := by
  cases a <;> exact ⟨_, _, by decide, rfl⟩

/-- A check is read. -/
theorem layout_check {a a' : Assertion}
    (h : layout d (line (check a) :: xs) = layout d (line (check a') :: ys)) :
    a = a' ∧ layout d xs = layout d ys := by
  suffices ha : a = a' by
    rw [ha, layout_line_same] at h
    exact ⟨ha, h⟩
  -- Each kind of check has a first word of its own, and none begins with another.
  cases a with
  | statusEquals code =>
    cases a' with
    | statusEquals code' =>
      rw [check, check, layout_line_inj (by decide),
        chars_number_inj (by decide) (by decide)] at h
      rw [h.1]
    | statusRange | headerEquals | headerContains | bodyContains =>
      exact absurd h (layout_line_ne (by decide) _ _ _ _ _)
  | statusRange start stop =>
    cases a' with
    | statusRange start' stop' =>
      rw [check, check, layout_line_inj (by decide), chars_number_inj (by decide) (by decide),
        chars_number_inj (by decide) (by decide)] at h
      rw [h.1, h.2.1]
    | statusEquals | headerEquals | headerContains | bodyContains =>
      exact absurd h (layout_line_ne (by decide) _ _ _ _ _)
  | headerEquals key value =>
    cases a' with
    | headerEquals key' value' =>
      rw [check, check, layout_line_inj (by decide)] at h
      simp only [chars_literal_inj, chars_verbatim_same] at h
      rw [h.1, h.2.1]
    | statusEquals | statusRange | headerContains | bodyContains =>
      exact absurd h (layout_line_ne (by decide) _ _ _ _ _)
  | headerContains key substring =>
    cases a' with
    | headerContains key' substring' =>
      rw [check, check, layout_line_inj (by decide)] at h
      simp only [chars_literal_inj, chars_verbatim_same] at h
      rw [h.1, h.2.1]
    | statusEquals | statusRange | headerEquals | bodyContains =>
      exact absurd h (layout_line_ne (by decide) _ _ _ _ _)
  | bodyContains substring =>
    cases a' with
    | bodyContains substring' =>
      rw [check, check, layout_line_inj (by decide)] at h
      simp only [chars_literal_inj, chars_verbatim_same] at h
      rw [h.1]
    | statusEquals | statusRange | headerEquals | headerContains =>
      exact absurd h (layout_line_ne (by decide) _ _ _ _ _)

/-! ## Tests -/

/-- How exchanges are written. -/
def style (d : Nat) : ExchangeStyle d (fun _ => True) where
  call := callCode
  check := check
  legible_call := legible_call
  legible_check := fun _ _ _ _ _ _ => layout_check
  check_word := check_eq_cons

theorem exchange_eq (d : Nat) (e : Exchange) : exchange e = (style (d + 1)).exchange e := by
  simp [exchange, ExchangeStyle.exchange, style, callCode]

theorem legible_test : Legible d (fun t => Identifier.isIdentifier t.name.toList = true)
    PlannedTest.normal fun t => blank :: testFunction t := by
  intro t t' ht ht' xs ys h
  simp only [testFunction, block, List.cons_append, List.append_assoc, List.nil_append,
    layout_blank, List.cons.injEq, true_and, layout_line_same] at h
  rw [layout_line_inj (by decide)] at h
  obtain ⟨hname, h⟩ := chars_word_inj (notMem_identifier ht (by decide))
    (notMem_identifier ht' (by decide)) h
  simp only [chars_nil, List.nil_append, List.cons.injEq, true_and, layout_indent,
    layout_line_same, exchange_eq d] at h
  obtain ⟨hexchanges, hrest⟩ := (style (d + 1)).layout_exchanges (fun _ _ => trivial)
    (fun _ _ => trivial) h
  refine ⟨?_, hrest⟩
  rw [PlannedTest.normal, PlannedTest.normal, hname, hexchanges]

/-! ## Files -/

theorem layout_head {baseUrl baseUrl' : String} {hs hs' : List Header}
    (h : layout d (head baseUrl hs ++ xs) = layout d (head baseUrl' hs' ++ ys)) :
    baseUrl = baseUrl' ∧ hs = hs' ∧ layout d xs = layout d ys := by
  have hstop : ∀ (r : List Directive) (a : Header) (zs : List Directive),
      layout (d + 1 + 1 + 1) (defaultHeader a :: zs)
        ≠ layout (d + 1 + 1 + 1) (dedent :: line ["]"] :: r) := by
    intro r a zs
    exact layout_line_ne_dedent (by decide) (by decide) _ _ _ _ _
  have hpreamble : depthAfter d preamble = d := rfl
  have hsupport : depthAfter d support = d := rfl
  simp only [head, globals, setup, block, nested, List.cons_append, List.append_assoc,
    List.nil_append, layout_append_same hpreamble, layout_blank, List.cons.injEq, true_and] at h
  rw [layout_line_inj (by decide)] at h
  simp only [chars_literal_inj, chars_verbatim_same, chars_nil, List.nil_append, List.cons.injEq,
    true_and, layout_blank, layout_line_same, layout_indent] at h
  obtain ⟨rfl, h⟩ := h
  obtain ⟨hhs, hrest⟩ := layout_map_inj (fun _ _ _ _ => layout_header_inj (by decide)) (hstop _)
    (hstop _) h
  simp only [layout_dedent, layout_line_same, layout_indent, layout_blank, List.cons.injEq,
    true_and, layout_append_same hsupport] at hrest
  exact ⟨rfl, hhs, hrest⟩

theorem file_normal (p : Plan) : file p.normal = file p := by
  have he : ∀ e : Exchange, exchange e.normal = exchange e := by
    intro e
    simp only [exchange, send, Exchange.normal, Call.normal, body_normal]
  simp only [file, testFunction, Plan.normal, PlannedTest.normal, List.flatMap_map, he]

/-- The text of a file of Rust tests determines its plan. -/
theorem normal_eq_of_layout {p q : Plan} (hp : p.HasNames) (hq : q.HasNames)
    (h : layout 0 (file p) = layout 0 (file q)) : p.normal = q.normal := by
  obtain ⟨baseUrl, hs, ts⟩ := p
  obtain ⟨baseUrl', hs', ts'⟩ := q
  obtain ⟨rfl, rfl, h⟩ := layout_head h
  have hend : ∀ (t : PlannedTest) (zs : List Directive),
      layout 0 (blank :: testFunction t ++ zs) ≠ layout 0 [] := by
    intro t zs he
    cases he
  rw [← List.append_nil (List.flatMap _ ts), ← List.append_nil (List.flatMap _ ts')] at h
  obtain ⟨htests, -⟩ := legible_test.many hend hend hp hq h
  rw [Plan.normal, Plan.normal, htests]

end ApiScenario.RustTests
