import Mathlib.Data.List.Forall2
import ApiScenario.Proofs.CodeLines

/-!
# Procedures of a file

A `ProcedureStyle` says by which lines the procedures of a file are told: the line before each of
them, the line that opens it, the line that sends a request, and what lines begin with that declare
a name. With it the lines of any text can be cut at the marking lines, and the names that it
declares can be listed.

What matters about lines between markers is how many of them send a request and which names they
declare (`Unmarked`), and both add up when code is put together (`Code`). Of fixed lines it is
decided by their letters (`Code.spelled`). `Rows` are the lines of a
whole file: a head, one procedure for each test, and an end. Cut at their markers they give the
procedures (`Rows.forall₂_isProcedure`), and the names that they declare are those of the head and
those of the procedures (`Rows.declared_lines`).
-/

namespace ApiScenario

open Directive

/-! ## Declared names -/

theorem isNext_of_mem {cs : List Char} (h : Identifier.isIdentifier cs = true) {c : Char}
    (hc : c ∈ cs) : Identifier.isNext c = true := by
  by_contra hnext
  rw [Bool.not_eq_true] at hnext
  have hfirst : Identifier.isFirst c = false := by
    simp only [Identifier.isNext, Char.isAlphanum, Bool.or_eq_false_iff] at hnext
    rw [Identifier.isFirst, hnext.1.1, hnext.2]
    rfl
  exact notMem_identifier h (by rw [hfirst, hnext]; rfl) hc

/-- The name that a line declares by beginning with a text, if it begins with it. -/
def nameBehind (l text : String) : List String :=
  bif begins text l then
    [String.ofList (((unindented l).drop (unindented text).length).takeWhile Identifier.isNext)]
  else []

theorem nameBehind_eq_nil {l text : String} (h : begins text l = false) :
    nameBehind l text = [] := by
  rw [nameBehind, h, cond_false]

/-- A declared name goes up to what cannot be part of it. -/
theorem nameBehind_eq_singleton {l text : String} {name : List Char} {c : Char} {rest : List Char}
    (hl : unindented l = unindented text ++ (name ++ c :: rest))
    (hname : ∀ x ∈ name, Identifier.isNext x = true) (hc : Identifier.isNext c = false) :
    nameBehind l text = [String.ofList name] := by
  have hbegins : begins text l = true := by
    rw [begins, hl, List.isPrefixOf_iff_prefix]
    exact List.prefix_append _ _
  rw [nameBehind, hbegins, cond_true, hl, List.drop_left, List.takeWhile_append_of_pos hname,
    List.takeWhile_cons_of_neg (by simp [hc]), List.append_nil]

/-- Whether the first word of a line tells what the line declares by beginning with a text. -/
def settles (w text : List Char) : Bool :=
  clash (bare w) (bare text) || ((bare text).isPrefixOf (bare w) &&
    !((bare w).drop (bare text).length).all Identifier.isNext)

/-- The name that a word declares by beginning with a text, if it begins with it. -/
def wordBehind (w text : List Char) : List (List Char) :=
  bif (bare text).isPrefixOf (bare w) then
    [((bare w).drop (bare text).length).takeWhile Identifier.isNext]
  else []

theorem nameBehind_of_settles {w text : List Char} (h : settles w text = true) {l : String}
    {rest : List Char} (hl : unindented l = bare w ++ rest) :
    nameBehind l (String.ofList text) = (wordBehind w text).map String.ofList := by
  rcases Bool.or_eq_true_iff.mp h with hclash | hfits
  · have hword : (bare text).isPrefixOf (bare w) = false := by
      rw [clash, Bool.and_eq_true, Bool.not_eq_true', Bool.not_eq_true'] at hclash
      exact hclash.2
    rw [← unindented_ofList text] at hclash
    rw [nameBehind_eq_nil (begins_of_clash hl hclash), wordBehind, hword]
    rfl
  · rw [Bool.and_eq_true, Bool.not_eq_true', List.isPrefixOf_iff_prefix] at hfits
    obtain ⟨hfront, hends⟩ := hfits
    have htake : ((bare w).drop (bare text).length ++ rest).takeWhile Identifier.isNext
        = ((bare w).drop (bare text).length).takeWhile Identifier.isNext := by
      rw [List.takeWhile_append, if_neg]
      intro hall
      rw [← (List.takeWhile_prefix _).eq_of_length hall, List.all_takeWhile] at hends
      cases hends
    rw [nameBehind, wordBehind, begins, hl, unindented_ofList,
      List.isPrefixOf_iff_prefix.mpr hfront,
      List.isPrefixOf_iff_prefix.mpr (hfront.trans (List.prefix_append _ _)),
      List.drop_append_of_le_length hfront.length_le, htake]
    rfl

/-- Whether the words of a line tell what it declares by beginning with some texts. -/
def areSettled (letters : List (List Char)) : List (List Char) → Bool
  | [] => letters.all fun text => !(bare text).isEmpty
  | w :: _ => !(bare w).isEmpty && letters.all (settles w)

/-- The names that the words of a line declare by beginning with some texts. -/
def namesBehind (letters : List (List Char)) : List (List Char) → List (List Char)
  | [] => []
  | w :: _ => letters.flatMap (wordBehind w)

/-! ## Styles -/

/-- The lines by which procedures are told. -/
structure ProcedureStyle where
  /-- The line before each procedure. -/
  marker : String
  /-- The line that opens the procedure of a test with a given name. -/
  opening : String → String
  /-- The line that sends a request. -/
  send : String
  /-- What lines begin with that declare a name. -/
  introducers : List String

namespace ProcedureStyle

variable (s : ProcedureStyle)

/-- The name of the procedure of a test. -/
def procedureName (test : String) : String := "test_" ++ test

/-- The names that a line declares. -/
def declared (l : String) : List String := s.introducers.flatMap (nameBehind l)

/-- The lines of the procedure of a test up to the next marker: the first one opens it, and as many
of the others as there are requests send one. -/
def IsProcedure (test : String) (requests : Nat) (part : List String) : Prop :=
  ∃ rest, part = s.opening test :: rest ∧ rest.count s.send = requests

/-- All that is looked for at the beginning of lines. -/
def texts : List String := s.marker :: s.send :: s.introducers

theorem texts_eq {marker send : List Char} {letters : List (List Char)}
    (h : Letters s.texts (marker :: send :: letters)) :
    s.marker = String.ofList marker ∧ s.send = String.ofList send ∧
      s.introducers = letters.map String.ofList := by
  simpa [texts] using h.eq_map

theorem letters_landmarks {marker send : List Char} {letters : List (List Char)}
    (h : Letters s.texts (marker :: send :: letters)) :
    Letters [s.marker, s.send] [marker, send] := by
  obtain ⟨hmarker, hsend, -⟩ := s.texts_eq h
  rw [hmarker, hsend]
  exact .cons (.cons .nil)

/-- Lines without a marker, by how many of them send a request and which names they declare. -/
structure Unmarked (sends : Nat) (names ls : List String) : Prop where
  marker_notMem : s.marker ∉ ls
  count_send : ls.count s.send = sends
  declared_eq : ls.flatMap s.declared = names

variable {s}

theorem declared_eq_nil {l : String} (h : ∀ text ∈ s.introducers, begins text l = false) :
    s.declared l = [] := by
  rw [declared, List.flatMap_eq_nil_iff]
  exact fun text ht => nameBehind_eq_nil (h text ht)

/-- What a line declares is told by its words. -/
theorem declared_of_isBegunBy {letters row : List (List Char)}
    (hs : s.introducers = letters.map String.ofList) {l : String} (hl : IsBegunBy l row)
    (h : areSettled letters row = true) :
    s.declared l = (namesBehind letters row).map String.ofList := by
  rw [declared, hs, List.flatMap_map]
  cases row with
  | nil =>
    have hblank : isApartFrom letters [] = true := h
    exact List.flatMap_eq_nil_iff.mpr fun text ht =>
      nameBehind_eq_nil (begins_of_isApartFrom hblank hl ht)
  | cons w words =>
    rw [areSettled, Bool.and_eq_true, Bool.not_eq_true', List.isEmpty_eq_false_iff] at h
    obtain ⟨rest, hrest⟩ := hl h.1
    rw [namesBehind, List.map_flatMap]
    exact List.flatMap_congr fun text ht =>
      nameBehind_of_settles (List.all_eq_true.mp h.2 text ht) hrest

theorem flatMap_declared {letters : List (List Char)}
    (hs : s.introducers = letters.map String.ofList) {ls : List String}
    {rows : List (List (List Char))} (hl : List.Forall₂ IsBegunBy ls rows)
    (h : ∀ row ∈ rows, areSettled letters row = true) :
    ls.flatMap s.declared = (rows.flatMap (namesBehind letters)).map String.ofList := by
  induction hl with
  | nil => rfl
  | cons hbegun _ ih =>
    rw [List.forall_mem_cons] at h
    rw [List.flatMap_cons, List.flatMap_cons, List.map_append, ih h.2,
      declared_of_isBegunBy hs hbegun h.1]

/-- The line that opens a procedure declares its name. -/
theorem declared_opening {text : String} {others : List String}
    (hs : s.introducers = text :: others) {l : String} {name : List Char} {c : Char}
    {rest : List Char} (hl : unindented l = unindented text ++ (name ++ c :: rest))
    (hname : ∀ x ∈ name, Identifier.isNext x = true) (hc : Identifier.isNext c = false)
    (hothers : ∀ other ∈ others, begins other l = false) : s.declared l = [String.ofList name] := by
  rw [declared, hs, List.flatMap_cons, nameBehind_eq_singleton hl hname hc,
    List.flatMap_eq_nil_iff.mpr fun other ho => nameBehind_eq_nil (hothers other ho),
    List.append_nil]

theorem Unmarked.append {m n : Nat} {ns ms ls ks : List String} (hl : s.Unmarked m ns ls)
    (hk : s.Unmarked n ms ks) : s.Unmarked (m + n) (ns ++ ms) (ls ++ ks) where
  marker_notMem h := (List.mem_append.mp h).elim hl.marker_notMem hk.marker_notMem
  count_send := by rw [List.count_append, hl.count_send, hk.count_send]
  declared_eq := by rw [List.flatMap_append, hl.declared_eq, hk.declared_eq]

/-! ## Code -/

variable (s) in
/-- Directives that come back to their level of indentation and write lines without a marker. -/
structure Code (d sends : Nat) (names : List String) (xs : List Directive) : Prop where
  quiet : Quiet [] xs
  unmarked : s.Unmarked sends names (layoutLines d xs)

namespace Code

variable {d m n k : Nat} {ns ms ks : List String} {xs ys : List Directive}

/-- Lines that are told apart from the marker and from the line that sends a request. -/
theorem of_quiet_landmarks (h : Quiet [s.marker, s.send] xs)
    (hnames : (layoutLines d xs).flatMap s.declared = ns) : s.Code d 0 ns xs where
  quiet := h.mono (List.nil_subset _)
  unmarked := {
    marker_notMem := h.notMem List.mem_cons_self d
    count_send := List.count_eq_zero.mpr (h.notMem (List.mem_cons_of_mem _ List.mem_cons_self) d)
    declared_eq := hnames }

/-- Lines that begin with nothing that is looked for send no request and declare no name. -/
theorem of_quiet (h : Quiet s.texts xs) : s.Code d 0 [] xs := by
  apply of_quiet_landmarks
  · refine h.mono (List.cons_subset_cons _ (List.cons_subset_cons _ (List.nil_subset _)))
  · rw [List.flatMap_eq_nil_iff]
    intro l hl
    apply declared_eq_nil
    intro text ht
    exact h.begins_eq_false d l hl text (List.mem_cons_of_mem _ (List.mem_cons_of_mem _ ht))

/-- **What fixed lines declare is told by their letters.** -/
theorem spelled {marker send : List Char} {letters names : List (List Char)}
    {rows : List (List (List Char))}
    (h : Spelled 0 xs rows ∧ Letters s.texts (marker :: send :: letters) ∧ Letters ns names ∧
      rows.all (isApartFrom [marker, send]) = true ∧ rows.all (areSettled letters) = true ∧
      rows.flatMap (namesBehind letters) = names) :
    s.Code d 0 ns xs := by
  obtain ⟨hx, hs, hn, hrows, hsettled, hnames⟩ := h
  apply of_quiet_landmarks (.spelled ⟨hx, s.letters_landmarks hs, hrows⟩)
  rw [flatMap_declared (s.texts_eq hs).2.2 (hx.forall₂_isBegunBy d)
    (List.all_eq_true.mp hsettled), hnames, hn.eq_map]

/-- The line that sends a request. -/
theorem send {l : Line} (h : Quiet [] [.line l]) (hl : l.indented d = s.send)
    (hne : s.marker ≠ s.send) (hnames : s.declared s.send = []) : s.Code d 1 [] [.line l] where
  quiet := h
  unmarked := by
    have hlines : layoutLines d [.line l] = [s.send] := congrArg ([·]) hl
    rw [hlines]
    exact ⟨by simpa using hne, by simp, by simpa using hnames⟩

/-- The line that opens a procedure declares its name. -/
theorem opening {marker send text w more : List Char} {others : List (List Char)} {test : String}
    (htest : Identifier.isIdentifier test.toList = true)
    (h : Letters s.texts (marker :: send :: text :: others) ∧
      isApartFrom [marker, send] [w, '(' :: more] = true ∧ bare w = bare text ++ "test_".toList ∧
      (others.all fun other => clash (bare w) (bare other)) = true) :
    s.Code d 0 [procedureName test] [.line [.verbatim (String.ofList w), .verbatim test,
      .verbatim (String.ofList ('(' :: more))]] := by
  obtain ⟨hs, hline, hw, hothers⟩ := h
  have hspelled : Spelled 0 [.line [.verbatim (String.ofList w), .verbatim test,
      .verbatim (String.ofList ('(' :: more))]] [[w, '(' :: more]] :=
    .line (.silent (isSilent_name htest) (.word .nil)) .nil
  have hname : procedureName test = String.ofList ("test_".toList ++ test.toList) := by
    rw [procedureName, String.ofList_append, String.ofList_toList, String.ofList_toList]
  have hfront : ∀ c ∈ "test_".toList, Identifier.isNext c = true :=
    List.all_eq_true.mp (by decide)
  have hstart : bare w ≠ [] := by
    rw [hw]
    simp
  have hbegins := unindented_indented hstart d [.verbatim test,
    .verbatim (String.ofList ('(' :: more))]
  have hrest : bare w ++ Line.chars [.verbatim test, .verbatim (String.ofList ('(' :: more))]
      = unindented (String.ofList text) ++ (("test_".toList ++ test.toList) ++ '(' :: more) := by
    simp only [hw, unindented_ofList, chars_cons, chars_nil, Fragment.chars, String.toList_ofList,
      List.append_nil, List.append_assoc]
  apply of_quiet_landmarks (.spelled ⟨hspelled, s.letters_landmarks hs, by simpa using hline⟩)
  refine (List.flatMap_singleton _ _).trans ?_
  rw [hname]
  refine declared_opening (s.texts_eq hs).2.2 (hbegins.trans hrest) ?_ (by decide) ?_
  · exact fun c hc => (List.mem_append.mp hc).elim (hfront c) (isNext_of_mem htest)
  · intro other ho
    obtain ⟨cs, hcs, rfl⟩ := List.mem_map.mp ho
    refine begins_of_clash hbegins ?_
    rw [unindented_ofList]
    exact List.all_eq_true.mp hothers cs hcs

theorem append (hx : s.Code d m ns xs) (hy : s.Code d n ms ys) :
    s.Code d (m + n) (ns ++ ms) (xs ++ ys) where
  quiet := hx.quiet.append hy.quiet
  unmarked := by
    rw [layoutLines_append, hx.quiet.level]
    exact hx.unmarked.append hy.unmarked

theorem quiet_cons {x : Directive} (hx : Quiet s.texts [x]) (h : s.Code d n ns xs) :
    s.Code d n ns (x :: xs) := by
  have hboth := (of_quiet (d := d) hx).append h
  rwa [Nat.zero_add] at hboth

theorem nested (h : s.Code (d + 1) n ns xs) : s.Code d n ns (nested xs) where
  quiet := h.quiet.nested
  unmarked := by
    rw [layoutLines_nested h.quiet.level]
    exact h.unmarked

theorem block {opening closing : Line} (ho : s.Code d m ns [.line opening])
    (h : s.Code (d + 1) n ms xs) (hc : s.Code d k ks [.line closing]) :
    s.Code d (m + n + k) (ns ++ ms ++ ks) (block opening closing xs) := by
  rw [block_eq]
  exact (ho.append h.nested).append hc

/-- A block that declares what its opening line does. -/
theorem quiet_block {opening closing : Line} (ho : s.Code d 0 ns [.line opening])
    (h : Quiet s.texts xs) (hc : Quiet s.texts [.line closing]) :
    s.Code d 0 ns (Directive.block opening closing xs) := by
  have hblock := ho.block (of_quiet h) (of_quiet hc)
  rwa [List.append_nil, List.append_nil] at hblock

/-- Each of several things sends one request. -/
theorem flatMap {α : Type} {f : α → List Directive} {as : List α}
    (h : ∀ a ∈ as, s.Code d 1 [] (f a)) : s.Code d as.length [] (as.flatMap f) := by
  induction as with
  | nil => exact ⟨.nil, List.not_mem_nil, rfl, rfl⟩
  | cons a as ih =>
    rw [List.length_cons, Nat.add_comm]
    exact (h a List.mem_cons_self).append (ih fun b hb => h b (List.mem_cons_of_mem a hb))

end Code

/-! ## Lines in rows -/

/-- What is put before a list without the mark goes to the first of its parts. -/
theorem splitOn_append_of_notMem {mark : String} {xs : List String} (h : mark ∉ xs)
    {ys first : List String} {more : List (List String)} (hys : ys.splitOn mark = first :: more) :
    (xs ++ ys).splitOn mark = (xs ++ first) :: more := by
  induction xs with
  | nil => exact hys
  | cons x xs ih =>
    have hx : ¬ (x == mark) = true := by
      rw [beq_iff_eq]
      exact (List.ne_of_not_mem_cons h).symm
    rw [List.cons_append, List.splitOn_cons_eq_if_modifyHead, if_neg hx,
      ih (List.not_mem_of_not_mem_cons h)]
    rfl

variable (s) in
/-- Lines that are made of a head, of a procedure for each test and of an end. -/
structure Rows (helpers : List String) (ts : List PlannedTest) where
  /-- What comes before the first procedure. -/
  head : List String
  /-- What follows the opening line of a procedure. -/
  rest : PlannedTest → List String
  /-- What comes behind the last procedure. -/
  tail : List String
  unmarked_head : s.Unmarked 0 helpers head
  unmarked_blank : s.Unmarked 0 [] [""]
  declared_marker : s.declared s.marker = []
  unmarked_opening : ∀ t ∈ ts, s.Unmarked 0 [procedureName t.name] [s.opening t.name]
  unmarked_rest : ∀ t ∈ ts, s.Unmarked t.exchanges.length [] (rest t)
  unmarked_tail : s.Unmarked 0 [] tail

/-- The lines of a procedure, a blank line and its marker before it. -/
theorem layoutLines_procedure {d : Nat} {marker opening : Line} {test : String}
    (hm : marker.indented d = s.marker) (ho : opening.indented d = s.opening test) (closing : Line)
    {body : List Directive} (hbody : ∀ d, depthAfter d body = d) :
    layoutLines d (blank :: line marker :: block opening closing body)
      = "" :: s.marker :: s.opening test ::
        (layoutLines (d + 1) body ++ layoutLines d [line closing]) := by
  show "" :: marker.indented d :: opening.indented d ::
    layoutLines (d + 1) (body ++ [dedent, line closing]) = _
  rw [hm, ho, layoutLines_append, hbody]
  rfl

namespace Rows

variable {helpers : List String} {ts : List PlannedTest} (r : s.Rows helpers ts)

/-- The lines of a procedure, with the two lines before it. -/
def procedure (t : PlannedTest) : List String :=
  "" :: s.marker :: s.opening t.name :: r.rest t

/-- All lines. -/
def lines : List String := r.head ++ ts.flatMap r.procedure ++ r.tail

theorem unmarked_body {t : PlannedTest} (ht : t ∈ ts) :
    s.Unmarked t.exchanges.length [procedureName t.name] (s.opening t.name :: r.rest t) := by
  have h := (r.unmarked_opening t ht).append (r.unmarked_rest t ht)
  rwa [Nat.zero_add, List.append_nil, List.singleton_append] at h

theorem count_marker : r.lines.count s.marker = ts.length := by
  have hone : ∀ t ∈ ts, (r.procedure t).count s.marker = 1 := by
    intro t ht
    show List.count s.marker ([""] ++ s.marker :: (s.opening t.name :: r.rest t)) = 1
    rw [List.count_append, List.count_cons_self,
      List.count_eq_zero.mpr r.unmarked_blank.marker_notMem,
      List.count_eq_zero.mpr (r.unmarked_body ht).marker_notMem]
  have hsum : ts.map (List.count s.marker ∘ r.procedure) = List.replicate ts.length 1 :=
    List.map_eq_replicate_iff.mpr hone
  rw [lines, List.count_append, List.count_append, List.count_flatMap, hsum,
    List.count_eq_zero.mpr r.unmarked_head.marker_notMem,
    List.count_eq_zero.mpr r.unmarked_tail.marker_notMem]
  simp

/-- Procedures in a row, cut at their markers. -/
theorem splitOn_procedures {us : List PlannedTest} (hus : us ⊆ ts) :
    ∃ first parts, (us.flatMap r.procedure ++ r.tail).splitOn s.marker = first :: parts ∧
      first.count s.send = 0 ∧
      List.Forall₂ (fun t => s.IsProcedure t.name t.exchanges.length) us parts := by
  induction us with
  | nil =>
    exact ⟨r.tail, [], List.splitOn_eq_singleton r.unmarked_tail.marker_notMem,
      r.unmarked_tail.count_send, .nil⟩
  | cons t us ih =>
    obtain ⟨first, parts, hsplit, hfirst, hparts⟩ := ih (List.subset_of_cons_subset hus)
    have ht : t ∈ ts := hus List.mem_cons_self
    -- A procedure goes on up to the next marker, over the lines that come before it.
    have hpart : s.IsProcedure t.name t.exchanges.length
        (s.opening t.name :: r.rest t ++ first) := by
      refine ⟨r.rest t ++ first, rfl, ?_⟩
      rw [List.count_append, (r.unmarked_rest t ht).count_send, hfirst, Nat.add_zero]
    refine ⟨[""], (s.opening t.name :: r.rest t ++ first) :: parts, ?_,
      r.unmarked_blank.count_send, .cons hpart hparts⟩
    rw [List.flatMap_cons, procedure, List.append_assoc]
    show ([""] ++ s.marker :: (s.opening t.name :: r.rest t ++ _)).splitOn s.marker = _
    rw [List.splitOn_append_cons_self, List.splitOn_eq_singleton r.unmarked_blank.marker_notMem,
      splitOn_append_of_notMem (r.unmarked_body ht).marker_notMem hsplit, List.singleton_append]

/-- **The lines between markers are the procedures, in order.** -/
theorem forall₂_isProcedure : List.Forall₂ (fun t => s.IsProcedure t.name t.exchanges.length) ts
    (r.lines.splitOn s.marker).tail := by
  obtain ⟨first, parts, hsplit, -, hparts⟩ := r.splitOn_procedures (List.Subset.refl ts)
  rw [lines, List.append_assoc, splitOn_append_of_notMem r.unmarked_head.marker_notMem hsplit,
    List.tail_cons]
  exact hparts

theorem declared_lines :
    r.lines.flatMap s.declared = helpers ++ ts.map fun t => procedureName t.name := by
  have hone : ∀ t ∈ ts, (r.procedure t).flatMap s.declared = [procedureName t.name] := by
    intro t ht
    show List.flatMap s.declared ([""] ++ ([s.marker] ++ (s.opening t.name :: r.rest t))) = _
    rw [List.flatMap_append, List.flatMap_append, r.unmarked_blank.declared_eq,
      (r.unmarked_body ht).declared_eq, List.flatMap_singleton, r.declared_marker,
      List.nil_append, List.nil_append]
  rw [lines, List.flatMap_append, List.flatMap_append, r.unmarked_head.declared_eq,
    r.unmarked_tail.declared_eq, List.append_nil, List.flatMap_assoc, List.flatMap_congr hone,
    List.map_eq_flatMap]

end Rows

end ProcedureStyle

end ApiScenario
