import Mathlib.Data.List.Basic
import Mathlib.Data.List.Count
import Mathlib.Data.List.Induction
import ApiScenario.Program

/-!
# Rules for default headers

A request has headers of its own and gets default headers besides. There are two rules for it.
Defaults kept in a list are added one by one, each if no header of its name is there yet
(`fillAbsent`). Defaults kept in a map under their exact names (`setHeader`) are added together,
apart from those that the request names itself (`fillOthers`).

Header names do not tell upper case from lower case, so headers are compared name by name
(`sameHeaders_iff`). Of a name that the request does not have itself the first rule adds the first
default, and the second adds the last default under each spelling. The rules agree exactly where
that comes to the same (`sameHeaders_fill_iff`).
-/

namespace ApiScenario

/-! ## Names -/

/-- A header name without the difference between upper and lower case. -/
def foldedName (name : String) : List Char := name.toList.map Char.toLower

/-- The headers of a name. -/
def headersNamed (n : List Char) (hs : List Header) : List Header :=
  hs.filter fun h => foldedName h.key = n

/-- Requests with these headers are the same: each name has the same values, as often. -/
def SameHeaders (hs gs : List Header) : Prop :=
  (hs.map fun h => (foldedName h.key, h.value)).Perm (gs.map fun h => (foldedName h.key, h.value))

instance (hs gs : List Header) : Decidable (SameHeaders hs gs) :=
  inferInstanceAs (Decidable (List.Perm _ _))

theorem headersNamed_cons_same {n : List Char} {h : Header} (hn : foldedName h.key = n)
    (hs : List Header) : headersNamed n (h :: hs) = h :: headersNamed n hs :=
  List.filter_cons_of_pos (by simpa using hn)

theorem headersNamed_cons_other {n : List Char} {h : Header} (hn : foldedName h.key ≠ n)
    (hs : List Header) : headersNamed n (h :: hs) = headersNamed n hs :=
  List.filter_cons_of_neg (by simpa using hn)

@[simp] theorem headersNamed_append (n : List Char) (hs gs : List Header) :
    headersNamed n (hs ++ gs) = headersNamed n hs ++ headersNamed n gs := List.filter_append ..

theorem mem_headersNamed {n : List Char} {hs : List Header} {h : Header} :
    h ∈ headersNamed n hs ↔ h ∈ hs ∧ foldedName h.key = n := by
  simp [headersNamed]

theorem headersNamed_eq_nil {n : List Char} {hs : List Header} :
    headersNamed n hs = [] ↔ ∀ h ∈ hs, foldedName h.key ≠ n := by
  simp [headersNamed]

theorem count_headersNamed (n : List Char) (v : String) (hs : List Header) :
    ((headersNamed n hs).map Header.value).count v =
      (hs.map fun h => (foldedName h.key, h.value)).count (n, v) := by
  rw [List.count, List.count, List.countP_map, List.countP_map, headersNamed, List.countP_filter]
  refine List.countP_congr fun h _ => ?_
  simp [and_comm]

/-- Requests are the same if they have the same values under each name. -/
theorem sameHeaders_iff {hs gs : List Header} :
    SameHeaders hs gs ↔
      ∀ n, ((headersNamed n hs).map Header.value).Perm ((headersNamed n gs).map Header.value) := by
  unfold SameHeaders
  simp only [List.perm_iff_count, count_headersNamed]
  exact ⟨fun h n v => h (n, v), fun h nv => h nv.1 nv.2⟩

/-! ## Adding what is absent -/

/-- Adds a header unless one of its name is there. -/
def addAbsent (hs : List Header) (d : Header) : List Header :=
  if headersNamed (foldedName d.key) hs = [] then hs ++ [d] else hs

/-- Adds default headers one by one, each unless one of its name is there. -/
def fillAbsent (ds hs : List Header) : List Header := ds.foldl addAbsent hs

theorem addAbsent_of_nil {hs : List Header} {d : Header}
    (h : headersNamed (foldedName d.key) hs = []) : addAbsent hs d = hs ++ [d] := if_pos h

theorem addAbsent_of_ne {hs : List Header} {d : Header}
    (h : headersNamed (foldedName d.key) hs ≠ []) : addAbsent hs d = hs := if_neg h

theorem headersNamed_addAbsent_other {n : List Char} {d : Header} (hn : foldedName d.key ≠ n)
    (hs : List Header) : headersNamed n (addAbsent hs d) = headersNamed n hs := by
  by_cases h : headersNamed (foldedName d.key) hs = []
  · rw [addAbsent_of_nil h, headersNamed_append, headersNamed_cons_other hn]
    simp [headersNamed]
  · rw [addAbsent_of_ne h]

/-- Names that are there keep their headers. -/
theorem headersNamed_fillAbsent_of_ne {n : List Char} {hs : List Header}
    (h : headersNamed n hs ≠ []) (ds : List Header) :
    headersNamed n (fillAbsent ds hs) = headersNamed n hs := by
  unfold fillAbsent
  induction ds generalizing hs with
  | nil => rfl
  | cons d ds ih =>
    have hd : headersNamed n (addAbsent hs d) = headersNamed n hs := by
      by_cases hn : foldedName d.key = n
      · subst hn
        rw [addAbsent_of_ne h]
      · exact headersNamed_addAbsent_other hn hs
    rw [List.foldl_cons, ih (hd ▸ h), hd]

/-- A name that is not there gets the first default. -/
theorem headersNamed_fillAbsent_of_nil {n : List Char} {hs : List Header}
    (h : headersNamed n hs = []) (ds : List Header) :
    headersNamed n (fillAbsent ds hs) = (headersNamed n ds).take 1 := by
  unfold fillAbsent
  induction ds generalizing hs with
  | nil => exact h
  | cons d ds ih =>
    rw [List.foldl_cons]
    by_cases hn : foldedName d.key = n
    · subst hn
      have hd : headersNamed (foldedName d.key) (addAbsent hs d) = [d] := by
        rw [addAbsent_of_nil h, headersNamed_append, h, headersNamed_cons_same rfl]
        rfl
      -- From here on the name is there, so no later default of it is added.
      have hkeep : headersNamed (foldedName d.key) (fillAbsent ds (addAbsent hs d)) = [d] := by
        rw [headersNamed_fillAbsent_of_ne (by simp [hd]), hd]
      rw [fillAbsent] at hkeep
      rw [hkeep, headersNamed_cons_same rfl]
      rfl
    · rw [ih (headersNamed_addAbsent_other hn hs ▸ h), headersNamed_cons_other hn]

/-! ## A map under exact names -/

/-- Sets a header in a map that keeps the order in which names were first set. -/
def setHeader : List Header → Header → List Header
  | [], h => [h]
  | g :: m, h => if g.key = h.key then h :: m else g :: setHeader m h

/-- Adds the default headers whose names are not among the given ones. -/
def fillOthers (ds : List Header) (named : List String) (hs : List Header) : List Header :=
  hs ++ ds.filter fun d => foldedName d.key ∉ named.map foldedName

theorem setHeader_cons_same {g h : Header} (hk : g.key = h.key) (m : List Header) :
    setHeader (g :: m) h = h :: m := if_pos hk

theorem setHeader_cons_other {g h : Header} (hk : g.key ≠ h.key) (m : List Header) :
    setHeader (g :: m) h = g :: setHeader m h := if_neg hk

/-- Setting a header does to the headers of its name what it does to all of them. -/
theorem headersNamed_setHeader_same {n : List Char} {h : Header} (hn : foldedName h.key = n)
    (m : List Header) : headersNamed n (setHeader m h) = setHeader (headersNamed n m) h := by
  induction m with
  | nil => exact headersNamed_cons_same hn []
  | cons g m ih =>
    by_cases hk : g.key = h.key
    · have hg : foldedName g.key = n := hk ▸ hn
      rw [setHeader_cons_same hk, headersNamed_cons_same hn, headersNamed_cons_same hg,
        setHeader_cons_same hk]
    · rw [setHeader_cons_other hk]
      by_cases hg : foldedName g.key = n
      · rw [headersNamed_cons_same hg, headersNamed_cons_same hg, setHeader_cons_other hk, ih]
      · rw [headersNamed_cons_other hg, headersNamed_cons_other hg, ih]

theorem headersNamed_setHeader_other {n : List Char} {h : Header} (hn : foldedName h.key ≠ n)
    (m : List Header) : headersNamed n (setHeader m h) = headersNamed n m := by
  induction m with
  | nil => exact headersNamed_cons_other hn []
  | cons g m ih =>
    by_cases hk : g.key = h.key
    · have hg : foldedName g.key ≠ n := hk ▸ hn
      rw [setHeader_cons_same hk, headersNamed_cons_other hn, headersNamed_cons_other hg]
    · rw [setHeader_cons_other hk]
      by_cases hg : foldedName g.key = n
      · rw [headersNamed_cons_same hg, headersNamed_cons_same hg, ih]
      · rw [headersNamed_cons_other hg, headersNamed_cons_other hg, ih]

/-- Names do not get into each other's way. -/
theorem headersNamed_foldl_setHeader (n : List Char) (ds m : List Header) :
    headersNamed n (ds.foldl setHeader m) =
      (headersNamed n ds).foldl setHeader (headersNamed n m) := by
  induction ds generalizing m with
  | nil => rfl
  | cons d ds ih =>
    rw [List.foldl_cons, ih]
    by_cases hn : foldedName d.key = n
    · rw [headersNamed_setHeader_same hn, headersNamed_cons_same hn, List.foldl_cons]
    · rw [headersNamed_setHeader_other hn, headersNamed_cons_other hn]

theorem exists_key_setHeader_self (m : List Header) (h : Header) :
    ∃ g ∈ setHeader m h, g.key = h.key := by
  induction m with
  | nil => exact ⟨h, List.mem_cons_self, rfl⟩
  | cons g m ih =>
    by_cases hk : g.key = h.key
    · exact ⟨h, by simp [setHeader_cons_same hk], rfl⟩
    · obtain ⟨f, hf, hfk⟩ := ih
      exact ⟨f, by simp [setHeader_cons_other hk, hf], hfk⟩

theorem exists_key_setHeader {k : String} {m : List Header} (hm : ∃ g ∈ m, g.key = k)
    (h : Header) : ∃ g ∈ setHeader m h, g.key = k := by
  induction m with
  | nil => simp at hm
  | cons g m ih =>
    by_cases hk : g.key = h.key
    · rw [setHeader_cons_same hk]
      simpa [hk] using hm
    · rw [setHeader_cons_other hk]
      obtain ⟨f, hf, rfl⟩ := hm
      rcases List.mem_cons.mp hf with rfl | hf
      · exact ⟨f, List.mem_cons_self, rfl⟩
      · obtain ⟨f', hf', hk'⟩ := ih ⟨f, hf, rfl⟩
        exact ⟨f', List.mem_cons_of_mem _ hf', hk'⟩

/-- A name stays in a map once it is set. -/
theorem exists_key_foldl_setHeader {k : String} (ds : List Header) {m : List Header}
    (h : (∃ g ∈ m, g.key = k) ∨ ∃ d ∈ ds, d.key = k) :
    ∃ g ∈ ds.foldl setHeader m, g.key = k := by
  induction ds generalizing m with
  | nil => simpa using h
  | cons d ds ih =>
    refine ih ?_
    rcases h with hm | ⟨d', hd', rfl⟩
    · exact .inl (exists_key_setHeader hm d)
    · rcases List.mem_cons.mp hd' with rfl | hd'
      · exact .inl (exists_key_setHeader_self m d')
      · exact .inr ⟨d', hd', rfl⟩

/-- Headers set under one name one after the other leave the last of them. -/
theorem foldl_setHeader_of_key {k : String} (ds : List Header) (hk : ∀ d ∈ ds, d.key = k) :
    ds.foldl setHeader [] = ds.getLast?.toList := by
  induction ds using List.reverseRecOn with
  | nil => rfl
  | append_singleton ds d ih =>
    rw [List.foldl_append, ih fun g hg => hk g (List.mem_append_left _ hg), List.getLast?_concat]
    cases hl : ds.getLast? with
    | none => rfl
    | some g =>
      have hg : g.key = d.key := by
        rw [hk g (List.mem_append_left _ (List.mem_of_getLast? hl)), hk d (by simp)]
      exact setHeader_cons_same hg []

/-- A map with one entry at most was set under one name only. -/
theorem key_eq_of_length_foldl_setHeader {ds : List Header}
    (h : (ds.foldl setHeader []).length ≤ 1) : ∀ d ∈ ds, ∀ d' ∈ ds, d.key = d'.key := by
  intro d hd d' hd'
  obtain ⟨g, hg, hk⟩ := exists_key_foldl_setHeader ds (m := []) (.inr ⟨d, hd, rfl⟩)
  obtain ⟨g', hg', hk'⟩ := exists_key_foldl_setHeader ds (m := []) (.inr ⟨d', hd', rfl⟩)
  match ds.foldl setHeader [], h, hg, hg' with
  | [f], _, hg, hg' =>
    rw [List.mem_singleton] at hg hg'
    rw [← hk, ← hk', hg, hg']

/-- Default headers of one name are all spelled alike, and the first value is also the last. -/
def RepeatsAlike (ds : List Header) : Prop :=
  (∀ d ∈ ds, ∀ d' ∈ ds, d.key = d'.key) ∧
    ds.head?.map Header.value = ds.getLast?.map Header.value

/-- The first of some default headers and what a map keeps of them come to the same exactly if they
repeat alike. -/
theorem take_perm_foldl_setHeader_iff (ds : List Header) :
    ((ds.take 1).map Header.value).Perm ((ds.foldl setHeader []).map Header.value) ↔
      RepeatsAlike ds := by
  have hspelled : (∀ d ∈ ds, ∀ d' ∈ ds, d.key = d'.key) →
      (((ds.take 1).map Header.value).Perm ((ds.foldl setHeader []).map Header.value) ↔
        ds.head?.map Header.value = ds.getLast?.map Header.value) := by
    intro hkeys
    cases ds with
    | nil => simp
    | cons d ds =>
      rw [foldl_setHeader_of_key (d :: ds) fun d' hd' => hkeys d' hd' d List.mem_cons_self,
        List.getLast?_eq_some_getLast (List.cons_ne_nil d ds)]
      simp
  constructor
  · intro hperm
    -- At most one header is on the left, so the map cannot have kept two spellings.
    have hlength : (ds.foldl setHeader []).length ≤ 1 := by
      have hsame := hperm.length_eq
      rw [List.length_map, List.length_map, List.length_take] at hsame
      omega
    have hkeys := key_eq_of_length_foldl_setHeader hlength
    exact ⟨hkeys, (hspelled hkeys).mp hperm⟩
  · rintro ⟨hkeys, hvalues⟩
    exact (hspelled hkeys).mpr hvalues

/-! ## The two rules compared -/

theorem headersNamed_fillOthers_of_ne {n : List Char} {hs : List Header}
    (h : headersNamed n hs ≠ []) (ds : List Header) :
    headersNamed n (fillOthers ds (hs.map Header.key) hs) = headersNamed n hs := by
  have hothers : headersNamed n
      (ds.filter fun d => foldedName d.key ∉ (hs.map Header.key).map foldedName) = [] := by
    obtain ⟨g, hg⟩ := List.exists_mem_of_ne_nil _ h
    obtain ⟨hmem, hn⟩ := mem_headersNamed.mp hg
    refine headersNamed_eq_nil.mpr fun d hd hdn => ?_
    have habsent := List.of_mem_filter hd
    rw [decide_eq_true_eq, hdn, ← hn] at habsent
    exact habsent (List.mem_map_of_mem (List.mem_map_of_mem hmem))
  rw [fillOthers, headersNamed_append, hothers, List.append_nil]

theorem headersNamed_fillOthers_of_nil {n : List Char} {hs : List Header}
    (h : headersNamed n hs = []) (ds : List Header) :
    headersNamed n (fillOthers ds (hs.map Header.key) hs) = headersNamed n ds := by
  rw [fillOthers, headersNamed_append, h, List.nil_append, headersNamed, List.filter_filter]
  refine List.filter_congr fun d _ => ?_
  have hother := headersNamed_eq_nil.mp h
  by_cases hn : foldedName d.key = n
  · subst hn
    simpa using hother
  · simp [hn]

/-- The two rules give a request the same headers exactly if the defaults of each name that it does
not have itself repeat alike. -/
theorem sameHeaders_fill_iff (ds hs : List Header) :
    SameHeaders (fillAbsent ds hs) (fillOthers (ds.foldl setHeader []) (hs.map Header.key) hs) ↔
      ∀ n, headersNamed n hs = [] → RepeatsAlike (headersNamed n ds) := by
  rw [sameHeaders_iff]
  refine forall_congr' fun n => ?_
  by_cases h : headersNamed n hs = []
  · rw [headersNamed_fillAbsent_of_nil h, headersNamed_fillOthers_of_nil h,
      headersNamed_foldl_setHeader]
    have hiff := take_perm_foldl_setHeader_iff (headersNamed n ds)
    exact hiff.trans (imp_iff_right h).symm
  · -- The request has the name itself, so no default of it is sent.
    rw [headersNamed_fillAbsent_of_ne h, headersNamed_fillOthers_of_ne h]
    exact iff_of_true (List.Perm.refl _) fun h' => absurd h' h

end ApiScenario
