import Mathlib.Data.List.Basic
import ApiScenario.CommandLine.FileTree

/-!
# Files that are written

Writing a text to the file at a path changes the tree in one place, the one that the path leads to,
and the text is read there afterwards (`written_of_write`).

The directories on the way to the file are found as before: they are directories, and what stands at
the place of the file is none (`walk_put`).
-/

namespace ApiScenario.FileTree

/-! ## One place of a tree -/

variable {t : FileTree}

theorem put_self (t : FileTree) (l : Location) (n : Node) : t.put l n l = some n := if_pos rfl

theorem put_other (t : FileTree) {l l' : Location} (n : Node) (h : l' ≠ l) : t.put l n l' = t l' :=
  if_neg h

theorem node?_put_self {l : Location} (n : Node) (hl : l.names ≠ []) :
    (t.put l n).node? l = some n := by
  unfold node?
  rw [if_neg (by simpa using hl), put_self]

theorem node?_put_other {l l' : Location} (n : Node) (h : l' ≠ l) :
    (t.put l n).node? l' = t.node? l' := by
  unfold node?
  rw [put_other t n h]

/-! ## Walks -/

/-- A walk goes on only from a directory. -/
theorem walk_cons_eq_ok {l l' : Location} {name : String} {names : List String} :
    t.walk l (name :: names) = .ok l' ↔
      t.node? l = some .directory ∧ t.walk (l.step name) names = .ok l' := by
  rw [walk]
  rcases t.node? l with _ | _ | _ <;> simp

/-- A walk ends where its names lead. -/
theorem eq_foldl_of_walk {l l' : Location} {names : List String} (h : t.walk l names = .ok l') :
    l' = names.foldl Location.step l := by
  induction names generalizing l with
  | nil =>
    cases h
    rfl
  | cons name names ih => exact ih (walk_cons_eq_ok.mp h).2

theorem walk_append_eq_ok {l l' l'' : Location} {names more : List String}
    (h : t.walk l names = .ok l') (hmore : t.walk l' more = .ok l'') :
    t.walk l (names ++ more) = .ok l'' := by
  induction names generalizing l with
  | nil =>
    cases h
    exact hmore
  | cons name names ih =>
    obtain ⟨hdirectory, hwalk⟩ := walk_cons_eq_ok.mp h
    exact walk_cons_eq_ok.mpr ⟨hdirectory, ih hwalk⟩

/-- **A walk is not disturbed by what is put where there is no directory.** -/
theorem walk_put {place : Location} (n : Node) (hplace : t.node? place ≠ some .directory)
    {l l' : Location} {names : List String} (h : t.walk l names = .ok l') :
    (t.put place n).walk l names = .ok l' := by
  induction names generalizing l with
  | nil => exact h
  | cons name names ih =>
    obtain ⟨hdirectory, hwalk⟩ := walk_cons_eq_ok.mp h
    have hne : l ≠ place := by
      rintro rfl
      exact hplace hdirectory
    exact walk_cons_eq_ok.mpr ⟨by rwa [node?_put_other n hne], ih hwalk⟩

/-! ## The place of a file -/

/-- What is known of the place at which a file is to be written: it is below a directory that the
path leads to, and no directory stands there. -/
structure IsTarget (t : FileTree) (p : String) (l : Location) : Prop where
  noSlash : Path.endsWithSlash p = false
  free : t.node? l ≠ some .directory
  below : ∃ (front : List String) (last : String) (dir : Location),
    Path.names p = front ++ [last] ∧ t.walk (Path.start p) front = .ok dir ∧
      t.node? dir = some .directory ∧ isDots last = false ∧ l = dir.child last

theorem isTarget_of_target {p : String} {l : Location} (h : t.target p = .ok l) :
    t.IsTarget p l := by
  unfold target at h
  cases hlast : (Path.names p).getLast? with
  | none => simp [hlast] at h
  | some last =>
    simp only [hlast] at h
    cases hwalk : t.walk (Path.start p) (Path.names p).dropLast with
    | error e => simp [hwalk] at h
    | ok dir =>
      simp only [hwalk] at h
      rcases hdir : t.node? dir with _ | content | _
      · simp [hdir] at h
      · simp [hdir] at h
      · simp only [hdir] at h
        split at h
        · cases h
        · next hname =>
          obtain ⟨hdots, hslash⟩ := Bool.or_eq_false_iff.mp (Bool.not_eq_true _ ▸ hname)
          split at h
          · cases h
          · next hfree =>
            cases h
            refine ⟨hslash, hfree, _, last, dir, ?_, hwalk, hdir, hdots, rfl⟩
            exact (List.dropLast_append_getLast? last hlast).symm

theorem step_of_not_isDots (l : Location) {name : String} (h : isDots name = false) :
    l.step name = l.child name := by
  obtain ⟨hdot, hdotdot⟩ := Bool.or_eq_false_iff.mp h
  unfold Location.step
  rw [if_neg (by simpa using hdot), if_neg (by simpa using hdotdot)]

/-- A file is written where its path leads. -/
theorem IsTarget.eq_location {p : String} {l : Location} (h : t.IsTarget p l) :
    l = Path.location p := by
  obtain ⟨front, last, dir, hnames, hwalk, -, hdots, rfl⟩ := h.below
  rw [Path.location, hnames, List.foldl_append, ← eq_foldl_of_walk hwalk]
  exact (step_of_not_isDots dir hdots).symm

/-! ## Reading what was written -/

theorem decode_toUTF8 (text : String) : decode text.toUTF8 = .ok text := by
  have hvalid : String.fromUTF8? text.toUTF8 = some text := dif_pos text.isValidUTF8
  rw [decode, hvalid]

/-- **A text that was put at the place of a path is read at the path.** -/
theorem IsTarget.read_put {p : String} {l : Location} (h : t.IsTarget p l) (text : String) :
    (t.put l (.file text.toUTF8)).read p = .ok text := by
  obtain ⟨front, last, dir, hnames, hwalk, hdir, hdots, hl⟩ := h.below
  have hnonempty : p.isEmpty = false := by
    rw [← Bool.not_eq_true, String.isEmpty_iff]
    rintro rfl
    simp [Path.names] at hnames
  have hbelow : l.names ≠ [] := by
    rw [hl]
    simp [Location.child]
  have hne : dir ≠ l := by
    rintro rfl
    exact h.free hdir
  -- The way to the directory is the old one, and its last step leads to the file.
  have hwhole : (t.put l (.file text.toUTF8)).walk (Path.start p) (Path.names p) = .ok l := by
    rw [hnames]
    refine walk_append_eq_ok (walk_put _ h.free hwalk) (walk_cons_eq_ok.mpr ⟨?_, ?_⟩)
    · rw [node?_put_other _ hne, hdir]
    · rw [step_of_not_isDots dir hdots, ← hl]
      rfl
  unfold read
  rw [hnonempty, hwhole]
  simp only [Bool.false_eq_true, if_false, node?_put_self _ hbelow, h.noSlash]
  exact decode_toUTF8 text

/-- A tree in which a text has been written to the file at a path, and nothing else been done. -/
structure Written (t : FileTree) (p text : String) (t' : FileTree) : Prop where
  content : t' (Path.location p) = some (.file text.toUTF8)
  elsewhere : ∀ l, l ≠ Path.location p → t' l = t l
  read : t'.read p = .ok text

/-- **Writing a text to the file at a path does this and nothing else.** -/
theorem written_of_write {p text : String} {t' : FileTree} (h : t.write p text = .ok t') :
    t.Written p text t' := by
  unfold write at h
  cases htarget : t.target p with
  | error e =>
    rw [htarget] at h
    cases h
  | ok l =>
    rw [htarget] at h
    cases h
    have hl := isTarget_of_target htarget
    refine ⟨?_, ?_, hl.read_put text⟩
    · rw [← hl.eq_location]
      exact put_self t l _
    · intro l' hl'
      rw [← hl.eq_location] at hl'
      exact put_other t _ hl'

end ApiScenario.FileTree
