import Mathlib.Tactic.MkIffOfInductiveProp
import ApiScenario.CommandLine.Arguments

/-!
# The rules of arguments

The words that arguments are made of, what each of them sets, and which settings go together are
written down here as rules, beside the reader of `Arguments`. The reader finds the command that the
rules give, and refuses arguments for which they give none (`read_eq_iff`).
-/

namespace ApiScenario

/-- The name of a format of reports. -/
def ReportFormat.name : ReportFormat → String
  | human => "human"
  | json => "json"

namespace Arguments

/-- What a word among the arguments can set. -/
inductive Setting where
  | file (path : String)
  | target (t : Target)
  | check
  | format (f : ReportFormat)
  | verbose
deriving DecidableEq

/-! ## The rules -/

/-- How reading ends: with all arguments read, or at a word that asks for something else. -/
inductive Ending where
  | whole
  | version
  | help

/-- What follows a word: other words, the value of an option, or nothing that is read. -/
inductive Next where
  | more
  | value (o : ValueOption)
  | stop (e : Ending)

/-- The letters behind one dash, what they set, and what follows them. -/
inductive Letters : List Char → List Setting → Next → Prop
  | nil : Letters [] [] .more
  | verbose {cs : List Char} {ss : List Setting} {n : Next} :
      Letters cs ss n → Letters ('v' :: cs) (.verbose :: ss) n
  | target (t : Target) : Letters ('t' :: t.name.toList) [.target t] .more
  | targetEq (t : Target) : Letters ('t' :: '=' :: t.name.toList) [.target t] .more
  | targetValue : Letters ['t'] [] (.value .target)
  | version (cs : List Char) : Letters ('V' :: cs) [] (.stop .version)
  | help (cs : List Char) : Letters ('h' :: cs) [] (.stop .help)

/-- The words where an option can stand, what they set, and what follows them. -/
inductive Word : String → List Setting → Next → Prop
  | file {path : String} : path = "-" ∨ path.toList.head? ≠ some '-' →
      Word path [.file path] .more
  | check : Word "--check" [.check] .more
  | verbose : Word "--verbose" [.verbose] .more
  | target (t : Target) : Word ("--target=" ++ t.name) [.target t] .more
  | targetValue : Word "--target" [] (.value .target)
  | format (f : ReportFormat) : Word ("--error-format=" ++ f.name) [.format f] .more
  | formatValue : Word "--error-format" [] (.value .format)
  | version : Word "--version" [] (.stop .version)
  | help : Word "--help" [] (.stop .help)
  | letters {c : Char} {cs : List Char} {ss : List Setting} {n : Next} :
      Letters (c :: cs) ss n → Word (String.ofList ('-' :: c :: cs)) ss n

/-- The values of an option, and what they set. -/
inductive Value : ValueOption → String → Setting → Prop
  | target (t : Target) : Value .target t.name (.target t)
  | format (f : ReportFormat) : Value .format f.name (.format f)

/-- Arguments word for word, what they set in turn, and how they end. -/
inductive Line : List String → List Setting → Ending → Prop
  | nil : Line [] [] .whole
  /-- Behind two dashes there are files only. -/
  | dashes (paths : List String) : Line ("--" :: paths) (paths.map .file) .whole
  | stop {word : String} {ss : List Setting} {e : Ending} {rest : List String} :
      Word word ss (.stop e) → Line (word :: rest) ss e
  | more {word : String} {ss ss' : List Setting} {e : Ending} {rest : List String} :
      Word word ss .more → Line rest ss' e → Line (word :: rest) (ss ++ ss') e
  | value {word text : String} {o : ValueOption} {s : Setting} {ss ss' : List Setting} {e : Ending}
      {rest : List String} : Word word ss (.value o) → Value o text s → Line rest ss' e →
      Line (word :: text :: rest) (ss ++ s :: ss') e

namespace Setting

def file? : Setting → Option String
  | file path => some path
  | _ => none

def target? : Setting → Option Target
  | target t => some t
  | _ => none

def format? : Setting → Option ReportFormat
  | format f => some f
  | _ => none

/-- The files that are named. -/
def files (ss : List Setting) : List String := ss.filterMap file?

def targets (ss : List Setting) : List Target := ss.filterMap target?

def formats (ss : List Setting) : List ReportFormat := ss.filterMap format?

@[simp] theorem files_concat (ss : List Setting) (s : Setting) :
    files (ss ++ [s]) = files ss ++ s.file?.toList := by
  cases h : s.file? <;> simp [files, h]

@[simp] theorem targets_concat (ss : List Setting) (s : Setting) :
    targets (ss ++ [s]) = targets ss ++ s.target?.toList := by
  cases h : s.target? <;> simp [targets, h]

@[simp] theorem formats_concat (ss : List Setting) (s : Setting) :
    formats (ss ++ [s]) = formats ss ++ s.format?.toList := by
  cases h : s.format? <;> simp [formats, h]

end Setting

open Setting

/-- Settings that go together: two files at most, each with a name, and no option twice. -/
@[mk_iff]
structure Together (ss : List Setting) : Prop where
  atMostTwo : (files ss).length ≤ 2
  named : "" ∉ files ss
  target : (targets ss).length ≤ 1
  check : ss.count .check ≤ 1
  format : (formats ss).length ≤ 1
  verbose : ss.count .verbose ≤ 1

/-- What is to be compiled under settings: the first file is the input, the second the output, and
options that are not set have their defaults. -/
@[mk_iff]
structure Gives (ss : List Setting) (i : Invocation) : Prop where
  paths : files ss = i.input :: i.output?.toList
  named : "" ∉ files ss
  target : targets ss = [i.target] ∨ targets ss = [] ∧ i.target = .rust
  check : ss.count .check = i.check.toNat
  format : formats ss = [i.format] ∨ formats ss = [] ∧ i.format = .human
  verbose : ss.count .verbose = i.verbose.toNat

/-- The command that arguments ask for. -/
inductive Asks (args : List String) : Command → Prop
  | compile {ss : List Setting} {i : Invocation} :
      Line args ss .whole → Gives ss i → Asks args (.compile i)
  | version {ss : List Setting} : Line args ss .version → Together ss → Asks args .version
  | help {ss : List Setting} : Line args ss .help → Together ss → Asks args .help

/-! ## Settings in a draft -/

/-- What a setting needs of those before it. -/
def Fits (ss : List Setting) : Setting → Prop
  | .file path => path ≠ "" ∧ (files ss).length < 2
  | .target _ => targets ss = []
  | .check => .check ∉ ss
  | .format _ => formats ss = []
  | .verbose => .verbose ∉ ss

theorem together_nil : Together [] := by
  simp [together_iff, files, targets, formats]

theorem together_concat (ss : List Setting) (s : Setting) :
    Together (ss ++ [s]) ↔ Together ss ∧ Fits ss s := by
  cases s <;> simp [together_iff, Fits, file?, target?, format?, List.count_eq_zero] <;> grind

theorem Together.of_append {ss ss' : List Setting} (h : Together (ss ++ ss')) : Together ss := by
  induction ss' generalizing ss with
  | nil => simpa using h
  | cons s ss' ih =>
    rw [List.append_cons] at h
    exact ((together_concat ss s).mp (ih h)).1

namespace Draft

/-- A draft with one more setting, if that can be made. -/
def apply (d : Draft) : Setting → Option Draft
  | .file path => d.addPositional path
  | .target t => d.setTarget t.name
  | .check => d.setCheck
  | .format f => d.setFormat f.name
  | .verbose => d.setVerbose

def applyAll (d : Draft) (ss : List Setting) : Option Draft := ss.foldlM apply d

@[simp] theorem applyAll_singleton (d : Draft) (s : Setting) : d.applyAll [s] = d.apply s := by
  simp [applyAll]

theorem applyAll_append (d : Draft) (ss ss' : List Setting) :
    d.applyAll (ss ++ ss') = (d.applyAll ss).bind (·.applyAll ss') := by
  simp [applyAll]

/-- The draft for settings. -/
def of (ss : List Setting) : Draft :=
  ⟨files ss, (targets ss).head?, decide (.check ∈ ss), (formats ss).head?, decide (.verbose ∈ ss)⟩

theorem addPositional_eq (d : Draft) (path : String) :
    d.addPositional path = if path ≠ "" ∧ d.positionals.length < 2 then
      some { d with positionals := d.positionals ++ [path] } else none := by
  unfold addPositional
  by_cases hpath : path = "" <;> by_cases hroom : d.positionals.length < 2 <;> simp [hpath, hroom]

theorem setTarget_name (d : Draft) (t : Target) :
    d.setTarget t.name = if d.target? = none then some { d with target? := some t } else none := by
  unfold setTarget
  cases d.target? <;> cases t <;> simp [Target.name]

theorem setFormat_name (d : Draft) (f : ReportFormat) :
    d.setFormat f.name = if d.format? = none then some { d with format? := some f } else none := by
  unfold setFormat
  cases d.format? <;> cases f <;> simp [ReportFormat.name]

theorem exists_of_setTarget {d : Draft} {text : String} (h : d.setTarget text ≠ none) :
    ∃ t : Target, text = t.name := by
  unfold setTarget at h
  split at h
  · exact ⟨.rust, rfl⟩
  · exact ⟨.junit, rfl⟩
  · exact absurd rfl h

theorem exists_of_setFormat {d : Draft} {text : String} (h : d.setFormat text ≠ none) :
    ∃ f : ReportFormat, text = f.name := by
  unfold setFormat at h
  split at h
  · exact ⟨.human, rfl⟩
  · exact ⟨.json, rfl⟩
  · exact absurd rfl h

/-- A setting can be made if it fits those before it. -/
theorem apply_of (ss : List Setting) (s : Setting) (d : Draft) :
    (of ss).apply s = some d ↔ Fits ss s ∧ of (ss ++ [s]) = d := by
  cases s with
  | file path =>
    simp [Fits, of, apply, addPositional_eq, file?, Setting.target?, Setting.format?]
  | target t =>
    simp +contextual [Fits, of, apply, setTarget_name, file?, Setting.target?, Setting.format?]
  | check =>
    simp [Fits, of, apply, setCheck, file?, Setting.target?, Setting.format?]
  | format f =>
    simp +contextual [Fits, of, apply, setFormat_name, file?, Setting.target?, Setting.format?]
  | verbose =>
    simp [Fits, of, apply, setVerbose, file?, Setting.target?, Setting.format?]

/-- **Settings can be made one after the other if they go together.** -/
theorem applyAll_of {ss : List Setting} (h : Together ss) (ss' : List Setting) (d : Draft) :
    (of ss).applyAll ss' = some d ↔ Together (ss ++ ss') ∧ of (ss ++ ss') = d := by
  induction ss' generalizing ss with
  | nil => simp [applyAll, h]
  | cons s ss' ih =>
    -- Before each setting, the draft is the one for the settings made so far.
    have hstep : (of ss).applyAll (s :: ss') = some d ↔
        Fits ss s ∧ (of (ss ++ [s])).applyAll ss' = some d := by
      simp [applyAll, List.foldlM_cons, Option.bind_eq_some_iff, apply_of, and_assoc]
    rw [hstep, List.append_cons ss s ss']
    constructor
    · rintro ⟨hfits, hrest⟩
      exact (ih ((together_concat ss s).mpr ⟨h, hfits⟩)).mp hrest
    · rintro ⟨htogether, hd⟩
      have hfits := (together_concat ss s).mp htogether.of_append
      exact ⟨hfits.2, (ih htogether.of_append).mpr ⟨htogether, hd⟩⟩

theorem finish_eq_iff {d : Draft} {i : Invocation} :
    d.finish = .compile i ↔
      (d.positionals.head? = some i.input ∧ d.positionals.tail.head? = i.output?) ∧
      d.target?.getD .rust = i.target ∧ d.check = i.check ∧ d.format?.getD .human = i.format ∧
      d.verbose = i.verbose := by
  unfold finish
  cases d.positionals with
  | nil => simp
  | cons input rest => cases i; simp [and_assoc]

end Draft

/-- The input is the first file, and the output the second if there is one. -/
theorem paths_iff {paths : List String} {input : String} {output? : Option String} :
    paths = input :: output?.toList ↔
      paths.length ≤ 2 ∧ paths.head? = some input ∧ paths.tail.head? = output? := by
  match paths with
  | [] => simp
  | [_] => cases output? <;> simp
  | [_, _] => cases output? <;> simp
  | _ :: _ :: _ :: _ => cases output? <;> simp

/-- An option with a value is set once, or has its default. -/
theorem option_iff {α : Type} {values : List α} {a b : α} :
    values = [a] ∨ values = [] ∧ a = b ↔ values.length ≤ 1 ∧ values.head?.getD b = a := by
  match values with
  | [] => simp [eq_comm]
  | [_] => simp
  | _ :: _ :: _ => simp

/-- An option without a value is set once, or not. -/
theorem count_eq_toNat_iff {ss : List Setting} {s : Setting} {b : Bool} :
    ss.count s = b.toNat ↔ ss.count s ≤ 1 ∧ decide (s ∈ ss) = b := by
  by_cases hs : s ∈ ss
  · have hpos := List.count_pos_iff.mpr hs
    cases b <;> simp [hs] <;> omega
  · cases b <;> simp [hs, List.count_eq_zero.mpr hs]

/-- Settings are for what their draft comes to, if they go together. -/
theorem gives_iff_finish {ss : List Setting} {i : Invocation} :
    Gives ss i ↔ Together ss ∧ (Draft.of ss).finish = .compile i := by
  rw [gives_iff, together_iff, Draft.finish_eq_iff, paths_iff, option_iff, option_iff,
    count_eq_toNat_iff, count_eq_toNat_iff]
  simp only [Draft.of]
  grind

/-! ## Words -/

def Ending.command : Ending → Draft → Command
  | whole, d => d.finish
  | version, _ => .version
  | help, _ => .help

/-- What a word does to a draft with its settings. -/
def Next.effect : Next → Draft → Effect
  | more, d => .more d
  | value o, d => .wait o d
  | stop e, d => .stop (e.command d)

theorem ofOption_eq (d? : Option Draft) :
    Effect.ofOption d? = d?.elim (.stop .misuse) Next.more.effect := by
  cases d? <;> rfl

theorem ne_none_of_ofOption {d? : Option Draft} (h : Effect.ofOption d? ≠ .stop .misuse) :
    d? ≠ none := by
  rintro rfl
  exact h rfl

/-- Letters make their settings in turn. -/
theorem short_eq {cs : List Char} {ss : List Setting} {n : Next} (h : Letters cs ss n) (d : Draft) :
    short d cs = (d.applyAll ss).elim (.stop .misuse) n.effect := by
  induction h generalizing d with
  | nil => rfl
  | verbose _ ih =>
    simp only [short, Draft.applyAll, List.foldlM_cons, Draft.apply]
    cases d.setVerbose with
    | none => rfl
    | some d => exact ih d
  | target t =>
    -- No name begins with the sign that can stand before a value.
    have hname : ∃ c cs, t.name.toList = c :: cs ∧ c ≠ '=' := by
      cases t with
      | rust => exact ⟨_, _, rfl, by decide⟩
      | junit => exact ⟨_, _, rfl, by decide⟩
    obtain ⟨c, cs, hname, hc⟩ := hname
    rw [Draft.applyAll_singleton, ← ofOption_eq, Draft.apply, ← String.ofList_toList (s := t.name),
      hname]
    simp [short, hc]
  | targetEq t =>
    rw [Draft.applyAll_singleton, ← ofOption_eq]
    simp [short, Draft.apply]
  | targetValue => rfl
  | version cs => rfl
  | help cs => rfl

theorem exists_letters {d : Draft} {cs : List Char} (h : short d cs ≠ .stop .misuse) :
    ∃ ss n, Letters cs ss n := by
  fun_induction short d cs with
  | case1 => exact ⟨_, _, .nil⟩
  | case2 => exact ⟨_, _, .targetValue⟩
  | case3 d value =>
    obtain ⟨t, ht⟩ := Draft.exists_of_setTarget (ne_none_of_ofOption h)
    exact ⟨_, _, by simpa [← ht] using Letters.targetEq t⟩
  | case4 d value =>
    obtain ⟨t, ht⟩ := Draft.exists_of_setTarget (ne_none_of_ofOption h)
    exact ⟨_, _, by simpa [← ht] using Letters.target t⟩
  | case5 d rest d' _ ih =>
    obtain ⟨ss, n, hrest⟩ := ih h
    exact ⟨_, _, .verbose hrest⟩
  | case6 => exact absurd rfl h
  | case7 => exact ⟨_, _, .version _⟩
  | case8 => exact ⟨_, _, .help _⟩
  | case9 => exact absurd rfl h

theorem Letters.ne_dash {c : Char} {cs : List Char} {ss : List Setting} {n : Next}
    (h : Letters (c :: cs) ss n) : c ≠ '-' := by
  cases h <;> decide

/-- A long option as it is written. -/
def longWord (name : String) : Option String → String
  | none => "--" ++ name
  | some value => "--" ++ name ++ "=" ++ value

theorem argument_longWord (d : Draft) (name : String) (value? : Option String)
    (hname : '=' ∉ name.toList) : argument d (longWord name value?) = long d name value? := by
  have hne : ∀ c ∈ name.toList, (c != '=') = true := by
    intro c hc
    simpa using ne_of_mem_of_not_mem hc hname
  unfold argument
  cases value? with
  | none =>
    have htext : (longWord name none).toList = '-' :: '-' :: name.toList := by simp [longWord]
    have hsplit : splitValue name.toList = (name, none) := by
      unfold splitValue
      rw [← List.append_nil name.toList, List.takeWhile_append_of_pos hne,
        List.dropWhile_append_of_pos hne]
      simp
    simp only [htext, hsplit]
  | some value =>
    have htext : (longWord name (some value)).toList =
        '-' :: '-' :: (name.toList ++ '=' :: value.toList) := by
      simp [longWord]
    have hsplit : splitValue (name.toList ++ '=' :: value.toList) = (name, some value) := by
      simp [splitValue, List.takeWhile_append_of_pos hne, List.dropWhile_append_of_pos hne]
    simp only [htext, hsplit]

theorem eq_longWord {word : String} {cs : List Char} (h : word.toList = '-' :: '-' :: cs) :
    word = longWord (splitValue cs).1 (splitValue cs).2 := by
  rw [← String.toList_inj, h]
  have hcs := List.takeWhile_append_dropWhile (p := (· != '=')) (l := cs)
  unfold splitValue
  split
  · rename_i hnil
    rw [hnil, List.append_nil] at hcs
    simp [longWord, hcs]
  · rename_i c value hvalue
    have hc : c = '=' := by
      have := List.head?_dropWhile_not (· != '=') cs
      simpa [hvalue] using this
    subst hc
    rw [hvalue] at hcs
    simp [longWord, hcs]

/-- **A word makes its settings, and what follows is as the rules say.** -/
theorem argument_eq {word : String} {ss : List Setting} {n : Next} (h : Word word ss n)
    (d : Draft) : argument d word = (d.applyAll ss).elim (.stop .misuse) n.effect := by
  cases h with
  | file hpath =>
    rw [Draft.applyAll_singleton, ← ofOption_eq]
    rcases hpath with rfl | hpath
    · rfl
    · unfold argument
      split
      · simp_all
      · simp_all
      · rfl
  | check =>
    rw [Draft.applyAll_singleton, ← ofOption_eq]
    exact argument_longWord d "check" none (by decide)
  | verbose =>
    rw [Draft.applyAll_singleton, ← ofOption_eq]
    exact argument_longWord d "verbose" none (by decide)
  | target t =>
    rw [Draft.applyAll_singleton, ← ofOption_eq]
    exact argument_longWord d "target" (some t.name) (by decide)
  | targetValue => exact argument_longWord d "target" none (by decide)
  | format f =>
    rw [Draft.applyAll_singleton, ← ofOption_eq]
    exact argument_longWord d "error-format" (some f.name) (by decide)
  | formatValue => exact argument_longWord d "error-format" none (by decide)
  | version => exact argument_longWord d "version" none (by decide)
  | help => exact argument_longWord d "help" none (by decide)
  | @letters c cs _ _ hletters =>
    rw [← short_eq hletters]
    simp [argument, hletters.ne_dash]

theorem exists_word_of_long {d : Draft} {name : String} {value? : Option String}
    (h : long d name value? ≠ .stop .misuse) : ∃ ss n, Word (longWord name value?) ss n := by
  unfold long at h
  split at h
  · exact ⟨_, _, .targetValue⟩
  · obtain ⟨t, rfl⟩ := Draft.exists_of_setTarget (ne_none_of_ofOption h)
    exact ⟨_, _, .target t⟩
  · exact ⟨_, _, .formatValue⟩
  · obtain ⟨f, rfl⟩ := Draft.exists_of_setFormat (ne_none_of_ofOption h)
    exact ⟨_, _, .format f⟩
  · exact ⟨_, _, .check⟩
  · exact ⟨_, _, .verbose⟩
  · exact ⟨_, _, .version⟩
  · exact ⟨_, _, .help⟩
  · exact absurd rfl h

/-- **An argument that makes sense is a word.** -/
theorem exists_word {d : Draft} {word : String} (h : argument d word ≠ .stop .misuse) :
    ∃ ss n, Word word ss n := by
  unfold argument at h
  split at h
  · rename_i cs hcs
    rw [eq_longWord hcs]
    exact exists_word_of_long h
  · rename_i c cs _ hcs
    obtain ⟨ss, n, hletters⟩ := exists_letters h
    refine ⟨ss, n, ?_⟩
    rw [← String.ofList_toList (s := word), hcs]
    exact .letters hletters
  · rename_i _ hshort
    -- What is left is a single dash, or does not begin with one.
    refine ⟨_, _, .file ?_⟩
    by_cases hhead : word.toList.head? = some '-'
    · obtain ⟨cs, hcs⟩ := List.head?_eq_some_iff.mp hhead
      cases cs with
      | nil => exact .inl (String.toList_inj.mp hcs)
      | cons c cs => exact absurd hcs (hshort c cs)
    · exact .inr hhead

theorem Word.ne_dashes {word : String} {ss : List Setting} {n : Next} (h : Word word ss n) :
    word ≠ "--" := by
  cases h with
  | file hpath =>
    rintro rfl
    revert hpath
    decide
  | target t => cases t <;> decide
  | format f => cases f <;> decide
  | letters hletters =>
    intro h
    rw [← String.toList_inj, String.toList_ofList] at h
    exact hletters.ne_dash (List.cons.inj (List.cons.inj h).2).1
  | _ => decide

/-! ## Lines -/

theorem set_eq {o : ValueOption} {text : String} {s : Setting} (h : Value o text s) (d : Draft) :
    d.set o text = d.apply s := by
  cases h <;> rfl

theorem exists_value {d : Draft} {o : ValueOption} {text : String} (h : d.set o text ≠ none) :
    ∃ s, Value o text s := by
  cases o with
  | target =>
    obtain ⟨t, rfl⟩ := Draft.exists_of_setTarget h
    exact ⟨_, .target t⟩
  | format =>
    obtain ⟨f, rfl⟩ := Draft.exists_of_setFormat h
    exact ⟨_, .format f⟩

theorem addPositionals_eq (d : Draft) (paths : List String) :
    d.addPositionals paths = d.applyAll (paths.map .file) := by
  induction paths generalizing d with
  | nil => rfl
  | cons path paths ih =>
    simp only [Draft.addPositionals, ih]
    rfl

/-- The command of the arguments that follow a word. -/
def Next.command (rest : List String) : Next → Draft → Command
  | more, d => readFrom d none rest
  | value o, d => readFrom d (some o) rest
  | stop e, d => e.command d

theorem readFrom_word {word : String} {ss : List Setting} {n : Next} (h : Word word ss n)
    (d : Draft) (rest : List String) :
    readFrom d none (word :: rest) = (d.applyAll ss).elim .misuse (n.command rest) := by
  simp only [readFrom, h.ne_dashes, if_false, argument_eq h]
  cases d.applyAll ss with
  | none => rfl
  | some d => cases n <;> rfl

theorem readFrom_value {o : ValueOption} {text : String} {s : Setting} (h : Value o text s)
    (d : Draft) (rest : List String) :
    readFrom d (some o) (text :: rest) = (d.apply s).elim .misuse (readFrom · none rest) := by
  simp only [readFrom, set_eq h]
  cases d.apply s <;> rfl

/-- **The reader makes the settings of a line, one after the other.** -/
theorem readFrom_eq {args : List String} {ss : List Setting} {e : Ending} (h : Line args ss e)
    (d : Draft) : readFrom d none args = (d.applyAll ss).elim .misuse e.command := by
  induction h generalizing d with
  | nil => rfl
  | dashes paths =>
    simp only [readFrom, if_true, addPositionals_eq]
    cases d.applyAll (paths.map .file) <;> rfl
  | stop hword => exact readFrom_word hword d _
  | @more _ ss _ _ _ hword _ ih =>
    rw [readFrom_word hword, Draft.applyAll_append]
    cases d.applyAll ss with
    | none => rfl
    | some d => exact ih d
  | @value _ _ _ s ss ss' _ _ hword hvalue _ ih =>
    rw [readFrom_word hword, Draft.applyAll_append]
    cases d.applyAll ss with
    | none => rfl
    | some d =>
      show readFrom d _ _ = ((d.apply s).bind (·.applyAll ss')).elim _ _
      rw [readFrom_value hvalue]
      cases d.apply s with
      | none => rfl
      | some d => exact ih d

theorem exists_of_elim_ne {d? : Option Draft} {f : Draft → Command}
    (h : d?.elim .misuse f ≠ .misuse) : ∃ d, f d ≠ .misuse := by
  cases d? with
  | none => exact absurd rfl h
  | some d => exact ⟨d, h⟩

/-- **Arguments that make sense are a line.** -/
theorem exists_line : ∀ {args : List String} {d : Draft}, readFrom d none args ≠ .misuse →
    ∃ ss e, Line args ss e
  | [], _, _ => ⟨_, _, .nil⟩
  | word :: rest, d, h => by
    by_cases hdashes : word = "--"
    · subst hdashes
      exact ⟨_, _, .dashes rest⟩
    obtain ⟨ss, n, hword⟩ : ∃ ss n, Word word ss n :=
      exists_word (d := d) fun hmisuse => h (by simp [readFrom, hdashes, hmisuse])
    rw [readFrom_word hword] at h
    obtain ⟨d, h⟩ := exists_of_elim_ne h
    -- An option takes its value along, so that two words can be gone at once.
    match n, rest with
    | .stop e, _ => exact ⟨_, _, .stop hword⟩
    | .more, rest =>
      obtain ⟨ss', e, hrest⟩ := exists_line h
      exact ⟨_, _, .more hword hrest⟩
    | .value o, [] => exact absurd rfl h
    | .value o, text :: rest =>
      obtain ⟨s, hvalue⟩ : ∃ s, Value o text s :=
        exists_value (d := d) fun hnone => h (by simp [Next.command, readFrom, hnone])
      rw [Next.command, readFrom_value hvalue] at h
      obtain ⟨d, h⟩ := exists_of_elim_ne h
      obtain ⟨ss', e, hrest⟩ := exists_line h
      exact ⟨_, _, .value hword hvalue hrest⟩

theorem Draft.finish_cases (d : Draft) : d.finish = .misuse ∨ ∃ i, d.finish = .compile i := by
  unfold finish
  split
  · exact .inl rfl
  · exact .inr ⟨_, rfl⟩

/-- What is read from a line. -/
theorem read_eq_iff_of_line {args : List String} {ss : List Setting} {e : Ending}
    (h : Line args ss e) {c : Command} (hc : c ≠ .misuse) :
    read args = c ↔ Together ss ∧ e.command (.of ss) = c := by
  have hall : ∀ d, Draft.applyAll {} ss = some d ↔ Together ss ∧ Draft.of ss = d :=
    Draft.applyAll_of together_nil ss
  rw [read, readFrom_eq h]
  cases hd : Draft.applyAll {} ss with
  | none =>
    have hnot : ¬ Together ss := fun ht => by
      rw [(hall _).mpr ⟨ht, rfl⟩] at hd
      cases hd
    simp [hnot, hc.symm]
  | some d =>
    obtain ⟨ht, rfl⟩ := (hall d).mp hd
    simp [ht]

/-- **The command that is read is the one that the rules give.** -/
theorem read_eq_iff {args : List String} {c : Command} (hc : c ≠ .misuse) :
    read args = c ↔ Asks args c := by
  constructor
  · intro h
    obtain ⟨ss, e, hline⟩ : ∃ ss e, Line args ss e :=
      exists_line (d := {}) fun hmisuse => hc (h.symm.trans hmisuse)
    obtain ⟨ht, rfl⟩ := (read_eq_iff_of_line hline hc).mp h
    cases e with
    | whole =>
      rcases (Draft.of ss).finish_cases with hfinish | ⟨i, hfinish⟩
      · exact absurd hfinish hc
      · rw [Ending.command, hfinish]
        exact .compile hline (gives_iff_finish.mpr ⟨ht, hfinish⟩)
    | version => exact .version hline ht
    | help => exact .help hline ht
  · rintro (⟨hline, hgives⟩ | ⟨hline, ht⟩ | ⟨hline, ht⟩)
    · exact (read_eq_iff_of_line hline hc).mpr (gives_iff_finish.mp hgives)
    · exact (read_eq_iff_of_line hline hc).mpr ⟨ht, rfl⟩
    · exact (read_eq_iff_of_line hline hc).mpr ⟨ht, rfl⟩

example : Asks ["-vtjunit", "a.test", "--", "-x"]
    (.compile ⟨"a.test", some "-x", .junit, false, .human, true⟩) :=
  (read_eq_iff (by decide)).mp (by decide +kernel)

end Arguments

end ApiScenario
