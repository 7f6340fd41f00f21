import ApiScenario.CommandLine.Compiler
import ApiScenario.Proofs.ArgumentRules
import ApiScenario.Proofs.CompileOutcome
import ApiScenario.Proofs.WrittenFiles

/-!
# Runs of the compiler

A run of the compiler does all that it was asked for, or nothing (`run_all_or_nothing`): if it
fails, the files are what they were and nothing is said on the standard output; if it succeeds,
one file has been written at most, and it holds what the input compiles to.

All ways in which a run can end are listed once (`Invocation.Ends`); what is said about runs is said
about each of them.
-/

namespace ApiScenario

/-! ## What is to be written -/

/-- The name of the class in a Java file: the stem of the file if that can name a class. -/
inductive ClassName.OfFile (file : String) : String → Prop
  | stem {s : String} : Path.stem? file = some s → ClassName.isValid s = true → OfFile file s
  | other : (∀ s, Path.stem? file = some s → ClassName.isValid s = false) →
      OfFile file "GeneratedTests"

/-- The file that a run writes: the one that is named, or else the one of its target. -/
inductive Invocation.WritesTo (i : Invocation) : String → Prop
  | named {path : String} : i.output? = some path → WritesTo i path
  | rust : i.output? = none → i.target = .rust → WritesTo i "generated_tests.rs"
  | junit : i.output? = none → i.target = .junit → WritesTo i "GeneratedTests.java"

/-- The options that a run compiles with: those for its target, and for a Java file the class is
named after the file. -/
structure Invocation.CompilesWith (i : Invocation) (file : String) (o : Options) : Prop where
  target : o.target = i.target
  className : i.target = .junit → ClassName.OfFile file o.className

theorem Invocation.writesTo_output (i : Invocation) : i.WritesTo i.output := by
  unfold output
  cases houtput : i.output? with
  | some path => exact .named houtput
  | none =>
    cases htarget : i.target with
    | rust => exact .rust houtput htarget
    | junit => exact .junit houtput htarget

theorem Invocation.WritesTo.eq_output {i : Invocation} {path : String} (h : i.WritesTo path) :
    path = i.output := by
  cases h with
  | named houtput => simp [output, houtput]
  | rust houtput htarget => simp [output, houtput, htarget, Target.outputFile]
  | junit houtput htarget => simp [output, houtput, htarget, Target.outputFile]

theorem Invocation.ofFile_className (i : Invocation) : ClassName.OfFile i.output i.className := by
  unfold className
  cases hstem : Path.stem? i.output with
  | none => exact .other (by simp [hstem])
  | some s =>
    show ClassName.OfFile i.output (ClassName.choose s)
    unfold ClassName.choose
    cases hvalid : ClassName.isValid s with
    | true => exact .stem hstem hvalid
    | false =>
      refine .other fun s' hs' => ?_
      obtain rfl : s = s' := Option.some.inj (hstem.symm.trans hs')
      exact hvalid

theorem Invocation.compilesWith_options (i : Invocation) : i.CompilesWith i.output i.options := by
  unfold options
  cases htarget : i.target with
  | rust => exact ⟨htarget.symm, fun h => by rw [htarget] at h; cases h⟩
  | junit => exact ⟨htarget.symm, fun _ => i.ofFile_className⟩

/-- A run has written its output and done nothing else to the files. -/
def Invocation.Wrote (i : Invocation) (t t' : FileTree) : Prop :=
  ∃ (source file text : String) (o : Options), t.read i.input = .ok source ∧ i.WritesTo file ∧
    i.CompilesWith file o ∧ compile o source = .ok text ∧ t.Written file text t'

/-! ## How a run can end -/

/-- The ends of a run on a file tree: what it leaves on its channels, and the tree after it. -/
inductive Invocation.Ends (i : Invocation) (t : FileTree) : Outcome → FileTree → Prop
  /-- The input cannot be read. -/
  | unread {e : FileError} {stderr : String} :
      t.read i.input = .error e → Ends i t ⟨1, "", stderr⟩ t
  /-- The input does not compile. -/
  | failed {source stderr : String} {e : SourceError} :
      t.read i.input = .ok source → Program.check source = .error e →
      Ends i t ⟨(CompileError.source e).exitCode, "", stderr⟩ t
  /-- The input compiles, and nothing is to be written. -/
  | checked {source text stdout : String} :
      t.read i.input = .ok source → compile i.options source = .ok text → i.check = true →
      Ends i t ⟨0, stdout, ""⟩ t
  /-- The output cannot be written. -/
  | unwritten {source text stderr : String} {e : FileError} :
      t.read i.input = .ok source → compile i.options source = .ok text → i.check = false →
      t.target i.output = .error e → Ends i t ⟨1, "", stderr⟩ t
  | written {source text stdout : String} {l : Location} :
      t.read i.input = .ok source → compile i.options source = .ok text → i.check = false →
      t.target i.output = .ok l →
      Ends i t ⟨0, stdout, ""⟩ (t.put l (.file text.toUTF8))

/-- **A run ends in one of these ways.** -/
theorem Invocation.ends_run (i : Invocation) (t : FileTree) :
    i.Ends t (i.run t).1 (i.run t).2 := by
  unfold run next
  cases hread : t.read i.input with
  | error e => exact .unread hread
  | ok source =>
    cases hcompile : compile i.options source with
    | error e =>
      obtain ⟨e', hcheck, rfl⟩ := (compile_error_iff i.options source e).mp hcompile
      simp only [hcompile]
      exact .failed hread hcheck
    | ok text =>
      cases hmode : i.check with
      | true =>
        simp only [hcompile]
        exact .checked hread hcompile hmode
      | false =>
        simp only [hcompile, Bool.false_eq_true, if_false, FileTree.write]
        cases htarget : t.target i.output with
        | error e => exact .unwritten hread hcompile hmode htarget
        | ok l => exact .written hread hcompile hmode htarget

/-! ## What follows from how a run ends -/

theorem CompileError.exitCode_source (e : SourceError) :
    (CompileError.source e).exitCode = 3 ∧ (∃ l, e = .lexical l) ∨
    (CompileError.source e).exitCode = 4 ∧ (∃ u, e = .unexpected u) ∨
    (CompileError.source e).exitCode = 5 ∧ ∃ ds, e = .invalid ds := by
  cases e with
  | lexical l => exact .inl ⟨rfl, l, rfl⟩
  | unexpected u => exact .inr (.inl ⟨rfl, u, rfl⟩)
  | invalid ds => exact .inr (.inr ⟨rfl, ds, rfl⟩)

namespace Invocation.Ends

variable {i : Invocation} {t t' : FileTree} {o : Outcome}

/-- A run that fails leaves the files as they were and says nothing on the standard output. -/
theorem unchanged (h : i.Ends t o t') (hcode : o.exitCode ≠ 0) : t' = t ∧ o.stdout = "" := by
  cases h with
  | unread _ => exact ⟨rfl, rfl⟩
  | failed _ _ => exact ⟨rfl, rfl⟩
  | checked _ _ _ => exact absurd rfl hcode
  | unwritten _ _ _ _ => exact ⟨rfl, rfl⟩
  | written _ _ _ _ => exact absurd rfl hcode

/-- A run that succeeds has written its output, unless it was to write nothing. -/
theorem done (h : i.Ends t o t') (hcode : o.exitCode = 0) :
    (i.check = true → t' = t) ∧ (i.check = false → i.Wrote t t') := by
  cases h with
  | unread _ => cases hcode
  | @failed _ _ e _ _ =>
    rcases CompileError.exitCode_source e with ⟨h, -⟩ | ⟨h, -⟩ | ⟨h, -⟩ <;>
      exact absurd (h.symm.trans hcode) (by decide)
  | checked _ _ hmode => simp [hmode]
  | unwritten _ _ _ _ => cases hcode
  | @written source text _ l hread hcompile hmode htarget =>
    have hwrite : t.write i.output text = .ok (t.put l (.file text.toUTF8)) := by
      rw [FileTree.write, htarget]
      rfl
    refine ⟨by simp [hmode], fun _ => ?_⟩
    exact ⟨source, i.output, text, i.options, hread, i.writesTo_output, i.compilesWith_options,
      hcompile, FileTree.written_of_write hwrite⟩

theorem exitCode_ne (h : i.Ends t o t') : o.exitCode ≠ 70 := by
  cases h with
  | @failed _ _ e _ _ =>
    rcases CompileError.exitCode_source e with ⟨h, -⟩ | ⟨h, -⟩ | ⟨h, -⟩ <;>
      exact fun hcode => absurd (h.symm.trans hcode) (by decide)
  | _ => simp

variable {source : String}

/-- What is known of a run whose input could be read. -/
theorem of_read (h : i.Ends t o t') (hsource : t.read i.input = .ok source) :
    (∃ e, Program.check source = .error e ∧ o.exitCode = (CompileError.source e).exitCode) ∨
    (∃ p, Program.check source = .ok p) ∧
      (o.exitCode = 0 ∧ (i.check = true ∨ ∃ l, t.target i.output = .ok l) ∨
        o.exitCode = 1 ∧ i.check = false ∧ ∃ e, t.target i.output = .error e) := by
  have hsame : ∀ {source'}, t.read i.input = .ok source' → source' = source :=
    fun hread => Except.ok.inj (hread.symm.trans hsource)
  have hok : ∀ {text}, compile i.options source = .ok text → ∃ p, Program.check source = .ok p :=
    fun hcompile => (compile_ok_iff i.options source).mp ⟨_, hcompile⟩
  cases h with
  | unread hread =>
    rw [hsource] at hread
    cases hread
  | failed hread hcheck =>
    obtain rfl := hsame hread
    exact .inl ⟨_, hcheck, rfl⟩
  | checked hread hcompile hmode =>
    obtain rfl := hsame hread
    exact .inr ⟨hok hcompile, .inl ⟨rfl, .inl hmode⟩⟩
  | unwritten hread hcompile hmode htarget =>
    obtain rfl := hsame hread
    exact .inr ⟨hok hcompile, .inr ⟨rfl, hmode, _, htarget⟩⟩
  | written hread hcompile _ htarget =>
    obtain rfl := hsame hread
    exact .inr ⟨hok hcompile, .inl ⟨rfl, .inr ⟨_, htarget⟩⟩⟩

/-- Exit codes above 1 are those of the errors of the input. -/
theorem exitCode_eq_iff (h : i.Ends t o t') (hsource : t.read i.input = .ok source) {n : Nat}
    (hn : 1 < n) :
    o.exitCode = n ↔
      ∃ e, Program.check source = .error e ∧ (CompileError.source e).exitCode = n := by
  rcases h.of_read hsource with ⟨e, hcheck, hcode⟩ | ⟨⟨p, hcheck⟩, hcode⟩
  · simp [hcheck, hcode]
  · have hsmall : o.exitCode ≤ 1 := by
      rcases hcode with ⟨h, -⟩ | ⟨h, -⟩ <;> omega
    simp only [hcheck, reduceCtorEq, false_and, exists_false, iff_false]
    omega

/-- A run whose input compiles succeeds if it is to write nothing, or can write its output. -/
theorem exitCode_eq_zero_iff (h : i.Ends t o t') (hsource : t.read i.input = .ok source)
    {p : Program} (hcheck : Program.check source = .ok p) :
    o.exitCode = 0 ↔ i.check = true ∨ ∃ l, t.target i.output = .ok l := by
  rcases h.of_read hsource with ⟨e, herror, -⟩ | ⟨-, ⟨hcode, hend⟩ | ⟨hcode, hmode, e, htarget⟩⟩
  · rw [hcheck] at herror
    cases herror
  · exact ⟨fun _ => hend, fun _ => hcode⟩
  · simp [hcode, hmode, htarget]

end Invocation.Ends

/-! ## Stages of compilation -/

/-- Which stage an input fails in, seen by its exit code, whatever the options. -/
theorem exists_check_error_iff (o : Options) (source : String) :
    ((∃ e, Program.check source = .error e ∧ (CompileError.source e).exitCode = 3) ↔
      ∃ l, compile o source = .error (.source (.lexical l))) ∧
    ((∃ e, Program.check source = .error e ∧ (CompileError.source e).exitCode = 4) ↔
      ∃ u, compile o source = .error (.source (.unexpected u))) ∧
    ((∃ e, Program.check source = .error e ∧ (CompileError.source e).exitCode = 5) ↔
      ∃ ds, compile o source = .error (.source (.invalid ds))) := by
  simp only [compile_error_iff, CompileError.source.injEq]
  cases hcheck : Program.check source with
  | ok p => simp
  | error e => cases e <;> simp [CompileError.exitCode]

/-- The exit code of a run whose input can be read tells how far the input came. -/
theorem Invocation.Ends.stages {i : Invocation} {t t' : FileTree} {o : Outcome} {source : String}
    (h : i.Ends t o t') (hsource : t.read i.input = .ok source) (opts : Options) :
    (o.exitCode = 3 ↔ ∃ l, compile opts source = .error (.source (.lexical l))) ∧
    (o.exitCode = 4 ↔ ∃ u, compile opts source = .error (.source (.unexpected u))) ∧
    (o.exitCode = 5 ↔ ∃ ds, compile opts source = .error (.source (.invalid ds))) ∧
    ((∃ text, compile opts source = .ok text) → ∀ file, i.WritesTo file →
      (o.exitCode = 0 ↔ i.check = true ∨ ∃ l, t.target file = .ok l)) := by
  obtain ⟨hlexical, hunexpected, hinvalid⟩ := exists_check_error_iff opts source
  refine ⟨?_, ?_, ?_, ?_⟩
  · exact (h.exitCode_eq_iff hsource (by decide)).trans hlexical
  · exact (h.exitCode_eq_iff hsource (by decide)).trans hunexpected
  · exact (h.exitCode_eq_iff hsource (by decide)).trans hinvalid
  · intro hcompiles file hfile
    obtain rfl := hfile.eq_output
    -- Whether an input compiles does not depend on the options.
    obtain ⟨p, hcheck⟩ := (compile_ok_iff opts source).mp hcompiles
    exact h.exitCode_eq_zero_iff hsource hcheck

/-- **A run of the compiler does all that it was asked for, or nothing.** If it fails, the files
are what they were and the standard output is empty. If it succeeds, it was asked for the version
or to write nothing, and the files are what they were; or it has written what the input compiled
to, as the input was before the run, and nothing else. Inputs that can be read fail with the exit
code of the stage that refuses them, otherwise the run succeeds if it can write its output; and
the exit code of an internal error does not occur. -/
theorem run_all_or_nothing (args : List String) (t : FileTree)
    (hhelp : ¬ Arguments.Asks args .help) :
    let o := (runCompiler args t).1
    let t' := (runCompiler args t).2
    (o.exitCode ≠ 0 → t' = t ∧ o.stdout = "") ∧
    (o.exitCode = 0 →
      Arguments.Asks args .version ∧ t' = t ∨
      ∃ i, Arguments.Asks args (.compile i) ∧
        (i.check = true → t' = t) ∧ (i.check = false → i.Wrote t t')) ∧
    (∀ (i : Invocation) (source : String), Arguments.Asks args (.compile i) →
      t.read i.input = .ok source → ∀ opts : Options,
      (o.exitCode = 3 ↔ ∃ l, compile opts source = .error (.source (.lexical l))) ∧
      (o.exitCode = 4 ↔ ∃ u, compile opts source = .error (.source (.unexpected u))) ∧
      (o.exitCode = 5 ↔ ∃ ds, compile opts source = .error (.source (.invalid ds))) ∧
      ((∃ text, compile opts source = .ok text) → ∀ file, i.WritesTo file →
        (o.exitCode = 0 ↔ i.check = true ∨ ∃ l, t.target file = .ok l))) ∧
    o.exitCode ≠ 70 := by
  simp only [← Arguments.read_eq_iff, ne_eq, reduceCtorEq, not_false_eq_true] at hhelp ⊢
  unfold runCompiler
  generalize Arguments.read args = c at hhelp ⊢
  cases c with
  | help => exact absurd rfl hhelp
  | version =>
    refine ⟨fun hcode => absurd rfl hcode, fun _ => .inl ⟨rfl, rfl⟩, ?_, ?_⟩
    · rintro i source ⟨⟩
    · exact show (0 : Nat) ≠ 70 by decide
  | misuse =>
    refine ⟨fun _ => ⟨rfl, rfl⟩, ?_, ?_, ?_⟩
    · rintro ⟨⟩
    · rintro i source ⟨⟩
    · exact show (2 : Nat) ≠ 70 by decide
  | compile i =>
    have hends := i.ends_run t
    refine ⟨hends.unchanged, fun hcode => .inr ⟨i, rfl, hends.done hcode⟩, ?_, hends.exitCode_ne⟩
    rintro i' source ⟨⟩ hsource opts
    exact hends.stages hsource opts

/-- The output of a run is its input: it then holds what it compiled to before, in a class named
after it. -/
theorem run_all_or_nothing_in_place :
    let source := "test t \x7b GET \"/$\" \x7b \x7d assert_status(200); assert_status(200); \x7d"
    let args := ["Suite.test", "-tjunit", "Suite.test"]
    let t := FileTree.empty.put ⟨.working 0, ["Suite.test"]⟩ (.file source.toUTF8)
    t.read "Suite.test" = .ok source ∧ (runCompiler args t).1.exitCode = 0 ∧
      ∃ text, compile ⟨.junit, "Suite"⟩ source = .ok text ∧
        (runCompiler args t).2.read "Suite.test" = .ok text := by
  intro source args t
  have htarget : FileTree.empty.IsTarget "Suite.test" ⟨.working 0, ["Suite.test"]⟩ :=
    FileTree.isTarget_of_target (by decide +kernel)
  have hread : t.read "Suite.test" = .ok source := htarget.read_put source
  have hargs : Arguments.read args = .compile
      ⟨"Suite.test", some "Suite.test", .junit, false, .human, false⟩ := by decide +kernel
  obtain ⟨p, hcheck⟩ : ∃ p, Program.check source = .ok p := by
    have hok : (Program.check source).isOk = true := by decide +kernel
    cases hcheck : Program.check source with
    | ok p => exact ⟨p, rfl⟩
    | error e =>
      rw [hcheck] at hok
      cases hok
  have hplace : t.target "Suite.test" = .ok ⟨.working 0, ["Suite.test"]⟩ := by decide +kernel
  have hasks : ∀ c, c ≠ .misuse → Arguments.Asks args c → c = .compile
      ⟨"Suite.test", some "Suite.test", .junit, false, .human, false⟩ := fun c hc h =>
    ((Arguments.read_eq_iff hc).mpr h).symm.trans hargs
  obtain ⟨-, hsuccess, hstages, -⟩ := run_all_or_nothing args t fun h => by
    cases hasks _ (by simp) h
  have hcode := ((hstages _ source ((Arguments.read_eq_iff (by simp)).mp hargs) hread {}).2.2.2
    (compile_of_check {} hcheck) _ (.named rfl)).mpr (.inr ⟨_, hplace⟩)
  rcases hsuccess hcode with ⟨hversion, -⟩ | ⟨i, hi, -, hwrote⟩
  · cases hasks _ (by simp) hversion
  · obtain rfl := Command.compile.inj (hasks _ (by simp) hi)
    obtain ⟨source', file, text, ⟨target, name⟩, hsource, hfile, hwith, hcompile, hwritten⟩ :=
      hwrote rfl
    obtain rfl : source = source' := Except.ok.inj (hread.symm.trans hsource)
    obtain rfl : file = "Suite.test" := hfile.eq_output
    obtain rfl : target = .junit := hwith.target
    have hstem : Path.stem? "Suite.test" = some "Suite" := by decide +kernel
    obtain rfl : name = "Suite" := by
      rcases hwith.className rfl with ⟨hs, -⟩ | hother
      · exact Option.some.inj (hs.symm.trans hstem)
      · exact absurd (hother "Suite" hstem) (by decide +kernel)
    exact ⟨hread, hcode, text, hcompile, hwritten.read⟩

end ApiScenario
