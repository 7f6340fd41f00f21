import ApiScenario.Compile
import ApiScenario.Proofs.Lowering

/-!
# The outcome of compilation

Whether a text compiles is decided when it is read and checked. What comes after the check, the
lowering and the writing for a target, adds no failure of its own.
-/

namespace ApiScenario

/-- A checked program is one that breaks no rule. -/
theorem validate_of_check {source : String} {p : Program} (h : Program.check source = .ok p) :
    p.validate = .ok () := by
  unfold Program.check at h
  split at h
  · cases h
  · split at h
    · cases h
    · next hv => cases h; exact hv

theorem compile_of_check {source : String} {p : Program} (o : Options)
    (h : Program.check source = .ok p) : ∃ text, compile o source = .ok text := by
  obtain ⟨plan, hplan⟩ := lower_of_validate (validate_of_check h)
  refine ⟨codeText (o.file plan), ?_⟩
  simp only [compile, h, Program.generate, hplan]

theorem compile_of_check_error {source : String} {e : SourceError} (o : Options)
    (h : Program.check source = .error e) : compile o source = .error (.source e) := by
  simp only [compile, h]

/-- Compilation in one step: what is read, what is wrong with it, and what is generated. -/
theorem compile_eq (o : Options) (source : String) :
    compile o source = match Program.parse source with
      | .error e => .error (.source e)
      | .ok p =>
        match p.diagnostics with
        | [] => p.generate o
        | d :: ds => .error (.source (.invalid (d :: ds))) := by
  unfold compile Program.check Program.validate
  cases Program.parse source with
  | error e => rfl
  | ok p =>
    dsimp only
    cases p.diagnostics <;> rfl

/-- A text compiles if and only if it passes the check. -/
theorem compile_ok_iff (o : Options) (source : String) :
    (∃ text, compile o source = .ok text) ↔ ∃ p, Program.check source = .ok p := by
  constructor
  · rintro ⟨text, h⟩
    cases hc : Program.check source with
    | ok p => exact ⟨p, rfl⟩
    | error e => rw [compile_of_check_error o hc] at h; cases h
  · rintro ⟨p, h⟩
    exact compile_of_check o h

/-- A text fails to compile with exactly the error of its check. -/
theorem compile_error_iff (o : Options) (source : String) (e : CompileError) :
    compile o source = .error e ↔ ∃ e', Program.check source = .error e' ∧ e = .source e' := by
  constructor
  · intro h
    cases hc : Program.check source with
    | ok p =>
      obtain ⟨text, ht⟩ := compile_of_check o hc
      rw [ht] at h; cases h
    | error e' =>
      rw [compile_of_check_error o hc] at h
      cases h
      exact ⟨e', rfl, rfl⟩
  · rintro ⟨e', h, rfl⟩
    exact compile_of_check_error o h

/-- **Compilation succeeds exactly when the check does, and fails with the error of the check.** The
options have no part in it, and the compiler itself is never at fault. -/
theorem compile_outcome_eq_check (source : String) :
    (∀ o : Options,
      (∃ text, compile o source = .ok text) ↔ ∃ p, Program.check source = .ok p) ∧
    (∀ (o : Options) (e : CompileError), compile o source = .error e ↔
      ∃ e', Program.check source = .error e' ∧ e = .source e') ∧
    (∀ o o' : Options,
      ((∃ text, compile o source = .ok text) ↔ ∃ text, compile o' source = .ok text) ∧
      ∀ e : CompileError, compile o source = .error e ↔ compile o' source = .error e) ∧
    (∀ (o : Options) (e : CompileError), compile o source = .error e →
      (∀ detail : String, e ≠ .internal detail) ∧ e.exitCode ≠ 70) := by
  refine ⟨fun o => compile_ok_iff o source, fun o e => compile_error_iff o source e, ?_, ?_⟩
  · intro o o'
    refine ⟨?_, fun e => ?_⟩
    · rw [compile_ok_iff, compile_ok_iff]
    · rw [compile_error_iff, compile_error_iff]
  · intro o e h
    obtain ⟨e', -, rfl⟩ := (compile_error_iff o source e).mp h
    refine ⟨fun detail => by simp, ?_⟩
    cases e' <;> simp [CompileError.exitCode]

end ApiScenario
