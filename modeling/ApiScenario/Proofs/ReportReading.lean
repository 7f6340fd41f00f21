import Mathlib.Control.Monad.Basic
import ApiScenario.CommandLine.Compiler
import ApiScenario.Proofs.CompactJson

/-!
# Reports for programs

What is reported for programs can be read back: the report of an error is one JSON text on a line
of its own, which holds the message and the exit code, and it holds all there is to know about the
error (`json_report_loses_nothing`). Where a part of an error has no field of its own, as the reason
of a lexical error, it stands in the message between parts that have one.
-/

namespace ApiScenario.Report

/-! ## Fields -/

/-- The order of names by the code points of their characters. -/
def Precedes (a b : String) : Prop :=
  List.Lex (fun c d : Char => c.toNat < d.toNat) a.toList b.toList

instance (a b : String) : Decidable (Precedes a b) :=
  inferInstanceAs (Decidable (List.Lex (fun c d : Char => c.toNat < d.toNat) a.toList b.toList))

/-- A report is an object. Its fields have different names and are in their order. -/
theorem exists_fields (file : String) (e : CompileError) :
    ∃ fields, value file e = .object fields ∧ (fields.map Prod.fst).Pairwise Precedes ∧
      fields.lookup "message" = some (.string e.message) ∧
      fields.lookup "exit_code" = some (.number e.exitCode) := by
  rcases e with (l | u | ds) | detail
  all_goals
    refine ⟨_, rfl, ?_, rfl, rfl⟩
    simp only [List.map_cons, List.map_nil]
    decide +kernel

/-! ## Reports determine errors -/

/-- A place is told by its line and its column. -/
theorem place_eq {p q : Position} (hcolumn : p.column.toNat = q.column.toNat)
    (hline : p.line.toNat = q.line.toNat) : p = q := by
  obtain ⟨line, column⟩ := p
  obtain ⟨line', column'⟩ := q
  rw [Position.mk.injEq]
  exact ⟨UInt32.toNat_inj.mp hline, UInt32.toNat_inj.mp hcolumn⟩

theorem position_eq {o o' : Option Position}
    (hcolumn : Json.ofOption (.number ·.column.toNat) o = Json.ofOption (.number ·.column.toNat) o')
    (hline : Json.ofOption (.number ·.line.toNat) o = Json.ofOption (.number ·.line.toNat) o') :
    o = o' := by
  cases o with
  | none =>
    cases o' with
    | none => rfl
    | some q => cases hcolumn
  | some p =>
    cases o' with
    | none => cases hcolumn
    | some q => rw [place_eq (Json.number.inj hcolumn) (Json.number.inj hline)]

theorem test_eq {o o' : Option String} (h : Json.ofOption .string o = Json.ofOption .string o') :
    o = o' := by
  cases o with
  | none =>
    cases o' with
    | none => rfl
    | some name => cases h
  | some name =>
    cases o' with
    | none => cases h
    | some name' =>
      cases h
      rfl

theorem diagnostic_inj {d d' : Diagnostic} (h : diagnostic d = diagnostic d') : d = d' := by
  simp only [diagnostic, Json.object.injEq, List.cons.injEq, Prod.mk.injEq, true_and,
    Json.string.injEq, and_true] at h
  obtain ⟨hcolumn, hline, hmessage, htest⟩ := h
  obtain ⟨message, test, position⟩ := d
  obtain ⟨message', test', position'⟩ := d'
  rw [Diagnostic.mk.injEq]
  exact ⟨hmessage, test_eq htest, position_eq hcolumn hline⟩

/-- The reason of a lexical error stands in its message, behind the place and before the
character. -/
theorem reason_eq {position : Position} {found : Char} {reason reason' : String}
    (h : LexicalError.message ⟨position, found, reason⟩ =
      LexicalError.message ⟨position, found, reason'⟩) : reason = reason' := by
  unfold LexicalError.message at h
  rw [String.append_left_inj, String.append_left_inj, String.append_right_inj] at h
  exact h

theorem lexical_eq {file : String} {l l' : LexicalError}
    (h : value file (.source (.lexical l)) = value file (.source (.lexical l'))) : l = l' := by
  simp only [value, Json.object.injEq, List.cons.injEq, Prod.mk.injEq, true_and, and_true,
    Json.string.injEq, Json.number.injEq] at h
  obtain ⟨hcolumn, -, hfound, -, hline, hmessage⟩ := h
  obtain ⟨position, found, reason⟩ := l
  obtain ⟨position', found', reason'⟩ := l'
  obtain rfl : found = found' := by
    have hchars := congrArg String.toList hfound
    rw [String.toList_singleton, String.toList_singleton] at hchars
    exact (List.cons.inj hchars).1
  obtain rfl : position = position' := place_eq hcolumn hline
  rw [reason_eq hmessage]

theorem unexpected_eq {file : String} {u u' : UnexpectedToken}
    (h : value file (.source (.unexpected u)) = value file (.source (.unexpected u'))) :
    u = u' := by
  simp only [value, Json.object.injEq, List.cons.injEq, Prod.mk.injEq, true_and, and_true,
    Json.string.injEq, Json.number.injEq, Json.array.injEq] at h
  obtain ⟨hcolumn, -, hexpected, hfound, -, hline, -⟩ := h
  obtain ⟨position, expected, found⟩ := u
  obtain ⟨position', expected', found'⟩ := u'
  obtain rfl : position = position' := place_eq hcolumn hline
  cases hfound
  obtain rfl : expected = expected' :=
    (List.map_inj_right fun _ _ h => Json.string.inj h).mp hexpected
  rfl

theorem invalid_eq {file : String} {ds ds' : List Diagnostic}
    (h : value file (.source (.invalid ds)) = value file (.source (.invalid ds'))) : ds = ds' := by
  simp only [value, Json.object.injEq, List.cons.injEq, Prod.mk.injEq, true_and,
    Json.array.injEq] at h
  exact (List.map_inj_right fun _ _ h => diagnostic_inj h).mp h.1

theorem internal_eq {file detail detail' : String}
    (h : value file (.internal detail) = value file (.internal detail')) : detail = detail' := by
  simp only [value, Json.object.injEq, List.cons.injEq, Prod.mk.injEq, true_and, and_true,
    Json.string.injEq] at h
  exact (String.append_right_inj _).mp h.2.2

/-- Errors with the same report end with the same exit code, so they are of one kind. -/
theorem exitCode_eq {file : String} {e e' : CompileError} (h : value file e = value file e') :
    e.exitCode = e'.exitCode := by
  obtain ⟨fields, hfields, -, -, hcode⟩ := exists_fields file e
  obtain ⟨fields', hfields', -, -, hcode'⟩ := exists_fields file e'
  rw [hfields, hfields', Json.object.injEq] at h
  rw [h, hcode', Option.some.injEq, Json.number.injEq] at hcode
  exact hcode.symm

/-- Reports of one file tell all errors apart. -/
theorem value_inj {file : String} {e e' : CompileError} (h : value file e = value file e') :
    e = e' := by
  have hcode := exitCode_eq h
  rcases e with (l | u | ds) | detail <;> rcases e' with (l' | u' | ds') | detail' <;>
    simp [CompileError.exitCode] at hcode
  · rw [lexical_eq h]
  · rw [unexpected_eq h]
  · rw [invalid_eq h]
  · rw [internal_eq h]

/-! ## Texts -/

/-- A report is a JSON text for its value, in front of a line feed. -/
theorem isText_value (file : String) (e : CompileError) :
    Json.IsText (value file e) (value file e).text.toList := by
  rw [Json.text, String.toList_ofList]
  exact (Json.derives_chars _).bare

theorem json_inj {file : String} {e e' : CompileError} (h : json file e = json file e') :
    e = e' := by
  unfold json at h
  rw [String.append_left_inj] at h
  have htext := isText_value file e
  rw [h] at htext
  exact value_inj (htext.unique (isText_value file e'))

/-- **Reports for programs lose nothing.** The report of any error in a file is one line and a line
feed. The line holds no control character and is a JSON text for an object and for nothing else. The
names of the fields increase, and two of the fields are the message and the exit code of the error.
No other error has the same report for this file. It is what a run leaves on its error channel, log
lines apart. -/
theorem json_report_loses_nothing (file : String) (e : CompileError) :
    (∃ line fields, ReportFormat.json.report file e = line ++ "\n" ∧
      (∀ c ∈ line.toList, 0x20 ≤ c.toNat) ∧
      (∀ j, Json.IsText j line.toList ↔ j = .object fields) ∧
      (fields.map Prod.fst).Pairwise Precedes ∧
      fields.lookup "message" = some (.string e.message) ∧
      fields.lookup "exit_code" = some (.number e.exitCode)) ∧
    (∀ e', ReportFormat.json.report file e' = ReportFormat.json.report file e → e' = e) ∧
    ∀ (i : Invocation) (source : String), i.format = .json → i.input = file →
      compile i.options source = .error e →
      i.next (.ok source) = .stop ⟨e.exitCode, "", ReportFormat.json.report file e⟩ := by
  refine ⟨?_, fun e' h => json_inj h, ?_⟩
  · obtain ⟨fields, hfields, hnames, hmessage, hcode⟩ := exists_fields file e
    refine ⟨(value file e).text, fields, rfl, ?_, fun j => ⟨?_, ?_⟩, hnames, hmessage, hcode⟩
    · intro c hc
      rw [Json.text, String.toList_ofList] at hc
      exact Json.le_toNat_of_mem_chars _ c hc
    · intro hj
      rw [← hfields]
      exact hj.unique (isText_value file e)
    · rintro rfl
      rw [← hfields]
      exact isText_value file e
  · rintro i source hformat rfl herror
    rw [Invocation.next, herror, hformat]

/-- A run on a text that breaks off, and two errors that differ in a line break. -/
theorem json_report_loses_nothing_broken_off :
    compile (Invocation.options ⟨"api.tst", none, .rust, false, .json, false⟩) "config" =
      .error (.source (.unexpected ⟨⟨1, 7⟩, ["'\x7b'"], "end of input"⟩)) ∧
    Invocation.next ⟨"api.tst", none, .rust, false, .json, false⟩ (.ok "config") =
      .stop ⟨4, "", json "api.tst" (.source (.unexpected ⟨⟨1, 7⟩, ["'\x7b'"], "end of input"⟩))⟩ ∧
    json "api.tst" (.internal "no\nplan") ≠ json "api.tst" (.internal "no plan") := by
  have hparse : Program.parse "config" =
      .error (.unexpected ⟨⟨1, 7⟩, ["'\x7b'"], "end of input"⟩) := by
    decide +kernel
  have hcompile :
      compile (Invocation.options ⟨"api.tst", none, .rust, false, .json, false⟩) "config" =
        .error (.source (.unexpected ⟨⟨1, 7⟩, ["'\x7b'"], "end of input"⟩)) := by
    rw [compile, Program.check, hparse]
  refine ⟨hcompile, (json_report_loses_nothing _ _).2.2 _ _ rfl rfl hcompile, fun h => ?_⟩
  have heq := (json_report_loses_nothing "api.tst" (.internal "no plan")).2.1 _ h
  exact absurd heq (by decide +kernel)

end ApiScenario.Report
