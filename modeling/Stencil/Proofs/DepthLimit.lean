import Stencil.Proofs.Following
import Stencil.Proofs.Room
import Stencil.Engine

/-!
# The limit of nesting

Parsing and evaluation count blocks and calls each on their own.  They agree:
what parsing accepts fits into the limit of an evaluation, so that only parsing
ever refuses a template for its depth.
-/

namespace Stencil

/-- Whether an error says that the limit of nesting was reached while a template
was evaluated. -/
def TemplateError.exceedsLimit : TemplateError → Bool
  | .malformed _ _ => false
  | .stopped error => error.fault.exceedsLimit

/-- A template is nested too deeply for settings if, with a limit that is high
enough to read it, its program is nested deeper than the settings allow. -/
def Settings.NestTooDeep (settings : Settings) (template : String) : Prop :=
  ∃ higher : Nat, settings.maxDepth <
    (parseTemplate { settings with maxDepth := higher } template).program.nesting

theorem parseTemplate_nesting_le (settings : Settings) (template : String) :
    (parseTemplate settings template).program.nesting ≤ settings.maxDepth :=
  nesting_ofTokens settings.maxDepth (tokenize settings.trimLineBreaks template).1

/-- If a limit is too low for a template, its excess is reported. -/
theorem exists_tooDeep_report {limit higher : Nat} {tokens : List Token}
    (deeper : limit < (Program.ofTokens higher tokens).1.nesting) :
    ∃ report ∈ (Program.ofTokens limit tokens).2,
      report.fault = .nestingTooDeep limit := by
  apply Classical.byContradiction
  intro noReport
  have withinHigher := nesting_ofTokens higher tokens
  -- Without the report the lower limit reads the same nodes, and they are not so deep.
  have same : templateReading higher tokens = templateReading limit tokens := by
    apply templateReading_higher (by omega) tokens
    intro report member tooDeep
    exact noReport ⟨report, member, tooDeep⟩
  have sameNodes : (Program.ofTokens higher tokens).1.nodes =
      (Program.ofTokens limit tokens).1.nodes :=
    congrArg Reading.value same
  have withinLimit := nesting_ofTokens limit tokens
  simp only [Program.nesting, sameNodes] at deeper withinLimit
  omega

/-- A template that is nested too deeply has a diagnostic of its depth. -/
theorem exists_tooDeep_diagnostic {settings : Settings} {template : String}
    (tooDeep : settings.NestTooDeep template) :
    ∃ diagnostic ∈ (parseTemplate settings template).diagnostics,
      diagnostic.code = some "E0014" := by
  obtain ⟨higher, deeper⟩ := tooDeep
  obtain ⟨report, member, fault⟩ := exists_tooDeep_report deeper
  refine ⟨report.diagnostic ⟨templateName, template⟩, ?_, ?_⟩
  · refine List.mem_mergeSort.mpr (List.mem_map_of_mem ?_)
    exact List.mem_append_right _ member
  · simp [Report.diagnostic, Fault.diagnosticAt, fault, Fault.code]

namespace Engine

section Answers

variable {engine : Engine} {template : String}

theorem resolve_of_clean (clean : (engine.parse template).diagnostics = [])
    (data : Fields) :
    (engine.resolve template data).answer =
      (engine.evaluateRecord (engine.parse template) data).answer := by
  simp [resolve, ParsedTemplate.program?, clean]

theorem resolveBatch_of_clean (clean : (engine.parse template).diagnostics = [])
    (records : List Fields) :
    (engine.resolveBatch template records).answer =
      .ok (records.map fun data =>
        (engine.evaluateRecord (engine.parse template) data).answer) := by
  simp [resolveBatch, ParsedTemplate.program?, clean]

theorem resolve_of_malformed (malformed : (engine.parse template).diagnostics ≠ [])
    (data : Fields) :
    (engine.resolve template data).answer =
      .error (.malformed (engine.parse template).diagnostics
        ((engine.parse template).report false)) := by
  simp [resolve, ParsedTemplate.program?, malformed]

theorem resolveBatch_of_malformed
    (malformed : (engine.parse template).diagnostics ≠ [])
    (records : List Fields) :
    (engine.resolveBatch template records).answer =
      .error (.malformed (engine.parse template).diagnostics
        ((engine.parse template).report false)) := by
  simp [resolveBatch, ParsedTemplate.program?, malformed]

end Answers

/-- Evaluating a parsed template against a record never reaches the limit. -/
theorem evaluateRecord_withinLimit (engine : Engine) (template : String)
    (data : Fields) {error : TemplateError}
    (failed : (engine.evaluateRecord (engine.parse template) data).answer =
      .error error) :
    error.exceedsLimit = false := by
  let evaluator := engine.evaluatorFor (engine.parse template)
  let state : EvaluationState := { environment := { data } }
  have room : state.depth + (engine.parse template).program.nesting ≤
      evaluator.maxDepth := by
    have within : (engine.parse template).program.nesting ≤ engine.settings.maxDepth :=
      parseTemplate_nesting_le engine.settings template
    exact Nat.le_trans (Nat.le_of_eq (Nat.zero_add _)) within
  have ⟨faults, _⟩ := evaluator.evaluate_fits (engine.parse template).program state room
  have answered : (((evaluator.evaluate (engine.parse template).program).outcome
      state).1.mapError TemplateError.stopped) = .error error := failed
  cases ended : ((evaluator.evaluate (engine.parse template).program).outcome state).1
    with
  | ok output =>
      rw [ended] at answered
      cases (answered : Except.ok output = Except.error error)
  | error stopped =>
      rw [ended] at answered
      obtain rfl : TemplateError.stopped stopped = error := Except.error.inj answered
      exact faults stopped ended

/-- Evaluation never fails for the depth of a template, neither for one record
nor for one of a batch: a template that is nested too deeply is refused as
malformed, with a diagnostic of its depth, before anything is evaluated. -/
theorem depth_checked_by_parsing (engine : Engine) (template : String) :
    (∀ data error, (engine.resolve template data).answer = .error error →
      error.exceedsLimit = false) ∧
    (∀ records error, (engine.resolveBatch template records).answer = .error error →
      error.exceedsLimit = false) ∧
    (∀ records answers, (engine.resolveBatch template records).answer = .ok answers →
      ∀ error, .error error ∈ answers → error.exceedsLimit = false) ∧
    (engine.settings.NestTooDeep template →
      ∃ diagnostics report,
        (∃ diagnostic ∈ diagnostics, diagnostic.code = some "E0014") ∧
        (∀ data, (engine.resolve template data).answer =
          .error (.malformed diagnostics report)) ∧
        ∀ records, (engine.resolveBatch template records).answer =
          .error (.malformed diagnostics report)) := by
  by_cases clean : (engine.parse template).diagnostics = []
  · refine ⟨?_, ?_, ?_, ?_⟩
    · intro data error failed
      rw [resolve_of_clean clean] at failed
      exact engine.evaluateRecord_withinLimit template data failed
    · intro records error failed
      simp [resolveBatch_of_clean clean] at failed
    · intro records answers answered error member
      rw [resolveBatch_of_clean clean, Except.ok.injEq] at answered
      subst answered
      obtain ⟨data, _, failed⟩ := List.mem_map.mp member
      exact engine.evaluateRecord_withinLimit template data failed
    · intro tooDeep
      obtain ⟨diagnostic, member, _⟩ := exists_tooDeep_diagnostic tooDeep
      have : diagnostic ∈ (engine.parse template).diagnostics := member
      simp [clean] at this
  · refine ⟨?_, ?_, ?_, ?_⟩
    · intro data error failed
      rw [resolve_of_malformed clean, Except.error.injEq] at failed
      simp [← failed, TemplateError.exceedsLimit]
    · intro records error failed
      rw [resolveBatch_of_malformed clean, Except.error.injEq] at failed
      simp [← failed, TemplateError.exceedsLimit]
    · intro records answers answered
      simp [resolveBatch_of_malformed clean] at answered
    · intro tooDeep
      exact ⟨_, _, exists_tooDeep_diagnostic tooDeep, resolve_of_malformed clean,
        resolveBatch_of_malformed clean⟩

/-- Two conditionals, one inside the other, are refused under a limit of one. -/
theorem depth_checked_nestedConditionals :
    let settings : Settings := ⟨1, false⟩
    let template := "#if (true)#if (true)#end#end"
    settings.NestTooDeep template ∧
      ∃ diagnostics report,
        (∃ diagnostic ∈ diagnostics, diagnostic.code = some "E0014") ∧
        ((create settings).resolve template ∅).answer =
          .error (.malformed diagnostics report) := by
  intro settings template
  have tooDeep : settings.NestTooDeep template := ⟨2, by decide +kernel⟩
  obtain ⟨-, -, -, refused⟩ := (create settings).depth_checked_by_parsing template
  obtain ⟨diagnostics, report, coded, answers, -⟩ := refused tooDeep
  exact ⟨tooDeep, diagnostics, report, coded, answers ∅⟩

end Engine

end Stencil
