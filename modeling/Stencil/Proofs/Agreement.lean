import Stencil.Proofs.EvaluationPairs

/-!
# Evaluation does not depend on places

Where the nodes of a program stand, and in which template, is only told in the
positions of errors.  Apart from these, programs that are equal up to spans write
the same, fail for the same reason, and leave the same variables.
-/

namespace Stencil

/-- States that differ at most in the events told. -/
def EvaluationState.Alike (first second : EvaluationState) : Prop :=
  first.environment = second.environment ∧ first.depth = second.depth

namespace Evaluation

variable {α β : Type}

/-- The value of an evaluation, or the reason why there is none. -/
def answer (evaluation : Evaluation α) (state : EvaluationState) :
    Except EvaluationFault α :=
  (evaluation.outcome state).1.mapError EvaluationError.fault

/-- From states that are alike, two evaluations give the same value or fail for the
same reason, and they leave states that are alike. -/
def Agrees (first second : Evaluation α) : Prop :=
  ∀ left right : EvaluationState, left.Alike right →
    first.answer left = second.answer right ∧
      (first.outcome left).2.Alike (second.outcome right).2

namespace Agrees

theorem symm {first second : Evaluation α} (agrees : first.Agrees second) :
    second.Agrees first := by
  rintro left right ⟨environment, depth⟩
  obtain ⟨answers, ⟨environments, depths⟩⟩ :=
    agrees right left ⟨environment.symm, depth.symm⟩
  exact ⟨answers.symm, environments.symm, depths.symm⟩

theorem trans {first second third : Evaluation α} (agrees : first.Agrees second)
    (further : second.Agrees third) : first.Agrees third := by
  intro left right alike
  obtain ⟨answers, ⟨environments, depths⟩⟩ := agrees left left ⟨rfl, rfl⟩
  obtain ⟨others, ⟨otherEnvironments, otherDepths⟩⟩ := further left right alike
  exact ⟨answers.trans others, environments.trans otherEnvironments,
    depths.trans otherDepths⟩

theorem pure (value : α) : (Pure.pure value : Evaluation α).Agrees (Pure.pure value) :=
  fun _ _ alike => ⟨rfl, alike⟩

theorem bind {first second : Evaluation α} {left right : α → Evaluation β}
    (agrees : first.Agrees second) (next : ∀ value, (left value).Agrees (right value)) :
    (first >>= left).Agrees (second >>= right) := by
  intro here there alike
  obtain ⟨answers, after⟩ := agrees here there alike
  simp only [answer, outcome_bind] at answers ⊢
  rcases firstEnds : first.outcome here with ⟨error | value, state⟩ <;>
    rcases secondEnds : second.outcome there with ⟨other | same, otherState⟩ <;>
      rw [firstEnds, secondEnds] at answers after
  · have sameFault : error.fault = other.fault := Except.error.inj answers
    exact ⟨congrArg Except.error sameFault, after⟩
  · cases (answers : Except.error error.fault = Except.ok same)
  · cases (answers : Except.ok value = Except.error other.fault)
  · obtain rfl : value = same := Except.ok.inj answers
    exact next value state otherState after

theorem tell (event other : LogEvent) :
    (Evaluation.tell event).Agrees (Evaluation.tell other) :=
  fun _ _ alike => ⟨rfl, alike⟩

theorem define (name : String) (value : Value) :
    (Evaluation.define name value).Agrees (Evaluation.define name value) := by
  rintro left right ⟨environment, depth⟩
  exact ⟨rfl, by simp [environment], depth⟩

theorem inFrame {first second : Evaluation α} (agrees : first.Agrees second) :
    (Evaluation.inFrame first).Agrees (Evaluation.inFrame second) := by
  rintro left right ⟨environment, depth⟩
  obtain ⟨answers, ⟨environments, depths⟩⟩ := agrees
    { left with environment := left.environment.push }
    { right with environment := right.environment.push }
    ⟨congrArg Environment.push environment, depth⟩
  exact ⟨answers, congrArg Environment.pop environments, depths⟩

theorem fail (first second : Evaluator) (span other : Span) (fault : EvaluationFault) :
    (first.fail span fault : Evaluation α).Agrees (second.fail other fault) :=
  fun _ _ alike => ⟨rfl, alike⟩

theorem nested {first second : Evaluation α} (evaluator : Evaluator) (source : Source)
    (agrees : first.Agrees second) (span other : Span) :
    ({ evaluator with source }.nested other first).Agrees
      (evaluator.nested span second) := by
  rintro left right ⟨environment, depth⟩
  simp only [answer, Evaluator.outcome_nested, ← depth]
  by_cases reached : evaluator.maxDepth ≤ left.depth
  · rw [if_pos reached, if_pos reached]
    exact fail _ _ _ _ _ left right ⟨environment, depth⟩
  · rw [if_neg reached, if_neg reached]
    obtain ⟨answers, ⟨environments, depths⟩⟩ := agrees
      { left with depth := left.depth + 1 } { right with depth := left.depth + 1 }
      ⟨environment, rfl⟩
    exact ⟨answers, environments, congrArg (· - 1) depths⟩

end Agrees

end Evaluation

namespace Evaluator

open Evaluation

section Places

variable (evaluator : Evaluator) (source : Source) (change : Span → Span)

theorem resolvePath_agrees (path : VariablePath) (span other : Span) :
    ({ evaluator with source }.resolvePath path other).Agrees
      (evaluator.resolvePath path span) := by
  rintro left right ⟨environment, depth⟩
  simp only [answer, resolvePath, outcome_bind, outcome_get, environment]
  cases right.environment.get? path.root with
  | none => exact ⟨rfl, environment, depth⟩
  | some value =>
      dsimp only
      cases value.follow path.segments with
      | ok part => exact ⟨rfl, environment, depth⟩
      | error failure => exact ⟨rfl, environment, depth⟩

/-- Two evaluators that differ in their sources do the same with nodes that differ in their
spans. -/
theorem agrees_pairs :
    NodePairs evaluator { evaluator with source } change (fun _ => True)
      fun _ first second => second.Agrees first where
  pure := .pure
  bind agrees next := agrees.bind next
  fail _ fault _ := .fail _ _ _ _ fault
  path _ := resolvePath_agrees evaluator source _ _ _
  lookup _ := rfl
  nested agrees _ := .nested evaluator source agrees _ _
  tell _ := .tell _ _
  define := .define
  inFrame := .inFrame

/-- What a body writes does not depend on where it stands. -/
theorem evaluateBody_agrees (nodes : List Node) :
    ({ evaluator with source }.evaluateBody (mapBodySpans change nodes)).Agrees
      (evaluator.evaluateBody nodes) :=
  evaluateBody_related (agrees_pairs evaluator source change) nodes fun _ _ => trivial

end Places

/-- What follows another body is evaluated after it. -/
theorem evaluateBody_append (evaluator : Evaluator) (first second : List Node) :
    evaluator.evaluateBody (first ++ second) = (do
      let written ← evaluator.evaluateBody first
      let further ← evaluator.evaluateBody second
      pure (written ++ further)) := by
  induction first with
  | nil => simp only [List.nil_append, evaluateBody, pure_bind, String.empty_append,
      bind_pure]
  | cons node first ih => simp only [List.cons_append, evaluateBody, ih, bind_assoc,
      pure_bind, String.append_assoc]

theorem evaluateBody_text (evaluator : Evaluator) (content : String) (span : Span)
    (nodes : List Node) :
    evaluator.evaluateBody (.text content span :: nodes) = (do
      let written ← evaluator.evaluateBody nodes
      pure (content ++ written)) := by
  simp only [evaluateBody, evaluateNode, pure_bind]

/-- The events told do not change what a program writes. -/
theorem evaluate_agrees (evaluator : Evaluator) (source : Source) (program : Program) :
    ({ evaluator with source }.evaluate program).Agrees
      (evaluator.evaluateBody program.nodes) := by
  have body := evaluateBody_agrees evaluator source id program.nodes
  rw [mapBodySpans_id] at body
  rw [← bind_pure (evaluator.evaluateBody program.nodes)]
  exact .bind body fun output _ _ alike => ⟨rfl, alike⟩

end Evaluator

end Stencil
