import Stencil.Evaluation

/-!
# Outcomes of evaluations

One equation for each operation of an evaluation: what it gives on a state, and
the state that it leaves.  Everything said elsewhere about evaluations follows
from these equations.
-/

namespace Stencil

instance decidableEqExcept {ε α : Type} [DecidableEq ε] [DecidableEq α] :
    DecidableEq (Except ε α)
  | .ok first, .ok second => decidable_of_iff (first = second) (by simp)
  | .error first, .error second => decidable_of_iff (first = second) (by simp)
  | .ok _, .error _ => .isFalse (by simp)
  | .error _, .ok _ => .isFalse (by simp)

namespace Evaluation

variable {α β : Type}

@[simp]
theorem outcome_get (state : EvaluationState) :
    (get : Evaluation EvaluationState).outcome state = (.ok state, state) :=
  rfl

@[simp]
theorem outcome_modify (change : EvaluationState → EvaluationState)
    (state : EvaluationState) :
    (modify change : Evaluation Unit).outcome state = (.ok (), change state) :=
  rfl

@[simp]
theorem outcome_define (name : String) (value : Value) (state : EvaluationState) :
    (define name value).outcome state =
      (.ok (), { state with
        environment := state.environment.define name value }) :=
  rfl

@[simp]
theorem outcome_inFrame (evaluation : Evaluation α) (state : EvaluationState) :
    (inFrame evaluation).outcome state =
      let opened := { state with environment := state.environment.push }
      let after := (evaluation.outcome opened).2
      ((evaluation.outcome opened).1,
        { after with environment := after.environment.pop }) :=
  rfl

end Evaluation

@[simp]
theorem outcome_defineEntry (key : Option String) (item : String)
    (entry : Value × Value) (state : EvaluationState) :
    (defineEntry key item entry).outcome state =
      (.ok (), { state with
        environment := match key with
          | some key =>
              (state.environment.define key entry.1).define item entry.2
          | none => state.environment.define item entry.2 }) := by
  cases key <;> rfl

namespace Evaluator

variable {α : Type}

@[simp]
theorem outcome_fail (evaluator : Evaluator) (span : Span)
    (fault : EvaluationFault) (state : EvaluationState) :
    (evaluator.fail span fault : Evaluation α).outcome state =
      (.error ⟨fault, evaluator.source.positionAt span.start⟩, state) :=
  rfl

/-- At the limit the evaluation fails; below it, it goes on one level deeper and
comes back. -/
theorem outcome_nested (evaluator : Evaluator) (span : Span)
    (evaluation : Evaluation α) (state : EvaluationState) :
    (evaluator.nested span evaluation).outcome state =
      if evaluator.maxDepth ≤ state.depth then
        (evaluator.fail span
          (.tooDeep (state.depth + 1) evaluator.maxDepth)).outcome state
      else
        let deeper := { state with depth := state.depth + 1 }
        let after := (evaluation.outcome deeper).2
        ((evaluation.outcome deeper).1, { after with depth := after.depth - 1 }) := by
  by_cases reached : evaluator.maxDepth ≤ state.depth <;>
    simp [nested, Evaluation.outcome_bind, reached]

end Evaluator

end Stencil
