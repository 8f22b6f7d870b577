import Stencil.Proofs.EvaluationPairs

/-!
# Rules for evaluations

A property that the operations of an evaluator have, or pass on from their parts, is one
of everything that the evaluator evaluates.
-/

namespace Stencil

/-- Whether an event is told at the level of warnings. -/
def LogEvent.isWarning (event : LogEvent) : Bool :=
  event.level == .warning

namespace Evaluator

/-- The operations with which an evaluator evaluates expressions have a property, or pass it
on from their parts.  The events that are told are no warnings. -/
structure ExpressionRules (evaluator : Evaluator)
    (property : ∀ α : Type, Evaluation α → Prop) : Prop where
  pure {α : Type} (value : α) : property α (Pure.pure value)
  get : property EvaluationState MonadState.get
  fail {α : Type} (span : Span) (fault : EvaluationFault) :
    property α (evaluator.fail span fault)
  tell {event : LogEvent} (noWarning : event.isWarning = false) :
    property Unit (Evaluation.tell event)
  bind {α β : Type} {first : Evaluation α} {next : α → Evaluation β}
    (holds : property α first) (further : ∀ value, property β (next value)) :
    property β (first >>= next)
  nested {α : Type} {evaluation : Evaluation α} (holds : property α evaluation)
    (span : Span) : property α (evaluator.nested span evaluation)

/-- All operations of an evaluator have a property, or pass it on from their parts. -/
structure NodeRules (evaluator : Evaluator) (property : ∀ α : Type, Evaluation α → Prop) :
    Prop extends evaluator.ExpressionRules property where
  define (name : String) (value : Value) : property Unit (Evaluation.define name value)
  inFrame {α : Type} {evaluation : Evaluation α} (holds : property α evaluation) :
    property α (Evaluation.inFrame evaluation)

variable {evaluator : Evaluator} {property : ∀ α : Type, Evaluation α → Prop}

section Expressions

variable (rules : evaluator.ExpressionRules property)

include rules

theorem resolvePath_respects (path : VariablePath) (span : Span) :
    property Value (evaluator.resolvePath path span) := by
  refine rules.bind rules.get fun state => ?_
  dsimp only
  split
  · exact rules.bind (rules.tell rfl) fun _ => rules.fail span _
  · split
    · exact rules.pure _
    · exact rules.fail span _

/-- A property is a relation of an evaluation to anything. -/
theorem ExpressionRules.pairs :
    ExpressionPairs evaluator evaluator id (fun _ => True)
      fun α evaluation _ => property α evaluation where
  pure := rules.pure
  bind holds further := rules.bind holds further
  fail span fault _ := rules.fail span fault
  path _ := resolvePath_respects rules _ _
  lookup _ := rfl
  nested holds span := rules.nested holds span

theorem evaluateExpression_respects (expression : Expression) :
    property Value (evaluator.evaluateExpression expression) :=
  evaluateExpression_related rules.pairs expression fun _ _ => trivial

theorem evaluateCondition_respects (condition : Expression) :
    property Bool (evaluator.evaluateCondition condition) :=
  evaluateCondition_related rules.pairs fun _ _ => trivial

theorem evaluateIterable_respects (iterable : Expression) :
    property Iteration (evaluator.evaluateIterable iterable) :=
  evaluateIterable_related rules.pairs fun _ _ => trivial

end Expressions

theorem NodeRules.pairs (rules : evaluator.NodeRules property) :
    NodePairs evaluator evaluator id (fun _ => True)
      fun α evaluation _ => property α evaluation where
  toExpressionPairs := rules.toExpressionRules.pairs
  tell minor := rules.tell (by rw [LogEvent.isWarning, minor]; rfl)
  define := rules.define
  inFrame holds := rules.inFrame holds

theorem evaluate_respects (rules : evaluator.NodeRules property) (program : Program) :
    property String (evaluator.evaluate program) :=
  evaluate_related rules.pairs program fun _ _ => trivial

end Evaluator

end Stencil
