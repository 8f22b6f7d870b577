import Stencil.Proofs.Room
import Stencil.Proofs.Spans
import Stencil.Proofs.Subexpressions

/-!
# Rules for pairs of evaluations

Two evaluators walk over the same tree, which stands for the second one perhaps at other
places.  A relation between evaluations that holds of their operations, or is passed on
from the parts of these, holds of everything that the two evaluate.  The tree may be
restricted to expressions that both evaluators treat alike.
-/

namespace Stencil

/-- What evaluations see of a macro: its arity, and its values for as many arguments as it
takes. -/
def Macro.seen (entry : Macro) : Arity × (List Value → Option (Except MacroError Value)) :=
  (entry.arity, fun arguments =>
    if entry.arity.accepts arguments.length then some (entry.apply arguments) else none)

namespace Evaluator

theorem applyMacro_eq (evaluator : Evaluator) (name : String) (arguments : List Value)
    (span : Span) :
    evaluator.applyMacro name arguments span =
      match (evaluator.registry.lookup name).map Macro.seen with
      | none => evaluator.fail span (.undefinedMacro name)
      | some (arity, values) =>
          match values arguments with
          | some (.ok value) => pure value
          | some (.error cause) => evaluator.fail span (.macroFailed name cause)
          | none =>
              evaluator.fail span (.wrongArgumentCount name arity arguments.length) := by
  unfold applyMacro
  cases evaluator.registry.lookup name with
  | none => rfl
  | some entry =>
      simp only [Option.map_some, Macro.seen]
      by_cases accepted : entry.arity.accepts arguments.length
      · rw [if_pos accepted, if_pos accepted]
        cases entry.apply arguments with
        | ok value => rfl
        | error cause => rfl
      · rw [if_neg accepted, if_neg accepted]

/-- The operations with which two evaluators evaluate expressions are related, or pass the
relation on from their parts.  The spans that the second one sees are changed, and all
expressions are used in a certain way. -/
structure ExpressionPairs (first second : Evaluator) (change : Span → Span)
    (uses : Expression → Prop)
    (related : ∀ α : Type, Evaluation α → Evaluation α → Prop) : Prop where
  pure {α : Type} (value : α) : related α (Pure.pure value) (Pure.pure value)
  bind {α β : Type} {left right : Evaluation α} {next other : α → Evaluation β}
    (holds : related α left right)
    (further : ∀ value, related β (next value) (other value)) :
    related β (left >>= next) (right >>= other)
  fail {α : Type} (span : Span) {fault : EvaluationFault}
    (shallow : fault.exceedsLimit = false) :
    related α (first.fail span fault) (second.fail (change span) fault)
  path {path : VariablePath} {span : Span} (used : uses (.path path span)) :
    related Value (first.resolvePath path span) (second.resolvePath path (change span))
  lookup {name : String} {arguments : List Expression} {span : Span}
    (used : uses (.call name arguments span)) :
    (second.registry.lookup name).map Macro.seen = (first.registry.lookup name).map Macro.seen
  nested {α : Type} {left right : Evaluation α} (holds : related α left right)
    (span : Span) : related α (first.nested span left) (second.nested (change span) right)

/-- All operations of two evaluators are related, or pass the relation on from their
parts. -/
structure NodePairs (first second : Evaluator) (change : Span → Span)
    (uses : Expression → Prop)
    (related : ∀ α : Type, Evaluation α → Evaluation α → Prop) : Prop
    extends ExpressionPairs first second change uses related where
  tell {event : LogEvent} (minor : event.level = .trace) :
    related Unit (Evaluation.tell event) (Evaluation.tell event)
  define (name : String) (value : Value) :
    related Unit (Evaluation.define name value) (Evaluation.define name value)
  inFrame {α : Type} {left right : Evaluation α} (holds : related α left right) :
    related α (Evaluation.inFrame left) (Evaluation.inFrame right)

variable {first second : Evaluator} {change : Span → Span} {uses : Expression → Prop}
  {related : ∀ α : Type, Evaluation α → Evaluation α → Prop}

theorem outputText_mapSpans (change : Span → Span) (expression : Expression)
    (value : Value) :
    outputText (expression.mapSpans change) value = outputText expression value := by
  cases expression <;> rfl

section Expressions

variable (pairs : ExpressionPairs first second change uses related)

include pairs

theorem applyMacro_related {name : String} {arguments : List Expression} {span : Span}
    (used : uses (.call name arguments span)) (values : List Value) :
    related Value (first.applyMacro name values span)
      (second.applyMacro name values (change span)) := by
  rw [applyMacro_eq, applyMacro_eq, pairs.lookup used]
  split
  · exact pairs.fail span rfl
  · split
    · exact pairs.pure _
    · exact pairs.fail span rfl
    · exact pairs.fail span rfl

mutual

theorem evaluateExpression_related : ∀ expression : Expression,
    (∀ part ∈ expression.parts, uses part) →
      related Value (first.evaluateExpression expression)
        (second.evaluateExpression (expression.mapSpans change))
  | .literal value span, _ => by
      rw [Expression.mapSpans, evaluateExpression, evaluateExpression]
      exact pairs.pure _
  | .path path span, used => by
      rw [Expression.mapSpans, evaluateExpression, evaluateExpression]
      exact pairs.path (used _ (List.mem_singleton_self _))
  | .call name arguments span, used => by
      rw [Expression.mapSpans, evaluateExpression, evaluateExpression]
      have inside := evaluateArguments_related arguments fun part member =>
        used part (List.mem_cons_of_mem _ member)
      exact pairs.nested (pairs.bind inside fun values =>
        applyMacro_related pairs (used _ List.mem_cons_self) values) span

theorem evaluateArguments_related : ∀ arguments : List Expression,
    (∀ part ∈ argumentParts arguments, uses part) →
      related (List Value) (first.evaluateArguments arguments)
        (second.evaluateArguments (mapArgumentSpans change arguments))
  | [], _ => by
      rw [mapArgumentSpans, evaluateArguments, evaluateArguments]
      exact pairs.pure _
  | argument :: arguments, used => by
      rw [mapArgumentSpans, evaluateArguments, evaluateArguments]
      have ⟨here, later⟩ := List.forall_mem_append.mp used
      exact pairs.bind (evaluateExpression_related argument here) fun _ =>
        pairs.bind (evaluateArguments_related arguments later) fun _ => pairs.pure _

end

theorem evaluateCondition_related {condition : Expression}
    (used : ∀ part ∈ condition.parts, uses part) :
    related Bool (first.evaluateCondition condition)
      (second.evaluateCondition (condition.mapSpans change)) := by
  refine pairs.bind (evaluateExpression_related pairs condition used) fun value => ?_
  rw [Expression.span_mapSpans]
  split
  · exact pairs.pure _
  · exact pairs.fail _ rfl

theorem evaluateIterable_related {iterable : Expression}
    (used : ∀ part ∈ iterable.parts, uses part) :
    related Iteration (first.evaluateIterable iterable)
      (second.evaluateIterable (iterable.mapSpans change)) := by
  refine pairs.bind (evaluateExpression_related pairs iterable used) fun value => ?_
  rw [Expression.span_mapSpans]
  split
  · exact pairs.pure _
  · exact pairs.fail _ rfl

end Expressions

section Nodes

variable (pairs : NodePairs first second change uses related)

include pairs

theorem evaluateEntries_related (key : Option String) (item : String)
    {left right : Evaluation String} (holds : related String left right)
    (entries : List (Value × Value)) :
    related String (evaluateEntries key item left entries)
      (evaluateEntries key item right entries) := by
  have defines (entry : Value × Value) :
      related Unit (defineEntry key item entry) (defineEntry key item entry) := by
    cases key with
    | none => exact pairs.define item entry.2
    | some key => exact pairs.bind (pairs.define key entry.1) fun _ =>
        pairs.define item entry.2
  unfold evaluateEntries
  -- What was written before the entries does not matter for the induction.
  generalize "" = written
  induction entries generalizing written with
  | nil => exact pairs.pure _
  | cons entry entries ih =>
      rw [List.foldlM_cons, List.foldlM_cons]
      have pass := pairs.inFrame (pairs.bind (defines entry) fun _ => holds)
      exact pairs.bind (pairs.bind pass fun _ => pairs.pure _) fun written => ih written

mutual

theorem evaluateNode_related : ∀ node : Node,
    (∀ part ∈ node.expressions, uses part) →
      related String (first.evaluateNode node) (second.evaluateNode (node.mapSpans change))
  | .text content span, _ => by
      rw [Node.mapSpans, evaluateNode, evaluateNode]
      exact pairs.pure _
  | .output expression, used => by
      rw [Node.mapSpans, evaluateNode, evaluateNode]
      refine pairs.bind
        (evaluateExpression_related pairs.toExpressionPairs expression used) fun value => ?_
      rw [outputText_mapSpans]
      exact pairs.pure _
  | .conditional branches otherwise span, used => by
      rw [Node.mapSpans, evaluateNode, evaluateNode]
      have ⟨inBranches, inLast⟩ := List.forall_mem_append.mp used
      refine pairs.nested (pairs.bind (evaluateBranches_related branches inBranches)
        fun output? => ?_) span
      cases output? with
      | some output => exact pairs.pure _
      | none => exact evaluateOtherwise_related otherwise inLast
  | .loop key item iterable body span, used => by
      rw [Node.mapSpans, evaluateNode, evaluateNode]
      have ⟨inIterable, inBody⟩ := List.forall_mem_append.mp used
      refine pairs.nested (pairs.bind
        (evaluateIterable_related pairs.toExpressionPairs inIterable) ?_) span
      exact fun _ => pairs.bind (pairs.tell rfl) fun _ =>
        evaluateEntries_related pairs _ item (evaluateBody_related body inBody) _
  | .binding name value span, used => by
      rw [Node.mapSpans, evaluateNode, evaluateNode]
      exact pairs.bind (evaluateExpression_related pairs.toExpressionPairs value used)
        fun _ => pairs.bind (pairs.define _ _) fun _ => pairs.pure _

theorem evaluateBranches_related : ∀ branches : List Branch,
    (∀ part ∈ branchExpressions branches, uses part) →
      related (Option String) (first.evaluateBranches branches)
        (second.evaluateBranches (mapBranchSpans change branches))
  | [], _ => by
      rw [mapBranchSpans, evaluateBranches, evaluateBranches]
      exact pairs.pure _
  | branch :: branches, used => by
      rw [mapBranchSpans, evaluateBranches, evaluateBranches]
      have ⟨here, later⟩ := List.forall_mem_append.mp used
      refine pairs.bind (evaluateBranch_related branch here) fun output? => ?_
      cases output? with
      | some output => exact pairs.pure _
      | none => exact evaluateBranches_related branches later

theorem evaluateBranch_related : ∀ branch : Branch,
    (∀ part ∈ branch.expressions, uses part) →
      related (Option String) (first.evaluateBranch branch)
        (second.evaluateBranch (branch.mapSpans change))
  | .mk condition body, used => by
      rw [Branch.mapSpans, evaluateBranch, evaluateBranch]
      have ⟨inCondition, inBody⟩ := List.forall_mem_append.mp used
      refine pairs.bind (evaluateCondition_related pairs.toExpressionPairs inCondition)
        fun holds => ?_
      split
      · exact pairs.bind (evaluateBody_related body inBody) fun _ => pairs.pure _
      · exact pairs.pure _

theorem evaluateOtherwise_related : ∀ otherwise : Option (List Node),
    (∀ part ∈ otherwiseExpressions otherwise, uses part) →
      related String (first.evaluateOtherwise otherwise)
        (second.evaluateOtherwise (mapOtherwiseSpans change otherwise))
  | none, _ => by
      rw [mapOtherwiseSpans, evaluateOtherwise, evaluateOtherwise]
      exact pairs.pure _
  | some body, used => by
      rw [mapOtherwiseSpans, evaluateOtherwise, evaluateOtherwise]
      exact evaluateBody_related body used

/-- What two evaluators do with a body is related if their operations are. -/
theorem evaluateBody_related : ∀ nodes : List Node,
    (∀ part ∈ bodyExpressions nodes, uses part) →
      related String (first.evaluateBody nodes)
        (second.evaluateBody (mapBodySpans change nodes))
  | [], _ => by
      rw [mapBodySpans, evaluateBody, evaluateBody]
      exact pairs.pure _
  | node :: nodes, used => by
      rw [mapBodySpans, evaluateBody, evaluateBody]
      have ⟨here, later⟩ := List.forall_mem_append.mp used
      exact pairs.bind (evaluateNode_related node here) fun _ =>
        pairs.bind (evaluateBody_related nodes later) fun _ => pairs.pure _

end

theorem evaluate_related (program : Program)
    (used : ∀ part ∈ program.expressions, uses part) :
    related String (first.evaluate program)
      (second.evaluate (program.mapSpans change)) := by
  refine pairs.bind (evaluateBody_related pairs program.nodes used) fun output => ?_
  rw [Program.mapSpans, mapBodySpans_eq_map, List.length_map]
  exact pairs.bind (pairs.tell rfl) fun _ => pairs.pure _

end Nodes

end Evaluator

end Stencil
