import Stencil.Proofs.Nesting
import Stencil.Proofs.Outcome

/-!
# Room for evaluation

An evaluation of a tree needs as many free levels under the limit as the tree is
nested deep.  With that much room it never fails for its depth, whatever values
it meets, and it leaves as many blocks and calls open as it found.
-/

namespace Stencil

/-- Whether a fault says that the limit of nesting was reached. -/
def EvaluationFault.exceedsLimit : EvaluationFault → Bool
  | .tooDeep _ _ => true
  | _ => false

namespace Evaluation

variable {α β : Type} {limit room : Nat}

/-- Wherever `room` levels are free under the limit, an evaluation does not fail
for its depth, and it restores the number of open blocks and calls. -/
def Fits (evaluation : Evaluation α) (limit room : Nat) : Prop :=
  ∀ state, state.depth + room ≤ limit →
    (∀ error, (evaluation.outcome state).1 = .error error →
      error.fault.exceedsLimit = false) ∧
    (evaluation.outcome state).2.depth = state.depth

namespace Fits

theorem mono {evaluation : Evaluation α} {more : Nat}
    (fits : evaluation.Fits limit room) (enough : room ≤ more) :
    evaluation.Fits limit more :=
  fun state free => fits state (by omega)

theorem pure (value : α) : (Pure.pure value : Evaluation α).Fits limit room := by
  intro state _
  simp

theorem bind {first : Evaluation α} {next : α → Evaluation β}
    (firstFits : first.Fits limit room)
    (nextFits : ∀ value, (next value).Fits limit room) :
    (first >>= next).Fits limit room := by
  intro state free
  have ⟨firstFaults, firstDepth⟩ := firstFits state free
  rw [outcome_bind]
  rcases firstEnds : first.outcome state with ⟨error | value, after⟩
  · rw [firstEnds] at firstFaults firstDepth
    refine ⟨?_, firstDepth⟩
    rintro _ ⟨⟩
    exact firstFaults error rfl
  · rw [firstEnds] at firstDepth
    simp only at firstDepth
    have ⟨nextFaults, nextDepth⟩ := nextFits value after (by omega)
    exact ⟨nextFaults, nextDepth.trans firstDepth⟩

/-- An evaluation that reads the state first fits if it does for every state. -/
theorem get_bind {next : EvaluationState → Evaluation α}
    (nextFits : ∀ state, (next state).Fits limit room) :
    (get >>= next).Fits limit room := by
  refine bind ?_ nextFits
  intro state _
  simp

theorem tell (event : LogEvent) : (Evaluation.tell event).Fits limit room := by
  intro state _
  simp

theorem define (name : String) (value : Value) :
    (Evaluation.define name value).Fits limit room := by
  intro state _
  simp

theorem inFrame {evaluation : Evaluation α} (fits : evaluation.Fits limit room) :
    (Evaluation.inFrame evaluation).Fits limit room := by
  intro state free
  rw [outcome_inFrame]
  exact fits { state with environment := state.environment.push } free

theorem fail (evaluator : Evaluator) (span : Span) {fault : EvaluationFault}
    (shallow : fault.exceedsLimit = false) :
    (evaluator.fail span fault : Evaluation α).Fits limit room := by
  intro state _
  simp [shallow]

theorem nested {evaluator : Evaluator} {evaluation : Evaluation α}
    (fits : evaluation.Fits evaluator.maxDepth room) (span : Span) :
    (evaluator.nested span evaluation).Fits evaluator.maxDepth (room + 1) := by
  intro state free
  rw [Evaluator.outcome_nested, if_neg (by omega)]
  have ⟨faults, depth⟩ :=
    fits { state with depth := state.depth + 1 } (by simp only; omega)
  refine ⟨faults, ?_⟩
  simp only at depth ⊢
  omega

end Fits

end Evaluation

namespace Evaluator

open Evaluation

variable {limit room : Nat}

theorem resolvePath_fits (evaluator : Evaluator) (path : VariablePath)
    (span : Span) : (evaluator.resolvePath path span).Fits limit room := by
  unfold resolvePath
  refine .get_bind fun state => ?_
  dsimp only
  split
  · exact .bind (.tell _) fun _ => .fail _ _ rfl
  · split
    · exact .pure _
    · exact .fail _ _ rfl

theorem applyMacro_fits (evaluator : Evaluator) (name : String)
    (arguments : List Value) (span : Span) :
    (evaluator.applyMacro name arguments span).Fits limit room := by
  unfold applyMacro
  split
  · exact .fail _ _ rfl
  · split
    · split
      · exact .pure _
      · exact .fail _ _ rfl
    · exact .fail _ _ rfl

mutual

theorem evaluateExpression_fits (evaluator : Evaluator) :
    ∀ expression : Expression,
      (evaluator.evaluateExpression expression).Fits evaluator.maxDepth
        expression.nesting
  | .literal value span => by
      rw [evaluateExpression]
      exact .pure _
  | .path path span => by
      rw [evaluateExpression]
      exact resolvePath_fits evaluator path span
  | .call name arguments span => by
      rw [evaluateExpression, Expression.nesting]
      exact .nested (.bind (evaluateArguments_fits evaluator arguments) fun values =>
        applyMacro_fits evaluator name values span) span

theorem evaluateArguments_fits (evaluator : Evaluator) :
    ∀ expressions : List Expression,
      (evaluator.evaluateArguments expressions).Fits evaluator.maxDepth
        (argumentsNesting expressions)
  | [] => by
      rw [evaluateArguments]
      exact .pure _
  | expression :: expressions => by
      rw [evaluateArguments, argumentsNesting]
      have first := evaluateExpression_fits evaluator expression
      have others := evaluateArguments_fits evaluator expressions
      exact .bind (first.mono (Nat.le_max_left _ _)) fun _ =>
        .bind (others.mono (Nat.le_max_right _ _)) fun _ => .pure _

end

theorem evaluateCondition_fits (evaluator : Evaluator) (condition : Expression) :
    (evaluator.evaluateCondition condition).Fits evaluator.maxDepth
      condition.nesting := by
  unfold evaluateCondition
  refine .bind (evaluateExpression_fits evaluator condition) fun value => ?_
  split
  · exact .pure _
  · exact .fail _ _ rfl

theorem evaluateIterable_fits (evaluator : Evaluator) (iterable : Expression) :
    (evaluator.evaluateIterable iterable).Fits evaluator.maxDepth
      iterable.nesting := by
  unfold evaluateIterable
  refine .bind (evaluateExpression_fits evaluator iterable) fun value => ?_
  split
  · exact .pure _
  · exact .fail _ _ rfl

theorem defineEntry_fits (key : Option String) (item : String)
    (entry : Value × Value) : (defineEntry key item entry).Fits limit room := by
  intro state _
  simp

theorem evaluateEntries_fits (key : Option String) (item : String)
    {body : Evaluation String} (fits : body.Fits limit room)
    (entries : List (Value × Value)) :
    (evaluateEntries key item body entries).Fits limit room := by
  unfold evaluateEntries
  generalize "" = written
  induction entries generalizing written with
  | nil => exact .pure _
  | cons entry entries ih =>
      rw [List.foldlM_cons]
      refine .bind ?_ fun written => ih written
      exact .bind (.inFrame (.bind (defineEntry_fits key item entry) fun _ => fits))
        fun _ => .pure _

mutual

theorem evaluateNode_fits (evaluator : Evaluator) :
    ∀ node : Node,
      (evaluator.evaluateNode node).Fits evaluator.maxDepth node.nesting
  | .text content span => by
      rw [evaluateNode]
      exact .pure _
  | .output expression => by
      rw [evaluateNode, Node.nesting]
      exact .bind (evaluateExpression_fits evaluator expression) fun _ => .pure _
  | .conditional branches otherwise span => by
      rw [evaluateNode, Node.nesting]
      have inBranches := evaluateBranches_fits evaluator branches
      have inLast := evaluateOtherwise_fits evaluator otherwise
      refine .nested (.bind (inBranches.mono (Nat.le_max_left _ _)) fun output? => ?_)
        span
      cases output? with
      | some output => exact .pure _
      | none => exact inLast.mono (Nat.le_max_right _ _)
  | .loop key item iterable body span => by
      rw [evaluateNode, Node.nesting]
      have inIterable := evaluateIterable_fits evaluator iterable
      have inBody := evaluateBody_fits evaluator body
      refine .nested (.bind (inIterable.mono (Nat.le_max_left _ _)) fun iteration =>
        .bind (.tell _) fun _ => ?_) span
      exact evaluateEntries_fits _ item (inBody.mono (Nat.le_max_right _ _)) _
  | .binding name value span => by
      rw [evaluateNode, Node.nesting]
      exact .bind (evaluateExpression_fits evaluator value) fun _ =>
        .bind (.define _ _) fun _ => .pure _

theorem evaluateBranches_fits (evaluator : Evaluator) :
    ∀ branches : List Branch,
      (evaluator.evaluateBranches branches).Fits evaluator.maxDepth
        (branchesNesting branches)
  | [] => by
      rw [evaluateBranches]
      exact .pure _
  | branch :: branches => by
      rw [evaluateBranches, branchesNesting]
      have first := evaluateBranch_fits evaluator branch
      have others := evaluateBranches_fits evaluator branches
      refine .bind (first.mono (Nat.le_max_left _ _)) fun output? => ?_
      cases output? with
      | some output => exact .pure _
      | none => exact others.mono (Nat.le_max_right _ _)

theorem evaluateBranch_fits (evaluator : Evaluator) :
    ∀ branch : Branch,
      (evaluator.evaluateBranch branch).Fits evaluator.maxDepth branch.nesting
  | .mk condition body => by
      rw [evaluateBranch, Branch.nesting]
      have inCondition := evaluateCondition_fits evaluator condition
      have inBody := evaluateBody_fits evaluator body
      refine .bind (inCondition.mono (Nat.le_max_left _ _)) fun holds => ?_
      split
      · exact .bind (inBody.mono (Nat.le_max_right _ _)) fun _ => .pure _
      · exact .pure _

theorem evaluateOtherwise_fits (evaluator : Evaluator) :
    ∀ otherwise : Option (List Node),
      (evaluator.evaluateOtherwise otherwise).Fits evaluator.maxDepth
        (otherwiseNesting otherwise)
  | none => by
      rw [evaluateOtherwise]
      exact .pure _
  | some body => by
      rw [evaluateOtherwise, otherwiseNesting]
      exact evaluateBody_fits evaluator body

theorem evaluateBody_fits (evaluator : Evaluator) :
    ∀ nodes : List Node,
      (evaluator.evaluateBody nodes).Fits evaluator.maxDepth (bodyNesting nodes)
  | [] => by
      rw [evaluateBody]
      exact .pure _
  | node :: nodes => by
      rw [evaluateBody, bodyNesting]
      have first := evaluateNode_fits evaluator node
      have others := evaluateBody_fits evaluator nodes
      exact .bind (first.mono (Nat.le_max_left _ _)) fun _ =>
        .bind (others.mono (Nat.le_max_right _ _)) fun _ => .pure _

end

/-- A program needs as much room as it is nested deep. -/
theorem evaluate_fits (evaluator : Evaluator) (program : Program) :
    (evaluator.evaluate program).Fits evaluator.maxDepth program.nesting :=
  .bind (evaluateBody_fits evaluator program.nodes) fun _ =>
    .bind (.tell _) fun _ => .pure _

end Evaluator

end Stencil
