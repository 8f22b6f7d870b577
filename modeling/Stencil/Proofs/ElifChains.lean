import Stencil.Proofs.LooserLimits
import Stencil.Proofs.WellNested

/-!
# Chains of branches

A conditional with many branches stands for conditionals inside one another, each of which
has one branch and goes on with the next one where its condition is false.  The chain needs
one level, the nested form one for every branch.  Apart from that they are evaluated alike:
the conditions in order up to the first true one, and then the body that it selects.
-/

namespace Stencil

/-- The last body of a conditional that leaves further branches to a conditional inside it:
that one has the first of them as its only branch, and leaves the others to the next.  The
span of each depends on how many branches follow. -/
def nestedOtherwise (spans : Nat → Span) (otherwise : Option (List Node)) :
    List Branch → Option (List Node)
  | [] => otherwise
  | branch :: branches =>
      some [.conditional [branch] (nestedOtherwise spans otherwise branches)
        (spans branches.length)]

/-- Conditionals inside one another, with one branch each. -/
def nestedConditional (spans : Nat → Span) (branch : Branch) (branches : List Branch)
    (otherwise : Option (List Node)) : Node :=
  .conditional [branch] (nestedOtherwise spans otherwise branches) (spans branches.length)

namespace Evaluation

variable {α β : Type}

/-- An evaluation that gives a value leaves the state as it was. -/
def OnlyReads (evaluation : Evaluation α) : Prop :=
  ∀ state value after, evaluation.outcome state = (.ok value, after) → after = state

namespace OnlyReads

theorem pure (value : α) : (Pure.pure value : Evaluation α).OnlyReads := by
  rintro state _ _ ⟨⟩
  rfl

theorem bind {first : Evaluation α} {next : α → Evaluation β} (reads : first.OnlyReads)
    (further : ∀ value, (next value).OnlyReads) : (first >>= next).OnlyReads := by
  intro state value after ends
  rw [outcome_bind] at ends
  rcases firstEnds : first.outcome state with ⟨error | middle, between⟩
  · rw [firstEnds] at ends
    cases ends
  · obtain rfl := reads state middle between firstEnds
    rw [firstEnds] at ends
    exact further middle between value after ends

theorem fail (evaluator : Evaluator) (span : Span) (fault : EvaluationFault) :
    (evaluator.fail span fault : Evaluation α).OnlyReads := by
  rintro state _ _ ⟨⟩

theorem nested {evaluation : Evaluation α} (reads : evaluation.OnlyReads)
    (evaluator : Evaluator) (span : Span) : (evaluator.nested span evaluation).OnlyReads := by
  intro state value after ends
  rw [Evaluator.outcome_nested] at ends
  split at ends
  · cases ends
  · obtain ⟨result, closed⟩ := Prod.mk.inj ends
    have inside : (evaluation.outcome { state with depth := state.depth + 1 }).2 =
        { state with depth := state.depth + 1 } := reads _ value _ (Prod.ext result rfl)
    rw [inside] at closed
    exact closed.symm

theorem resolvePath (evaluator : Evaluator) (path : VariablePath) (span : Span) :
    (evaluator.resolvePath path span).OnlyReads := by
  intro state value after ends
  simp only [Evaluator.resolvePath, outcome_bind, outcome_get] at ends
  split at ends
  · cases ends
  · split at ends
    · exact pure _ state value after ends
    · cases ends

end OnlyReads

end Evaluation

namespace Evaluator

open Evaluation

variable (evaluator : Evaluator)

/-- What a conditional does one level deeper. -/
def evaluateChain (branches : List Branch) (otherwise : Option (List Node)) :
    Evaluation String := do
  match ← evaluator.evaluateBranches branches with
  | some output => pure output
  | none => evaluator.evaluateOtherwise otherwise

theorem evaluateNode_conditional (branches : List Branch) (otherwise : Option (List Node))
    (span : Span) :
    evaluator.evaluateNode (.conditional branches otherwise span) =
      evaluator.nested span (evaluator.evaluateChain branches otherwise) := by
  rw [evaluateNode]
  rfl

theorem evaluateChain_nil (otherwise : Option (List Node)) :
    evaluator.evaluateChain [] otherwise = evaluator.evaluateOtherwise otherwise := by
  rw [evaluateChain, evaluateBranches, pure_bind]

/-- A chain goes on behind its first branch if the condition of that is false. -/
theorem evaluateChain_cons (branch : Branch) (branches : List Branch)
    (otherwise : Option (List Node)) :
    evaluator.evaluateChain (branch :: branches) otherwise = (do
      match ← evaluator.evaluateBranch branch with
      | some output => pure output
      | none => evaluator.evaluateChain branches otherwise) := by
  rw [evaluateChain, evaluateBranches, bind_assoc]
  congr 1
  funext output?
  cases output? with
  | none => rfl
  | some output => rw [pure_bind]

theorem evaluateBody_single (node : Node) :
    evaluator.evaluateBody [node] = evaluator.evaluateNode node := by
  simp only [evaluateBody, pure_bind, String.append_empty, bind_pure]

theorem evaluateBranch_relaxes (branch : Branch) :
    Relaxes evaluator.maxDepth evaluator.maxDepth (evaluator.evaluateBranch branch)
      (evaluator.evaluateBranch branch) := by
  have related := evaluateBranch_related (Relaxes.pairs evaluator evaluator.maxDepth) branch
    fun _ _ => trivial
  rwa [branch.mapSpans_id] at related

theorem evaluateOtherwise_relaxes (otherwise : Option (List Node)) :
    Relaxes evaluator.maxDepth evaluator.maxDepth (evaluator.evaluateOtherwise otherwise)
      (evaluator.evaluateOtherwise otherwise) := by
  have related := evaluateOtherwise_related (Relaxes.pairs evaluator evaluator.maxDepth)
    otherwise fun _ _ => trivial
  rwa [mapOtherwiseSpans_id] at related

theorem evaluateChain_relaxes (branch : Branch) {branches : List Branch}
    {further otherwise : Option (List Node)}
    (relaxes : Relaxes evaluator.maxDepth evaluator.maxDepth
      (evaluator.evaluateOtherwise further) (evaluator.evaluateChain branches otherwise)) :
    Relaxes evaluator.maxDepth evaluator.maxDepth
      (evaluator.evaluateChain [branch] further)
      (evaluator.evaluateChain (branch :: branches) otherwise) := by
  rw [evaluateChain_cons, evaluateChain_cons, evaluateChain_nil]
  refine .bind (evaluator.evaluateBranch_relaxes branch) fun output? => ?_
  cases output? with
  | some output => exact .pure output
  | none => exact relaxes

/-- Further branches of a chain do what conditionals inside one another do, which need a
level each. -/
theorem nestedOtherwise_relaxes (spans : Nat → Span) (otherwise : Option (List Node))
    (branches : List Branch) :
    Relaxes evaluator.maxDepth evaluator.maxDepth
      (evaluator.evaluateOtherwise (nestedOtherwise spans otherwise branches))
      (evaluator.evaluateChain branches otherwise) := by
  induction branches with
  | nil =>
      rw [nestedOtherwise, evaluateChain_nil]
      exact evaluator.evaluateOtherwise_relaxes otherwise
  | cons branch branches ih =>
      rw [nestedOtherwise, evaluateOtherwise, evaluateBody_single, evaluateNode_conditional]
      exact .unnested evaluator (evaluator.evaluateChain_relaxes branch ih) _

/-- An expression that has a value leaves the state as it was. -/
theorem onlyReads_pairs :
    ExpressionPairs evaluator evaluator id (fun _ => True)
      fun _ evaluation _ => evaluation.OnlyReads where
  pure := .pure
  bind reads _ := reads.bind ‹_›
  fail span _ _ := .fail evaluator span _
  path _ := .resolvePath evaluator _ _
  lookup _ := rfl
  nested reads span := reads.nested evaluator span

theorem evaluateCondition_onlyReads (condition : Expression) :
    (evaluator.evaluateCondition condition).OnlyReads :=
  evaluateCondition_related evaluator.onlyReads_pairs fun _ _ => trivial

variable {state : EvaluationState}

theorem outcome_evaluateCondition {condition : Expression} {holds : Bool}
    (evaluates : ((evaluator.evaluateCondition condition).outcome state).1 = .ok holds) :
    (evaluator.evaluateCondition condition).outcome state = (.ok holds, state) :=
  Prod.ext evaluates (evaluator.evaluateCondition_onlyReads condition state _ _
    (Prod.ext evaluates rfl))

/-- A branch whose condition is false is passed over. -/
theorem outcome_evaluateChain_of_false {branch : Branch}
    (skipped : ((evaluator.evaluateCondition branch.condition).outcome state).1 = .ok false)
    (branches : List Branch) (otherwise : Option (List Node)) :
    (evaluator.evaluateChain (branch :: branches) otherwise).outcome state =
      (evaluator.evaluateChain branches otherwise).outcome state := by
  obtain ⟨condition, body⟩ := branch
  have condition := evaluator.outcome_evaluateCondition skipped
  simp only [Branch.condition] at condition
  rw [evaluateChain_cons, evaluateBranch, outcome_bind, outcome_bind, condition]
  rfl

/-- A branch whose condition is true is taken, whatever follows it. -/
theorem outcome_evaluateChain_of_true {branch : Branch}
    (holds : ((evaluator.evaluateCondition branch.condition).outcome state).1 = .ok true)
    (branches : List Branch) (otherwise : Option (List Node)) :
    (evaluator.evaluateChain (branch :: branches) otherwise).outcome state =
      (evaluator.evaluateBody branch.body).outcome state := by
  obtain ⟨condition, body⟩ := branch
  have condition := evaluator.outcome_evaluateCondition holds
  simp only [Branch.condition, Branch.body] at condition ⊢
  rw [evaluateChain_cons, evaluateBranch, outcome_bind, outcome_bind, condition]
  simp only [if_true, outcome_bind]
  rcases (evaluator.evaluateBody body).outcome state with ⟨error | output, after⟩
  · rfl
  · rfl

/-- Of several branches the first one with a true condition is taken. -/
theorem outcome_evaluateChain {earlier : List Branch}
    (skipped : ∀ branch ∈ earlier,
      ((evaluator.evaluateCondition branch.condition).outcome state).1 = .ok false)
    {branch : Branch}
    (holds : ((evaluator.evaluateCondition branch.condition).outcome state).1 = .ok true)
    (later : List Branch) (otherwise : Option (List Node)) :
    (evaluator.evaluateChain (earlier ++ branch :: later) otherwise).outcome state =
      (evaluator.evaluateBody branch.body).outcome state := by
  induction earlier with
  | nil => exact evaluator.outcome_evaluateChain_of_true holds later otherwise
  | cons first earlier ih =>
      have ⟨firstSkipped, othersSkipped⟩ := List.forall_mem_cons.mp skipped
      rw [List.cons_append, evaluator.outcome_evaluateChain_of_false firstSkipped]
      exact ih othersSkipped

/-- Below the limit, what is evaluated one level deeper decides. -/
theorem outcome_nested_of_runs {α : Type} {evaluation : Evaluation α}
    {run : Except EvaluationError α × EvaluationState}
    (free : state.depth < evaluator.maxDepth)
    (runs : evaluation.outcome { state with depth := state.depth + 1 } = run)
    (restored : run.2.depth = state.depth + 1) (span : Span) :
    (evaluator.nested span evaluation).outcome state =
      (run.1, { run.2 with depth := state.depth }) := by
  rw [outcome_nested, if_neg (Nat.not_le_of_lt free)]
  simp only [runs, restored, Nat.add_sub_cancel]

/-- A conditional with many branches is short for conditionals inside one another.  Unless
the nested form exceeds the limit, it ends with the same result and in the same state.  In
particular the first branch with a true condition decides: its body is evaluated one level
deeper, what it binds remains, and nothing behind it matters. -/
theorem evaluate_elif_chain (branch : Branch) (branches : List Branch)
    (otherwise : Option (List Node)) (span : Span) (spans : Nat → Span)
    (state : EvaluationState) :
    let nestedForm :=
      (evaluator.evaluateNode (nestedConditional spans branch branches otherwise)).outcome state
    let flat :=
      (evaluator.evaluateNode (.conditional (branch :: branches) otherwise span)).outcome state
    let inside := { state with depth := state.depth + 1 }
    ((∀ error, nestedForm.1 = .error error → error.fault.exceedsLimit = false) →
      flat = nestedForm) ∧
    ∀ earlier chosen later, branch :: branches = earlier ++ chosen :: later →
      state.depth < evaluator.maxDepth →
      (∀ skipped ∈ earlier,
        ((evaluator.evaluateCondition skipped.condition).outcome inside).1 = .ok false) →
      ((evaluator.evaluateCondition chosen.condition).outcome inside).1 = .ok true →
      let body := (evaluator.evaluateBody chosen.body).outcome inside
      flat = (body.1, { body.2 with depth := state.depth }) := by
  intro nestedForm flat inside
  constructor
  · intro shallow
    have free : state.depth < evaluator.maxDepth := by
      apply Nat.lt_of_not_le
      intro full
      have tooDeep : nestedForm = (evaluator.fail (spans branches.length)
          (.tooDeep (state.depth + 1) evaluator.maxDepth)).outcome state := by
        simp only [nestedForm]
        rw [nestedConditional, evaluateNode_conditional, outcome_nested, if_pos full]
      cases shallow _ (congrArg Prod.fst tooDeep)
    have relaxes : Relaxes evaluator.maxDepth evaluator.maxDepth
        (evaluator.evaluateNode (nestedConditional spans branch branches otherwise))
        (evaluator.evaluateNode (.conditional (branch :: branches) otherwise span)) := by
      rw [nestedConditional, evaluateNode_conditional, evaluateNode_conditional]
      exact .nested evaluator (evaluator.evaluateChain_relaxes branch
        (evaluator.nestedOtherwise_relaxes spans otherwise branches)) _ _
    exact relaxes.outcome_eq (Nat.le_of_lt free) (Nat.le_refl _) shallow
  · intro earlier chosen later split free skipped holds body
    have chain := evaluator.outcome_evaluateChain skipped holds later otherwise
    have depth : body.2.depth = state.depth + 1 :=
      (evaluator.evaluateBody_binds chosen.body).depth inside
    simp only [flat]
    rw [evaluateNode_conditional, split]
    exact evaluator.outcome_nested_of_runs free chain depth span

/-- In a chain of three branches the second one is taken.  Its binding remains, and the
variable in the third condition is not missed. -/
theorem evaluate_elif_chain_secondBranch :
    let place : Span := ⟨0, 0⟩
    let branch (name : String) (body : List Node) : Branch :=
      .mk (.path ⟨name, []⟩ place) body
    let first := branch "a" [.text "A" place]
    let second := branch "b" [.binding "x" (.literal (.integer 1) place) place,
      .text "B" place]
    let third := branch "missing" [.text "C" place]
    let evaluator : Evaluator := ⟨.empty, ⟨"t", ""⟩, 2⟩
    let state : EvaluationState :=
      { environment := { data := .ofPairs [("a", .boolean false), ("b", .boolean true)] } }
    let flat :=
      (evaluator.evaluateNode (.conditional [first, second, third] none place)).outcome state
    let nestedForm := (evaluator.evaluateNode
      (nestedConditional (fun _ => place) first [second, third] none)).outcome state
    flat = nestedForm ∧ flat.1 = .ok "B" ∧
      flat.2.environment.program = .ofPairs [("x", .integer 1)] ∧ flat.2.depth = 0 := by
  intro place branch first second third evaluator state flat nestedForm
  have same := evaluator.evaluate_elif_chain first [second, third] none place
    (fun _ => place) state
  have written : nestedForm.1 = .ok "B" := by decide +kernel
  have shallow : ∀ error, nestedForm.1 = .error error →
      error.fault.exceedsLimit = false := by
    intro error failed
    rw [written] at failed
    cases failed
  have taken := same.2 [first] second [third] rfl (by decide)
    (by
      intro skipped member
      obtain rfl := List.mem_singleton.mp member
      rfl)
    rfl
  exact ⟨same.1 shallow, congrArg Prod.fst taken,
    congrArg (fun run => run.2.environment.program) taken,
    congrArg (fun run => run.2.depth) taken⟩

end Evaluator

end Stencil
