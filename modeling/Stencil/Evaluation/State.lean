import Stencil.Environment
import Stencil.Evaluation.Error
import Stencil.LogEvent

/-!
# Evaluations

An evaluation works on the definitions that are visible, on the number of blocks
and calls that are open, and on the events told so far.  It ends with a value or
with the first error, and leaves a state in either case.
-/

namespace Stencil

/-- What an evaluation works on. -/
structure EvaluationState where
  environment : Environment
  /-- The number of blocks and calls that are open. -/
  depth : Nat := 0
  /-- The events told so far. -/
  log : Array LogEvent := #[]
  deriving Inhabited

/-- A computation on an evaluation state that may fail. -/
abbrev Evaluation (α : Type) : Type :=
  ExceptT EvaluationError (StateM EvaluationState) α

namespace Evaluation

def outcome {α : Type} (evaluation : Evaluation α) (state : EvaluationState) :
    Except EvaluationError α × EvaluationState :=
  StateT.run (ExceptT.run evaluation) state

/-- Change the state after an evaluation, whether it failed or not. -/
def restoring {α : Type} (evaluation : Evaluation α)
    (restore : EvaluationState → EvaluationState) : Evaluation α :=
  ExceptT.mk fun state =>
    let (result, after) := evaluation.outcome state
    (result, restore after)

def tell (event : LogEvent) : Evaluation Unit :=
  modify fun state => { state with log := state.log.push event }

def define (name : String) (value : Value) : Evaluation Unit :=
  modify fun state =>
    { state with environment := state.environment.define name value }

/-- Evaluate in a frame of its own, which is closed afterwards. -/
def inFrame {α : Type} (evaluation : Evaluation α) : Evaluation α := do
  modify fun state => { state with environment := state.environment.push }
  evaluation.restoring fun state =>
    { state with environment := state.environment.pop }

variable {α β : Type}

@[simp] theorem outcome_pure (value : α) (state : EvaluationState) :
    (pure value : Evaluation α).outcome state = (.ok value, state) := rfl

@[simp] theorem outcome_throw (error : EvaluationError) (state : EvaluationState) :
    (throw error : Evaluation α).outcome state = (.error error, state) := rfl

/-- One evaluation after another goes on from the state that the first one leaves,
unless that one fails. -/
theorem outcome_bind (first : Evaluation α) (next : α → Evaluation β)
    (state : EvaluationState) :
    (first >>= next).outcome state =
      match first.outcome state with
      | (.ok value, after) => (next value).outcome after
      | (.error error, after) => (.error error, after) := by
  change (ExceptT.bindCont next (first.outcome state).1).run
    (first.outcome state).2 = _
  rcases first.outcome state with ⟨_ | _, _⟩ <;> rfl

@[simp] theorem outcome_tell (event : LogEvent) (state : EvaluationState) :
    (tell event).outcome state =
      (.ok (), { state with log := state.log.push event }) := rfl

@[simp] theorem outcome_restoring (evaluation : Evaluation α)
    (restore : EvaluationState → EvaluationState) (state : EvaluationState) :
    (evaluation.restoring restore).outcome state =
      ((evaluation.outcome state).1, restore (evaluation.outcome state).2) := rfl

end Evaluation

end Stencil
