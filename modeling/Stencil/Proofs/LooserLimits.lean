import Stencil.Proofs.EvaluationPairs

/-!
# Looser limits

An evaluation with more free levels goes the same way as one with fewer, until the latter
reaches its limit.  So a higher limit changes nothing for an evaluation that stays within
the lower one; and an evaluation that does not stay within its limit says so in terms of
that limit, and was given a tree that is nested deeper.
-/

namespace Stencil

/-- A state within a limit, and one that differs from it at most in its depth and has as
many free levels, or more, under a limit of its own. -/
structure EvaluationState.Loosens (limit higher : Nat) (tight loose : EvaluationState) :
    Prop where
  environment : loose.environment = tight.environment
  log : loose.log = tight.log
  within : tight.depth ≤ limit
  room : loose.depth + limit ≤ tight.depth + higher

/-- Two runs from a tight and a loose state end in the same way, not by reaching a limit,
and both leave the depth as it was. -/
structure Evaluation.SameRun {α : Type} (tight loose : EvaluationState)
    (first second : Except EvaluationError α × EvaluationState) : Prop where
  result : second.1 = first.1
  shallow : ∀ error, first.1 = .error error → error.fault.exceedsLimit = false
  environment : second.2.environment = first.2.environment
  log : second.2.log = first.2.log
  tightDepth : first.2.depth = tight.depth
  looseDepth : second.2.depth = loose.depth

namespace EvaluationState.Loosens

variable {limit higher : Nat} {tight loose : EvaluationState}

/-- A state that leaves the same room as it had. -/
theorem after {α : Type} {first second : Except EvaluationError α × EvaluationState}
    (loosens : tight.Loosens limit higher loose)
    (same : Evaluation.SameRun tight loose first second) :
    first.2.Loosens limit higher second.2 where
  environment := same.environment
  log := same.log
  within := by rw [same.tightDepth]; exact loosens.within
  room := by rw [same.tightDepth, same.looseDepth]; exact loosens.room

/-- A state is as loose as itself under a limit that is not lower. -/
theorem self {state : EvaluationState} (within : state.depth ≤ limit)
    (raised : limit ≤ higher) : state.Loosens limit higher state :=
  ⟨rfl, rfl, within, Nat.add_le_add_left raised _⟩

end EvaluationState.Loosens

namespace Evaluation

variable {α β : Type} {limit higher : Nat}

/-- From a state with more free levels, a second evaluation runs as a first one does from
a state with fewer, unless the first one stops one level beyond its limit. -/
def Relaxes (limit higher : Nat) (first second : Evaluation α) : Prop :=
  ∀ tight loose, tight.Loosens limit higher loose →
    (∃ error, (first.outcome tight).1 = .error error ∧
      error.fault = .tooDeep (limit + 1) limit) ∨
    SameRun tight loose (first.outcome tight) (second.outcome loose)

namespace Relaxes

theorem pure (value : α) :
    Relaxes limit higher (Pure.pure value : Evaluation α) (Pure.pure value) := by
  intro tight loose loosens
  refine .inr ⟨rfl, ?_, loosens.environment, loosens.log, rfl, rfl⟩
  rintro error ⟨⟩

theorem bind {first second : Evaluation α} {next other : α → Evaluation β}
    (relaxes : Relaxes limit higher first second)
    (further : ∀ value, Relaxes limit higher (next value) (other value)) :
    Relaxes limit higher (first >>= next) (second >>= other) := by
  intro tight loose loosens
  rw [outcome_bind, outcome_bind]
  rcases relaxes tight loose loosens with ⟨error, stopped, tooDeep⟩ | same
  · left
    refine ⟨error, ?_, tooDeep⟩
    rcases firstEnds : first.outcome tight with ⟨_ | _, _⟩ <;>
      simp_all
  · have afterwards := loosens.after same
    rcases firstEnds : first.outcome tight with ⟨error | value, tightAfter⟩ <;>
      rcases secondEnds : second.outcome loose with ⟨otherResult, looseAfter⟩ <;>
        rw [firstEnds, secondEnds] at same afterwards
    · obtain rfl : otherResult = .error error := same.result
      refine .inr ⟨rfl, ?_, same.environment, same.log, same.tightDepth, same.looseDepth⟩
      rintro _ ⟨⟩
      exact same.shallow error rfl
    · obtain rfl : otherResult = .ok value := same.result
      refine (further value tightAfter looseAfter afterwards).imp id fun sameNext => ?_
      exact { sameNext with
        tightDepth := sameNext.tightDepth.trans same.tightDepth
        looseDepth := sameNext.looseDepth.trans same.looseDepth }

theorem tell (event : LogEvent) :
    Relaxes limit higher (Evaluation.tell event) (Evaluation.tell event) := by
  intro tight loose loosens
  have logs := congrArg (Array.push · event) loosens.log
  refine .inr ⟨rfl, ?_, loosens.environment, logs, rfl, rfl⟩
  rintro error ⟨⟩

theorem define (name : String) (value : Value) :
    Relaxes limit higher (Evaluation.define name value) (Evaluation.define name value) := by
  intro tight loose loosens
  have environments := congrArg (Environment.define · name value) loosens.environment
  refine .inr ⟨rfl, ?_, environments, loosens.log, rfl, rfl⟩
  rintro error ⟨⟩

theorem inFrame {first second : Evaluation α} (relaxes : Relaxes limit higher first second) :
    Relaxes limit higher (Evaluation.inFrame first) (Evaluation.inFrame second) := by
  intro tight loose loosens
  have opened := relaxes { tight with environment := tight.environment.push }
    { loose with environment := loose.environment.push }
    { loosens with environment := congrArg Environment.push loosens.environment }
  refine opened.imp id fun same => ?_
  exact { same with environment := congrArg Environment.pop same.environment }

/-- An evaluation that stays within its limit ends in the same way, and in the same state,
under a higher one. -/
theorem outcome_eq {first second : Evaluation α} (relaxes : Relaxes limit higher first second)
    {state : EvaluationState} (within : state.depth ≤ limit) (raised : limit ≤ higher)
    (shallow : ∀ error, (first.outcome state).1 = .error error →
      error.fault.exceedsLimit = false) :
    second.outcome state = first.outcome state := by
  rcases relaxes state state (.self within raised) with ⟨error, stopped, tooDeep⟩ | same
  · have notTooDeep := shallow error stopped
    rw [tooDeep] at notTooDeep
    cases notTooDeep
  · obtain ⟨result, -, environment, log, tightDepth, looseDepth⟩ := same
    refine Prod.ext result ?_
    rw [EvaluationState.mk.injEq]
    exact ⟨environment, looseDepth.trans tightDepth.symm, log⟩

/-- An evaluation that does not stay within its limit stops one level beyond it. -/
theorem tooDeep_of_exceedsLimit {first second : Evaluation α}
    (relaxes : Relaxes limit higher first second) {state : EvaluationState}
    (within : state.depth ≤ limit) (raised : limit ≤ higher) {error : EvaluationError}
    (failed : (first.outcome state).1 = .error error)
    (exceeds : error.fault.exceedsLimit = true) :
    error.fault = .tooDeep (limit + 1) limit := by
  rcases relaxes state state (.self within raised) with ⟨other, stopped, tooDeep⟩ | same
  · obtain rfl : error = other := Except.error.inj (failed.symm.trans stopped)
    exact tooDeep
  · rw [same.shallow error failed] at exceeds
    cases exceeds

section Evaluators

variable (evaluator : Evaluator)

theorem fail (span : Span) {fault : EvaluationFault}
    (shallow : fault.exceedsLimit = false) :
    Relaxes limit higher (evaluator.fail span fault : Evaluation α)
      ({ evaluator with maxDepth := higher }.fail span fault) := by
  intro tight loose loosens
  refine .inr ⟨rfl, ?_, loosens.environment, loosens.log, rfl, rfl⟩
  rintro _ ⟨⟩
  exact shallow

/-- Where the tight evaluation can go one level deeper, the loose one can. -/
theorem nested {first second : Evaluation α}
    (relaxes : Relaxes evaluator.maxDepth higher first second) (span other : Span) :
    Relaxes evaluator.maxDepth higher (evaluator.nested span first)
      ({ evaluator with maxDepth := higher }.nested other second) := by
  intro tight loose loosens
  have room := loosens.room
  rw [Evaluator.outcome_nested, Evaluator.outcome_nested]
  by_cases reached : evaluator.maxDepth ≤ tight.depth
  · left
    have atLimit : tight.depth = evaluator.maxDepth :=
      Nat.le_antisymm loosens.within reached
    rw [if_pos reached, atLimit]
    exact ⟨_, rfl, rfl⟩
  · have free : ¬ higher ≤ loose.depth := by omega
    rw [if_neg reached, if_neg free]
    have deeper := relaxes { tight with depth := tight.depth + 1 }
      { loose with depth := loose.depth + 1 }
      ⟨loosens.environment, loosens.log, by simp only; omega, by simp only; omega⟩
    refine deeper.imp id fun same => ?_
    exact { same with
      tightDepth := congrArg (· - 1) same.tightDepth
      looseDepth := congrArg (· - 1) same.looseDepth }

/-- An evaluation may leave out a level that the tight one goes down. -/
theorem unnested {first second : Evaluation α}
    (relaxes : Relaxes evaluator.maxDepth higher first second) (span : Span) :
    Relaxes evaluator.maxDepth higher (evaluator.nested span first) second := by
  intro tight loose loosens
  have room := loosens.room
  rw [Evaluator.outcome_nested]
  by_cases reached : evaluator.maxDepth ≤ tight.depth
  · left
    have atLimit : tight.depth = evaluator.maxDepth :=
      Nat.le_antisymm loosens.within reached
    rw [if_pos reached, atLimit]
    exact ⟨_, rfl, rfl⟩
  · rw [if_neg reached]
    have deeper := relaxes { tight with depth := tight.depth + 1 } loose
      ⟨loosens.environment, loosens.log, by simp only; omega, by simp only; omega⟩
    refine deeper.imp id fun same => ?_
    exact { same with tightDepth := congrArg (· - 1) same.tightDepth }

theorem resolvePath (path : VariablePath) (span : Span) :
    Relaxes limit higher (evaluator.resolvePath path span)
      ({ evaluator with maxDepth := higher }.resolvePath path span) := by
  intro tight loose loosens
  simp only [Evaluator.resolvePath, outcome_bind, outcome_get, loosens.environment]
  cases tight.environment.get? path.root with
  | none =>
      exact bind (tell _) (fun _ => fail evaluator span rfl) tight loose loosens
  | some value =>
      dsimp only
      cases value.follow path.segments with
      | ok part => exact pure part tight loose loosens
      | error failure => exact fail evaluator span rfl tight loose loosens

/-- Raising the limit gives every operation of an evaluator more room. -/
theorem pairs (higher : Nat) :
    Evaluator.NodePairs evaluator { evaluator with maxDepth := higher } id (fun _ => True)
      fun _ first second => Relaxes evaluator.maxDepth higher first second where
  pure := .pure
  bind := .bind
  fail span _ shallow := .fail evaluator span shallow
  path _ := .resolvePath evaluator _ _
  lookup _ := rfl
  nested relaxes span := .nested evaluator relaxes span _
  tell _ := .tell _
  define := .define
  inFrame := .inFrame

end Evaluators

end Relaxes

end Evaluation

namespace Evaluator

open Evaluation

variable (evaluator : Evaluator)

theorem evaluate_relaxes (higher : Nat) (program : Program) :
    Relaxes evaluator.maxDepth higher (evaluator.evaluate program)
      ({ evaluator with maxDepth := higher }.evaluate program) := by
  have related := evaluate_related (Relaxes.pairs evaluator higher) program
    fun _ _ => trivial
  rwa [Program.mapSpans, mapBodySpans_id] at related

/-- A program that is evaluated from a depth of zero and exceeds the limit is nested deeper
than the limit. -/
theorem limit_lt_nesting {program : Program} {environment : Environment}
    {log : Array LogEvent} {error : EvaluationError}
    (failed : ((evaluator.evaluate program).outcome { environment, log }).1 = .error error)
    (exceeds : error.fault.exceedsLimit = true) :
    evaluator.maxDepth < program.nesting := by
  apply Nat.lt_of_not_le
  intro fits
  have room : 0 + program.nesting ≤ evaluator.maxDepth := by omega
  have ⟨shallow, _⟩ := evaluator.evaluate_fits program { environment, log } room
  rw [shallow error failed] at exceeds
  cases exceeds

/-- Raising the limit of nesting changes nothing but errors about the limit.  Unless the
evaluation of a program exceeds the lower limit, it ends under the higher one with the same
result and in the same state.  If it exceeds the lower limit, it does so by one level, and
the program is nested deeper than that limit. -/
theorem evaluate_raised_limit (registry : Registry) (source : Source) (program : Program)
    (environment : Environment) (log : Array LogEvent) {limit higher : Nat}
    (raised : limit ≤ higher) :
    let under (maxDepth : Nat) :=
      (evaluate ⟨registry, source, maxDepth⟩ program).outcome { environment, log }
    ((∀ error, (under limit).1 = .error error → error.fault.exceedsLimit = false) →
      under higher = under limit) ∧
    ∀ error, (under limit).1 = .error error → error.fault.exceedsLimit = true →
      error.fault = .tooDeep (limit + 1) limit ∧ limit < program.nesting := by
  intro under
  have relaxes := evaluate_relaxes ⟨registry, source, limit⟩ higher program
  constructor
  · intro shallow
    exact relaxes.outcome_eq (Nat.zero_le limit) raised shallow
  · intro error failed exceeds
    constructor
    · exact relaxes.tooDeep_of_exceedsLimit (Nat.zero_le limit) raised failed exceeds
    · exact limit_lt_nesting ⟨registry, source, limit⟩ failed exceeds

/-- Whether two conditionals, one inside the other, exceed a limit of one depends on the
data: if the outer condition is false they do not, and if it is true they do. -/
theorem evaluate_raised_limit_nestedConditionals :
    let inner : Node := .conditional
      [.mk (.literal (.boolean true) ⟨13, 17⟩) [.text "x" ⟨18, 19⟩]] none ⟨8, 23⟩
    let program : Program := ⟨[.conditional
      [.mk (.path ⟨"a", []⟩ ⟨4, 6⟩) [inner]] none ⟨0, 27⟩], ⟨0, 27⟩⟩
    let under (maxDepth : Nat) (a : Bool) :=
      (evaluate ⟨.empty, ⟨"t", "#if ($a)#if (true)x#end#end"⟩, maxDepth⟩ program).outcome
        { environment := { data := .ofPairs [("a", .boolean a)] } }
    1 ≤ 2 ∧ under 2 false = under 1 false ∧ (under 1 false).1 = .ok "" ∧
      (under 2 true).1 = .ok "x" ∧
      ∃ error, (under 1 true).1 = .error error ∧ error.fault = .tooDeep 2 1 ∧
        1 < program.nesting := by
  intro inner program under
  have raised : 1 ≤ 2 := by decide
  have outer := evaluate_raised_limit .empty ⟨"t", "#if ($a)#if (true)x#end#end"⟩ program
    { data := .ofPairs [("a", .boolean false)] } #[] raised
  have both := evaluate_raised_limit .empty ⟨"t", "#if ($a)#if (true)x#end#end"⟩ program
    { data := .ofPairs [("a", .boolean true)] } #[] raised
  have written : (under 1 false).1 = .ok "" := by decide +kernel
  have stopped : (under 1 true).1 = .error ⟨.tooDeep 2 1, ⟨1, 9, 8⟩⟩ := by decide +kernel
  have ⟨tooDeep, nested⟩ := both.2 _ stopped rfl
  refine ⟨raised, outer.1 ?_, written, by decide +kernel, _, stopped, tooDeep, nested⟩
  intro error failed
  rw [written] at failed
  cases failed

end Evaluator

end Stencil
