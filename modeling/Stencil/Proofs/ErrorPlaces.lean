import Stencil.Proofs.DepthLimit
import Stencil.Proofs.LocatedExpressions
import Stencil.Proofs.Positions

/-!
# Where errors point

An error of an evaluation concerns one expression of the template: the path or the call
that failed, or the header of a block.  Its position is that at which this expression
begins in the text.
-/

namespace Stencil

/-- The expressions that a fault can be about: a path, a call, or one of some headers of
blocks. -/
def EvaluationFault.Concerns (headers : List Expression) :
    EvaluationFault → Expression → Prop
  | .undefinedVariable name, expression =>
      ∃ path span, expression = .path path span ∧ path.root = name
  | .unresolvedPath text _ _, expression =>
      ∃ path span, expression = .path path span ∧ path.text = text
  | .undefinedMacro name, expression
  | .wrongArgumentCount name _ _, expression
  | .macroFailed name _, expression =>
      ∃ arguments span, expression = .call name arguments span
  | .wrongType _, expression => expression ∈ headers
  | .tooDeep _ _, _ => False

namespace Evaluator

/-- An error is that of the limit, or it concerns one of some expressions and has the
position at which that one begins. -/
def Blames (evaluator : Evaluator) (expressions headers : List Expression)
    (error : EvaluationError) : Prop :=
  error.fault.exceedsLimit ∨ ∃ expression ∈ expressions,
    error.fault.Concerns headers expression ∧
      error.position = evaluator.source.positionAt expression.span.start

end Evaluator

namespace Evaluation

variable {α β : Type}

/-- Every error with which an evaluation can end is of some kind. -/
def FailsOnlyWith (evaluation : Evaluation α) (allowed : EvaluationError → Prop) : Prop :=
  ∀ state error, (evaluation.outcome state).1 = .error error → allowed error

namespace FailsOnlyWith

variable {allowed : EvaluationError → Prop}

theorem pure (value : α) : (Pure.pure value : Evaluation α).FailsOnlyWith allowed :=
  fun _ _ failed => nomatch failed

theorem tell (event : LogEvent) : (Evaluation.tell event).FailsOnlyWith allowed :=
  fun _ _ failed => nomatch failed

theorem define (name : String) (value : Value) :
    (Evaluation.define name value).FailsOnlyWith allowed :=
  fun _ _ failed => nomatch failed

theorem bind {first : Evaluation α} {next : α → Evaluation β}
    (firstFails : first.FailsOnlyWith allowed)
    (nextFails : ∀ value, (next value).FailsOnlyWith allowed) :
    (first >>= next).FailsOnlyWith allowed := by
  intro state error failed
  rw [outcome_bind] at failed
  rcases ended : first.outcome state with ⟨stopped | value, after⟩ <;> rw [ended] at failed
  · cases failed
    exact firstFails state error (congrArg Prod.fst ended)
  · exact nextFails value after error failed

theorem inFrame {evaluation : Evaluation α} (fails : evaluation.FailsOnlyWith allowed) :
    (Evaluation.inFrame evaluation).FailsOnlyWith allowed :=
  fun state error failed =>
    fails { state with environment := state.environment.push } error failed

variable (evaluator : Evaluator)

theorem fail {span : Span} {fault : EvaluationFault}
    (isAllowed : allowed ⟨fault, evaluator.source.positionAt span.start⟩) :
    (evaluator.fail span fault : Evaluation α).FailsOnlyWith allowed := by
  intro state error failed
  cases failed
  exact isAllowed

theorem nested {evaluation : Evaluation α} (fails : evaluation.FailsOnlyWith allowed)
    (limits : ∀ error, error.fault.exceedsLimit → allowed error) (span : Span) :
    (evaluator.nested span evaluation).FailsOnlyWith allowed := by
  intro state error failed
  rw [Evaluator.outcome_nested] at failed
  split at failed
  · cases failed
    exact limits _ rfl
  · exact fails { state with depth := state.depth + 1 } error failed

end FailsOnlyWith

end Evaluation

namespace Evaluator

open Evaluation

section Trees

variable (evaluator : Evaluator) {expressions headers : List Expression}

theorem Blames.of_concerns {fault : EvaluationFault} {expression : Expression}
    (member : expression ∈ expressions) (concerns : fault.Concerns headers expression) :
    evaluator.Blames expressions headers
      ⟨fault, evaluator.source.positionAt expression.span.start⟩ :=
  .inr ⟨expression, member, concerns, rfl⟩

theorem resolvePath_blames {path : VariablePath} {span : Span}
    (member : .path path span ∈ expressions) :
    (evaluator.resolvePath path span).FailsOnlyWith
      (evaluator.Blames expressions headers) := by
  intro state error failed
  simp only [resolvePath, outcome_bind, outcome_get] at failed
  cases found : state.environment.get? path.root with
  | none =>
      rw [found] at failed
      cases failed
      exact .of_concerns evaluator member ⟨path, span, rfl, rfl⟩
  | some value =>
      rw [found] at failed
      dsimp only at failed
      cases followed : value.follow path.segments with
      | ok part =>
          rw [followed] at failed
          cases failed
      | error failure =>
          rw [followed] at failed
          cases failed
          exact .of_concerns evaluator member ⟨path, span, rfl, rfl⟩

theorem applyMacro_blames {name : String} {arguments : List Expression} {span : Span}
    (member : .call name arguments span ∈ expressions) (values : List Value) :
    (evaluator.applyMacro name values span).FailsOnlyWith
      (evaluator.Blames expressions headers) := by
  have blames (fault : EvaluationFault)
      (concerns : fault.Concerns headers (.call name arguments span)) :
      (evaluator.fail span fault : Evaluation Value).FailsOnlyWith
        (evaluator.Blames expressions headers) :=
    .fail evaluator (.of_concerns evaluator member concerns)
  unfold applyMacro
  split
  · exact blames _ ⟨arguments, span, rfl⟩
  · split
    · split
      · exact .pure _
      · exact blames _ ⟨arguments, span, rfl⟩
    · exact blames _ ⟨arguments, span, rfl⟩

mutual

theorem evaluateExpression_blames : ∀ expression : Expression,
    expression.parts ⊆ expressions →
      (evaluator.evaluateExpression expression).FailsOnlyWith
        (evaluator.Blames expressions headers)
  | .literal value span, _ => by
      rw [evaluateExpression]
      exact .pure _
  | .path path span, within => by
      rw [evaluateExpression]
      exact resolvePath_blames evaluator (within (List.mem_singleton_self _))
  | .call name arguments span, within => by
      rw [evaluateExpression]
      have inside := evaluateArguments_blames arguments
        (fun _ member => within (List.mem_cons_of_mem _ member))
      refine .nested evaluator (.bind inside fun values => ?_) (fun _ => .inl) span
      exact applyMacro_blames evaluator (within List.mem_cons_self) values

theorem evaluateArguments_blames : ∀ arguments : List Expression,
    argumentParts arguments ⊆ expressions →
      (evaluator.evaluateArguments arguments).FailsOnlyWith
        (evaluator.Blames expressions headers)
  | [], _ => by
      rw [evaluateArguments]
      exact .pure _
  | argument :: arguments, within => by
      rw [evaluateArguments]
      obtain ⟨first, others⟩ := List.append_subset.mp within
      exact .bind (evaluateExpression_blames argument first) fun _ =>
        .bind (evaluateArguments_blames arguments others) fun _ => .pure _

end

/-- A value of the wrong type in the header of a block is blamed on the header. -/
theorem fail_wrongType_blames {α : Type} {header : Expression}
    (within : header.parts ⊆ expressions) (isHeader : header ∈ headers)
    (message : String) :
    (evaluator.fail header.span (.wrongType message) : Evaluation α).FailsOnlyWith
      (evaluator.Blames expressions headers) :=
  .fail evaluator (.of_concerns evaluator (within header.mem_parts_self) isHeader)

theorem evaluateCondition_blames {condition : Expression}
    (within : condition.parts ⊆ expressions) (isHeader : condition ∈ headers) :
    (evaluator.evaluateCondition condition).FailsOnlyWith
      (evaluator.Blames expressions headers) := by
  refine .bind (evaluateExpression_blames evaluator condition within) fun value => ?_
  split
  · exact .pure _
  · exact fail_wrongType_blames evaluator within isHeader _

theorem evaluateIterable_blames {iterable : Expression}
    (within : iterable.parts ⊆ expressions) (isHeader : iterable ∈ headers) :
    (evaluator.evaluateIterable iterable).FailsOnlyWith
      (evaluator.Blames expressions headers) := by
  refine .bind (evaluateExpression_blames evaluator iterable within) fun value => ?_
  split
  · exact .pure _
  · exact fail_wrongType_blames evaluator within isHeader _

theorem evaluateEntries_failsOnlyWith {allowed : EvaluationError → Prop}
    (key : Option String) (item : String) {body : Evaluation String}
    (fails : body.FailsOnlyWith allowed) (entries : List (Value × Value)) :
    (evaluateEntries key item body entries).FailsOnlyWith allowed := by
  have defines (entry : Value × Value) :
      (defineEntry key item entry).FailsOnlyWith allowed := by
    cases key with
    | none => exact .define item entry.2
    | some key => exact .bind (.define key entry.1) fun _ => .define item entry.2
  unfold evaluateEntries
  generalize "" = written
  induction entries generalizing written with
  | nil => exact .pure _
  | cons entry entries ih =>
      rw [List.foldlM_cons]
      refine .bind ?_ fun written => ih written
      exact .bind (.inFrame (.bind (defines entry) fun _ => fails)) fun _ => .pure _

mutual

theorem evaluateNode_blames : ∀ node : Node, node.expressions ⊆ expressions →
    node.blockHeaders ⊆ headers →
      (evaluator.evaluateNode node).FailsOnlyWith (evaluator.Blames expressions headers)
  | .text content span, _, _ => by
      rw [evaluateNode]
      exact .pure _
  | .output expression, within, _ => by
      rw [evaluateNode]
      exact .bind (evaluateExpression_blames evaluator expression within) fun _ => .pure _
  | .conditional branches otherwise span, within, headed => by
      rw [evaluateNode]
      obtain ⟨inBranches, inLast⟩ := List.append_subset.mp within
      obtain ⟨branchHeaders, lastHeaders⟩ := List.append_subset.mp headed
      have first := evaluateBranches_blames branches inBranches branchHeaders
      have last := evaluateOtherwise_blames otherwise inLast lastHeaders
      refine .nested evaluator (.bind first fun output? => ?_) (fun _ => .inl) span
      cases output? with
      | some output => exact .pure _
      | none => exact last
  | .loop key item iterable body span, within, headed => by
      rw [evaluateNode]
      obtain ⟨inIterable, inBody⟩ := List.append_subset.mp within
      obtain ⟨isHeader, bodyHeaders⟩ := List.cons_subset.mp headed
      have first := evaluateIterable_blames evaluator inIterable isHeader
      have each := evaluateBody_blames body inBody bodyHeaders
      refine .nested evaluator (.bind first fun iteration => .bind (.tell _) fun _ => ?_)
        (fun _ => .inl) span
      exact evaluateEntries_failsOnlyWith _ item each _
  | .binding name value span, within, _ => by
      rw [evaluateNode]
      exact .bind (evaluateExpression_blames evaluator value within) fun _ =>
        .bind (.define _ _) fun _ => .pure _

theorem evaluateBranches_blames : ∀ branches : List Branch,
    branchExpressions branches ⊆ expressions → branchBlockHeaders branches ⊆ headers →
      (evaluator.evaluateBranches branches).FailsOnlyWith
        (evaluator.Blames expressions headers)
  | [], _, _ => by
      rw [evaluateBranches]
      exact .pure _
  | branch :: branches, within, headed => by
      rw [evaluateBranches]
      obtain ⟨inFirst, inOthers⟩ := List.append_subset.mp within
      obtain ⟨firstHeaders, otherHeaders⟩ := List.append_subset.mp headed
      refine .bind (evaluateBranch_blames branch inFirst firstHeaders) fun output? => ?_
      cases output? with
      | some output => exact .pure _
      | none => exact evaluateBranches_blames branches inOthers otherHeaders

theorem evaluateBranch_blames : ∀ branch : Branch, branch.expressions ⊆ expressions →
    branch.blockHeaders ⊆ headers →
      (evaluator.evaluateBranch branch).FailsOnlyWith
        (evaluator.Blames expressions headers)
  | .mk condition body, within, headed => by
      rw [evaluateBranch]
      obtain ⟨inCondition, inBody⟩ := List.append_subset.mp within
      obtain ⟨isHeader, bodyHeaders⟩ := List.cons_subset.mp headed
      have first := evaluateCondition_blames evaluator inCondition isHeader
      refine .bind first fun holds => ?_
      split
      · exact .bind (evaluateBody_blames body inBody bodyHeaders) fun _ => .pure _
      · exact .pure _

theorem evaluateOtherwise_blames : ∀ otherwise : Option (List Node),
    otherwiseExpressions otherwise ⊆ expressions →
      otherwiseBlockHeaders otherwise ⊆ headers →
      (evaluator.evaluateOtherwise otherwise).FailsOnlyWith
        (evaluator.Blames expressions headers)
  | none, _, _ => by
      rw [evaluateOtherwise]
      exact .pure _
  | some body, within, headed => by
      rw [evaluateOtherwise]
      exact evaluateBody_blames body within headed

theorem evaluateBody_blames : ∀ nodes : List Node, bodyExpressions nodes ⊆ expressions →
    bodyBlockHeaders nodes ⊆ headers →
      (evaluator.evaluateBody nodes).FailsOnlyWith (evaluator.Blames expressions headers)
  | [], _, _ => by
      rw [evaluateBody]
      exact .pure _
  | node :: nodes, within, headed => by
      rw [evaluateBody]
      obtain ⟨inFirst, inOthers⟩ := List.append_subset.mp within
      obtain ⟨firstHeaders, otherHeaders⟩ := List.append_subset.mp headed
      exact .bind (evaluateNode_blames node inFirst firstHeaders) fun _ =>
        .bind (evaluateBody_blames nodes inOthers otherHeaders) fun _ => .pure _

end

/-- An error of a program is that of the limit, or it concerns an expression of the
program and has the position of that one. -/
theorem evaluate_blames (program : Program) :
    (evaluator.evaluate program).FailsOnlyWith
      (evaluator.Blames program.expressions program.blockHeaders) :=
  .bind (evaluateBody_blames evaluator program.nodes (List.Subset.refl _)
    (List.Subset.refl _)) fun _ => .bind (.tell _) fun _ => .pure _

end Trees

end Evaluator

/-- An error points at an expression of a program: its position is that at which the
expression begins in the text, in bytes and in lines and columns.  What begins there is
what the error names: the root of a path, a macro that is called, or the header of a
block. -/
def EvaluationError.PointsInto (error : EvaluationError) (program : Program)
    (text : List Char) : Prop :=
  ∃ expression ∈ program.expressions, ∃ before after,
    text = before ++ after ∧ expression.span.start = byteLength before ∧
      error.position.offset = byteLength before ∧
      error.position.line = 1 + before.count '\n' ∧
      error.position.column = 1 + (before.reverse.takeWhile (· ≠ '\n')).length ∧
      match error.fault with
      | .undefinedVariable name =>
          (∃ path span, expression = .path path span) ∧ '$' :: name.toList <+: after
      | .unresolvedPath written _ _ =>
          ∃ path span, expression = .path path span ∧ path.text = written ∧
            '$' :: path.root.toList <+: after
      | .undefinedMacro name | .wrongArgumentCount name _ _ | .macroFailed name _ =>
          (∃ arguments span, expression = .call name arguments span) ∧
            '@' :: name.toList <+: after
      | .wrongType _ => expression ∈ program.blockHeaders
      | .tooDeep _ _ => False

/-- What an error is blamed on is what it points at. -/
theorem EvaluationError.pointsInto_of_concerns {error : EvaluationError}
    {program : Program} {source : Source} {expression : Expression}
    (member : expression ∈ program.expressions)
    (begins : expression.BeginsIn source.characters)
    (concerns : error.fault.Concerns program.blockHeaders expression)
    (place : error.position = source.positionAt expression.span.start) :
    error.PointsInto program source.characters := by
  obtain ⟨before, after, split, start, opening⟩ := begins
  rw [← start, Source.positionAt_byteLength split] at place
  refine ⟨expression, member, before, after, split, start.symm, by rw [place], by rw [place],
    by rw [place], ?_⟩
  cases fault : error.fault with
  | undefinedVariable name =>
      rw [fault] at concerns
      obtain ⟨path, span, rfl, rfl⟩ := concerns
      exact ⟨⟨path, span, rfl⟩, opening⟩
  | unresolvedPath written segment reason =>
      rw [fault] at concerns
      obtain ⟨path, span, rfl, same⟩ := concerns
      exact ⟨path, span, rfl, same, opening⟩
  | undefinedMacro name | wrongArgumentCount name arity found | macroFailed name cause =>
      rw [fault] at concerns
      obtain ⟨arguments, span, rfl⟩ := concerns
      exact ⟨⟨arguments, span, rfl⟩, opening⟩
  | wrongType message =>
      rw [fault] at concerns
      exact concerns
  | tooDeep depth limit =>
      rw [fault] at concerns
      exact concerns

namespace Engine

variable (engine : Engine) (template : String)

variable {engine} in
/-- A record that fails is one for which the evaluation of the program stops. -/
theorem outcome_of_stopped {parsed : ParsedTemplate} {data : Fields}
    {error : EvaluationError}
    (failed : (engine.evaluateRecord parsed data).answer = .error (.stopped error)) :
    (((engine.evaluatorFor parsed).evaluate parsed.program).outcome
      { environment := { data } }).1 = .error error := by
  have answered : ((((engine.evaluatorFor parsed).evaluate parsed.program).outcome
      { environment := { data } }).1.mapError TemplateError.stopped) =
        .error (.stopped error) := failed
  revert answered
  cases (((engine.evaluatorFor parsed).evaluate parsed.program).outcome
    { environment := { data } }).1 with
  | ok output => exact fun answered => nomatch answered
  | error stopped =>
      intro answered
      cases answered
      rfl

theorem evaluateRecord_pointsInto (clean : (engine.parse template).diagnostics = [])
    {data : Fields} {error : EvaluationError}
    (failed : (engine.evaluateRecord (engine.parse template) data).answer =
      .error (.stopped error)) :
    error.PointsInto (engine.parse template).program template.toList := by
  -- A template that is parsed without a report is not nested too deeply.
  have within : error.fault.exceedsLimit = false :=
    engine.evaluateRecord_withinLimit template data failed
  have blamed := (engine.evaluatorFor (engine.parse template)).evaluate_blames
    (engine.parse template).program _ error (outcome_of_stopped failed)
  rcases blamed with exceeds | ⟨expression, member, concerns, place⟩
  · rw [within] at exceeds
    cases exceeds
  · have begins := parseTemplate_beginsIn clean member
    have source : (engine.evaluatorFor (engine.parse template)).source.characters =
        template.toList := rfl
    rw [← source] at begins ⊢
    exact EvaluationError.pointsInto_of_concerns member begins concerns place

/-- Every error of an evaluation, of one record or of one in a batch, points at the
expression of the template that it names. -/
theorem errors_point_at_expressions :
    (∀ data error, (engine.resolve template data).answer = .error (.stopped error) →
      error.PointsInto (engine.parse template).program template.toList) ∧
    (∀ records answers error,
      (engine.resolveBatch template records).answer = .ok answers →
        .error (.stopped error) ∈ answers →
          error.PointsInto (engine.parse template).program template.toList) ∧
    ∀ records error,
      (engine.resolveBatch template records).answer ≠ .error (.stopped error) := by
  by_cases clean : (engine.parse template).diagnostics = []
  · refine ⟨?_, ?_, ?_⟩
    · intro data error failed
      rw [resolve_of_clean clean] at failed
      exact engine.evaluateRecord_pointsInto template clean failed
    · intro records answers error answered member
      rw [resolveBatch_of_clean clean, Except.ok.injEq] at answered
      subst answered
      obtain ⟨data, _, failed⟩ := List.mem_map.mp member
      exact engine.evaluateRecord_pointsInto template clean failed
    · intro records error failed
      rw [resolveBatch_of_clean clean] at failed
      cases failed
  · refine ⟨?_, ?_, ?_⟩
    · intro data error failed
      rw [resolve_of_malformed clean] at failed
      cases failed
    · intro records answers error answered
      rw [resolveBatch_of_malformed clean] at answered
      cases answered
    · intro records error failed
      rw [resolveBatch_of_malformed clean] at failed
      cases failed

/-- Behind a trimmed line break and characters of several bytes, an error points at a
path in the second entry of a loop, and in a batch another one at the header. -/
theorem errors_point_at_expressions_loop :
    let engine := create {}
    let template := "é#let (n = 1)\r\n#for (v in $xs) ü\n $v.name#end"
    let data : Fields := .ofPairs
      [("xs", .array [.object (.ofPairs [("name", .string "b")]), .object ∅])]
    let error : EvaluationError :=
      ⟨.unresolvedPath "$v.name" ".name" "no such field", ⟨3, 2, 36⟩⟩
    let missing : EvaluationError := ⟨.undefinedVariable "xs", ⟨2, 12, 27⟩⟩
    (engine.resolve template data).answer = .error (.stopped error) ∧
      error.PointsInto (engine.parse template).program template.toList ∧
      ∃ answers, (engine.resolveBatch template [data, ∅]).answer = .ok answers ∧
        .error (.stopped missing) ∈ answers ∧
        missing.PointsInto (engine.parse template).program template.toList := by
  intro engine template data error missing
  have failed : (engine.resolve template data).answer = .error (.stopped error) := by
    decide +kernel
  have lacking : (engine.resolve template ∅).answer = .error (.stopped missing) := by
    decide +kernel
  have clean : (engine.parse template).diagnostics = [] := by decide +kernel
  obtain ⟨single, batch, -⟩ := engine.errors_point_at_expressions template
  have answered := resolveBatch_of_clean clean [data, ∅]
  rw [resolve_of_clean clean] at lacking
  have member : .error (.stopped missing) ∈ [data, ∅].map fun data =>
      (engine.evaluateRecord (engine.parse template) data).answer := by simp [lacking]
  exact ⟨failed, single data error failed, _, answered, member,
    batch _ _ missing answered member⟩

end Engine

end Stencil
