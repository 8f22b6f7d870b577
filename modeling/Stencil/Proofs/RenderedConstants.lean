import Stencil.Proofs.ExactSpans
import Stencil.Proofs.Positions
import Stencil.Proofs.PrintedPrograms

/-!
# Rendered constants

What is rendered is read back.  The text of an array of constants in the output, put
between the parentheses of a call, is parsed to these constants, and the macro that is
called is applied to them.  So different arrays have different texts.
-/

namespace Stencil

/-- The constant that stands for a value, if there is one with an exact text. -/
def Value.constant? : Value → Option Literal
  | .null => some .null
  | .boolean value => some (.boolean value)
  | .integer number => some (.integer number)
  | .string content => some (.string content)
  | _ => none

/-- The value of an expression that is a constant. -/
def Expression.constantValue? : Expression → Option Value
  | .literal value _ => some value.value
  | _ => none

/-- A call whose arguments are written as the rendered text of an array. -/
def renderedCall (name : String) (values : List Value) : String :=
  "@" ++ name ++ "(" ++ (Value.array values).render ++ ")"

theorem Value.value_of_constant? {value : Value} {constant : Literal}
    (stands : value.constant? = some constant) :
    constant.value = value ∧ constant.wellFormed := by
  cases value <;> cases stands <;> exact ⟨rfl, rfl⟩

/-- Values for each of which a constant stands are the values of constants. -/
theorem exists_constants {values : List Value} (constant : values.all (·.constant?.isSome)) :
    ∃ constants : List Literal, constants.map Literal.value = values ∧
      ∀ literal ∈ constants, literal.wellFormed := by
  induction values with
  | nil => exact ⟨[], rfl, nofun⟩
  | cons value values ih =>
      obtain ⟨first, others⟩ := Bool.and_eq_true_iff.mp constant
      obtain ⟨literal, stands⟩ := Option.isSome_iff_exists.mp first
      obtain ⟨isValue, formed⟩ := Value.value_of_constant? stands
      obtain ⟨literals, areValues, allFormed⟩ := ih others
      refine ⟨literal :: literals, by rw [List.map_cons, isValue, areValues], ?_⟩
      exact List.forall_mem_cons.mpr ⟨formed, allFormed⟩

section Arguments

variable {arguments : List Expression} {values : List Value}

@[simp]
theorem Expression.constantValue?_mapSpans (change : Span → Span) (expression : Expression) :
    (expression.mapSpans change).constantValue? = expression.constantValue? := by
  cases expression <;> rfl

theorem constantValues_mapArgumentSpans (change : Span → Span) (arguments : List Expression) :
    (mapArgumentSpans change arguments).map Expression.constantValue? =
      arguments.map Expression.constantValue? := by
  induction arguments with
  | nil => rfl
  | cons argument arguments ih => simp [mapArgumentSpans, ih]

theorem exists_literal_of_constantValue? {argument : Expression} {value : Value}
    (constant : argument.constantValue? = some value) :
    ∃ literal span, argument = .literal literal span ∧ literal.value = value := by
  cases argument with
  | literal literal span => exact ⟨literal, span, rfl, Option.some.inj constant⟩
  | _ => cases constant

/-- Constants are not nested. -/
theorem argumentsNesting_of_constants
    (constants : arguments.map Expression.constantValue? = values.map some) :
    argumentsNesting arguments = 0 := by
  induction arguments generalizing values with
  | nil => rfl
  | cons argument arguments ih =>
      obtain ⟨value, others, rfl, first, rest⟩ := List.map_eq_cons_iff.mp constants.symm
      obtain ⟨literal, span, rfl, -⟩ := exists_literal_of_constantValue? first.symm
      rw [argumentsNesting, ih rest.symm]
      rfl

/-- Constants evaluate to the values that they stand for. -/
theorem Evaluator.evaluateArguments_of_constants (evaluator : Evaluator)
    (constants : arguments.map Expression.constantValue? = values.map some) :
    evaluator.evaluateArguments arguments = pure values := by
  induction arguments generalizing values with
  | nil =>
      obtain rfl := List.map_eq_nil_iff.mp constants.symm
      rfl
  | cons argument arguments ih =>
      obtain ⟨value, others, rfl, first, rest⟩ := List.map_eq_cons_iff.mp constants.symm
      obtain ⟨literal, span, rfl, rfl⟩ := exists_literal_of_constantValue? first.symm
      rw [evaluateArguments, evaluateExpression, ih rest.symm, pure_bind, pure_bind]

end Arguments

theorem flatMap_quoteCharacter (content : List Char) :
    content.flatMap quoteCharacter = writtenContent content := by
  rw [writtenContent]
  congr
  funext character
  simp only [quoteCharacter, or_comm]

theorem quote_toList (content : String) :
    (quote content).toList = '"' :: (writtenContent content.toList ++ ['"']) := by
  simp [quote, flatMap_quoteCharacter]

/-- A constant is rendered as it is written. -/
theorem Literal.render_value {constant : Literal} (formed : constant.wellFormed) :
    constant.value.render.toList = constant.written := by
  cases constant with
  | string content => exact quote_toList content
  | float number => cases formed
  | boolean value => cases value <;> rfl
  | _ => rfl

/-- The texts of several constants, with a comma and a space before each. -/
def furtherTexts (constants : List Literal) : List Char :=
  constants.flatMap fun constant => ',' :: ' ' :: constant.written

theorem render_constants {first : Literal} {others : List Literal}
    (formed : ∀ constant ∈ first :: others, constant.wellFormed) :
    (Value.array ((first :: others).map Literal.value)).render.toList =
      first.written ++ furtherTexts others := by
  obtain ⟨firstFormed, othersFormed⟩ := List.forall_mem_cons.mp formed
  induction others generalizing first with
  | nil =>
      simp [Value.render, Value.renderItems, furtherTexts, Literal.render_value firstFormed]
  | cons second others ih =>
      obtain ⟨secondFormed, restFormed⟩ := List.forall_mem_cons.mp othersFormed
      have rest := ih othersFormed secondFormed restFormed
      simp only [Value.render, Value.renderItems, List.map_cons, String.toList_intercalate,
        List.intercalate_cons_cons] at rest ⊢
      rw [rest, Literal.render_value firstFormed]
      simp [furtherTexts]

theorem further_printed (constants : List Literal) :
    FurtherArgumentsPrintedAs (constants.map (Expression.literal · ⟨0, 0⟩))
      (furtherTexts constants) := by
  induction constants with
  | nil => rfl
  | cons constant constants ih =>
      refine ⟨' ' :: constant.written, furtherTexts constants, by simp [furtherTexts], ?_, ih⟩
      exact ⟨[' '], constant.written, [], by simp, blanks_space, .nil, rfl⟩

/-- The text of an array of constants prints the constants as arguments. -/
theorem arguments_printed {constants : List Literal}
    (formed : ∀ constant ∈ constants, constant.wellFormed) :
    ArgumentsPrintedAs (constants.map (Expression.literal · ⟨0, 0⟩))
      (Value.array (constants.map Literal.value)).render.toList := by
  cases constants with
  | nil => exact Blanks.nil
  | cons first others =>
      exact ⟨first.written, furtherTexts others, render_constants formed, .of rfl,
        further_printed others⟩

theorem argumentsWellFormed_constants {constants : List Literal}
    (formed : ∀ constant ∈ constants, constant.wellFormed) :
    argumentsWellFormed (constants.map (Expression.literal · ⟨0, 0⟩)) := by
  induction constants with
  | nil => rfl
  | cons constant constants ih =>
      obtain ⟨first, others⟩ := List.forall_mem_cons.mp formed
      exact Bool.and_eq_true_iff.mpr ⟨first, ih others⟩

theorem renderedCall_toList (name : String) (values : List Value) :
    (renderedCall name values).toList =
      '@' :: (name.toList ++ '(' :: ((Value.array values).render.toList ++ [')'])) := by
  simp [renderedCall]

/-- A node is a call of a macro at the front of a template, and its arguments are constants
that stand for values. -/
def Node.CallsWith (node : Node) (name : String) (values : List Value) : Prop :=
  ∃ arguments span, node = .output (.call name arguments span) ∧ span.start = 0 ∧
    arguments.map Expression.constantValue? = values.map some

section Call

variable {name : String} {values : List Value}

/-- A call with a rendered array is scanned into tokens that spell a call with its items. -/
theorem tokenize_renderedCall (trim : Bool) (proper : isName name)
    (constant : values.all (·.constant?.isSome)) :
    ∃ (tokens : List Token) (node : Node) (span : Span),
      tokenize trim (renderedCall name values) = (tokens ++ [⟨.endOfInput, span⟩], []) ∧
      node.SpelledBy tokens ∧ node.CallsWith name values := by
  obtain ⟨constants, rfl, formed⟩ := exists_constants constant
  obtain ⟨tokens, located, span, scan, spelled, same⟩ :=
    scansInto_printedCall trim proper (argumentsWellFormed_constants formed)
      (arguments_printed formed) 0 []
  rw [← renderedCall_toList, ScansInto, List.append_nil, Nat.zero_add] at scan
  let stop := byteLength (renderedCall name (constants.map Literal.value)).toList
  refine ⟨tokens, _, ⟨stop, stop⟩, ?_, spelled, located, span, rfl, ?_, ?_⟩
  · have begins : BeginsPiece (renderedCall name (constants.map Literal.value)).toList := by
      obtain ⟨first, rest, split, starts, -⟩ := exists_of_isName proper
      rw [renderedCall_toList, split]
      exact .inr ⟨'@', first, _, rfl, starts⟩
    rw [tokenize, scanBody_of_beginsPiece trim 0 begins, scan,
      scanBody_of_beginsPiece trim _ (.inl rfl)]
    rfl
  · obtain ⟨token, rest, rfl, start⟩ := spelled.first
    rw [← show token.span.start = span.start from start]
    exact scanAfterText_first (congrArg Scan.tokens scan)
  · rw [← constantValues_mapArgumentSpans nowhere, same, constantValues_mapArgumentSpans,
      List.map_map, List.map_map]
    rfl

/-- A call with a rendered array is parsed to a call with its items. -/
theorem parseTemplate_renderedCall {settings : Settings} (room : 1 ≤ settings.maxDepth)
    (proper : isName name) (constant : values.all (·.constant?.isSome)) :
    (parseTemplate settings (renderedCall name values)).diagnostics = [] ∧
      ∃ node, (parseTemplate settings (renderedCall name values)).program.nodes = [node] ∧
        node.CallsWith name values := by
  obtain ⟨tokens, node, span, scan, spelled, calls⟩ :=
    tokenize_renderedCall settings.trimLineBreaks proper constant
  have spelledBody : BodySpelledBy [node] tokens :=
    ⟨tokens, [], (List.append_nil tokens).symm, spelled, rfl⟩
  have within : bodyNesting [node] ≤ settings.maxDepth := by
    obtain ⟨arguments, callSpan, rfl, -, constants⟩ := calls
    simpa [bodyNesting, Node.nesting, Expression.nesting,
      argumentsNesting_of_constants constants] using room
  obtain ⟨clean, nodes⟩ := parseTemplate_of_spelled scan spelledBody within
  exact ⟨clean, node, nodes, calls⟩

/-- Different arrays of constants have different texts. -/
theorem render_injective {others : List Value} (constant : values.all (·.constant?.isSome))
    (othersConstant : others.all (·.constant?.isSome))
    (same : (Value.array others).render = (Value.array values).render) : others = values := by
  -- One call is parsed only in one way, and to the items of both arrays.
  have room : 1 ≤ (⟨1, false⟩ : Settings).maxDepth := Nat.le_refl 1
  have proper : isName "m" := by decide
  have sameCall : renderedCall "m" others = renderedCall "m" values := by
    rw [renderedCall, renderedCall, same]
  obtain ⟨-, node, nodes, arguments, span, rfl, -, constants⟩ :=
    parseTemplate_renderedCall room proper constant
  obtain ⟨-, node, otherNodes, otherArguments, otherSpan, rfl, -, otherConstants⟩ :=
    parseTemplate_renderedCall room proper othersConstant
  rw [sameCall, nodes] at otherNodes
  obtain ⟨⟨⟨-, rfl, -⟩⟩, -⟩ := List.cons.inj otherNodes
  have someInjective : ∀ first second : Value, some first = some second → first = second :=
    fun _ _ => Option.some.inj
  exact (List.map_inj_right someInjective).mp (otherConstants.symm.trans constants)

end Call

/-- A string literal that is written as the rendered text of a string is read up to the last
quote of that text, whatever follows it. -/
theorem readString?_render (content : String) :
    ∃ inside, (Value.string content).render.toList = '"' :: inside ∧
      ∀ following, readString? '"' (inside ++ following) =
        some ⟨content.toList, inside, following⟩ := by
  refine ⟨_, quote_toList content, fun following => ?_⟩
  rw [List.append_assoc, List.singleton_append]
  exact readString?_writtenContent content.toList following

section Evaluation

variable {evaluator : Evaluator} {name : String} {values : List Value} {entry : Macro}
  (registered : evaluator.registry.lookup name = some entry)
  (accepted : entry.arity.accepts values.length)

include registered accepted

/-- A call whose arguments are constants applies the macro to their values. -/
theorem Evaluator.outcome_call_of_constants {arguments : List Expression} (span : Span)
    {state : EvaluationState} (room : state.depth < evaluator.maxDepth)
    (constants : arguments.map Expression.constantValue? = values.map some) :
    ((evaluator.evaluateExpression (.call name arguments span)).outcome state).1 =
      match entry.apply values with
      | .ok value => .ok value
      | .error cause =>
          .error ⟨.macroFailed name cause, evaluator.source.positionAt span.start⟩ := by
  rw [evaluateExpression, outcome_nested, if_neg (Nat.not_le.mpr room),
    evaluateArguments_of_constants evaluator constants, pure_bind, applyMacro, registered]
  simp only [accepted, if_true]
  cases entry.apply values <;> rfl

/-- A program that is one call at the front writes what the macro gives for the values. -/
theorem Evaluator.outcome_evaluate_callsWith {program : Program} {node : Node}
    {state : EvaluationState} (nodes : program.nodes = [node])
    (calls : node.CallsWith name values) (room : state.depth < evaluator.maxDepth) :
    ((evaluator.evaluate program).outcome state).1 =
      match entry.apply values with
      | .ok value => .ok value.render
      | .error cause => .error ⟨.macroFailed name cause, ⟨1, 1, 0⟩⟩ := by
  obtain ⟨arguments, span, rfl, start, constants⟩ := calls
  have result := outcome_call_of_constants registered accepted span room constants
  rw [start, Source.positionAt_zero] at result
  simp only [evaluate, nodes, evaluateBody, evaluateNode, Evaluation.outcome_bind, outputText]
  generalize (evaluator.evaluateExpression (.call name arguments span)).outcome state =
    outcome at result ⊢
  obtain ⟨answer, after⟩ := outcome
  obtain rfl : answer = _ := result
  cases entry.apply values with
  | ok value => exact congrArg Except.ok String.append_empty
  | error cause => rfl

end Evaluation

namespace Engine

/-- What is rendered is read back.  Between the parentheses of a call, the text of an array
of constants is parsed to these constants, with nothing wrong with it, and a macro that
takes so many arguments is applied to exactly them.  So different arrays have different
texts; and the text of a string is a string literal that ends at its last quote. -/
theorem resolve_renderedCall (name : String) (values : List Value) (proper : isName name)
    (constant : values.all (·.constant?.isSome)) :
    (∀ settings : Settings, 1 ≤ settings.maxDepth →
      (parseTemplate settings (renderedCall name values)).diagnostics = [] ∧
        ∃ arguments span,
          (parseTemplate settings (renderedCall name values)).program.nodes =
            [.output (.call name arguments span)] ∧
          arguments.map Expression.constantValue? = values.map some) ∧
    (∀ (engine : Engine) (data : Fields) (entry : Macro), 1 ≤ engine.settings.maxDepth →
      engine.registry.lookup name = some entry → entry.arity.accepts values.length →
        (engine.resolve (renderedCall name values) data).answer =
          match entry.apply values with
          | .ok value => .ok value.render
          | .error cause => .error (.stopped ⟨.macroFailed name cause, ⟨1, 1, 0⟩⟩)) ∧
    (∀ others : List Value, others.all (·.constant?.isSome) →
      (Value.array others).render = (Value.array values).render → others = values) ∧
    ∀ content, ∃ inside, (Value.string content).render.toList = '"' :: inside ∧
      ∀ following, readString? '"' (inside ++ following) =
        some ⟨content.toList, inside, following⟩ := by
  refine ⟨?_, ?_, fun others => render_injective constant, readString?_render⟩
  · intro settings room
    obtain ⟨clean, node, nodes, arguments, span, rfl, -, constants⟩ :=
      parseTemplate_renderedCall room proper constant
    exact ⟨clean, arguments, span, nodes, constants⟩
  · intro engine data entry room registered accepted
    obtain ⟨clean, node, nodes, calls⟩ := parseTemplate_renderedCall room proper constant
    let evaluator := engine.evaluatorFor (engine.parse (renderedCall name values))
    let state : EvaluationState := { environment := { data } }
    have found : evaluator.registry.lookup name = some entry := registered
    have roomForCall : state.depth < evaluator.maxDepth := room
    have answered :=
      Evaluator.outcome_evaluate_callsWith found accepted nodes calls roomForCall
    rw [resolve_of_clean clean]
    refine (congrArg (Except.mapError TemplateError.stopped) answered).trans ?_
    cases entry.apply values <;> rfl

/-- The arguments of a call that gives them back are rendered again as they were: a string
with quotes, backslashes, sigils and a line break, the least integer and other constants. -/
theorem resolve_renderedCall_echo :
    let values : List Value := [.string "\\\"$x, @f(\") #end\n\\", .integer Int64.minValue,
      .null, .boolean false, .string ""]
    let echo : Macro := ⟨"echo", Arity.exactly 5, fun arguments => .ok (.array arguments)⟩
    let engine := (create ⟨1, true⟩).register echo
    isName "echo" ∧ values.all (·.constant?.isSome) ∧ echo.arity.accepts values.length ∧
      engine.registry.lookup "echo" = some echo ∧
      (engine.resolve (renderedCall "echo" values) ∅).answer =
        .ok "\"\\\\\\\"$x, @f(\\\") #end\n\\\\\", -9223372036854775808, null, false, \"\"" := by
  intro values echo engine
  have proper : isName "echo" := by decide
  have constant : values.all (·.constant?.isSome) := by decide
  have accepted : echo.arity.accepts values.length := by decide
  have registered : engine.registry.lookup "echo" = some echo :=
    Registry.lookup_register Registry.builtins echo "echo"
  obtain ⟨-, applied, -⟩ := resolve_renderedCall "echo" values proper constant
  refine ⟨proper, constant, accepted, registered, ?_⟩
  rw [applied engine ∅ echo (by decide) registered accepted]
  exact congrArg Except.ok (by decide)

end Engine

end Stencil
