import Stencil.Proofs.DepthLimit
import Stencil.Proofs.EvaluationPairs

/-!
# What a template depends on

A template sees its data only under the names at which its paths begin, and the
registry only under the names of the macros that it calls.  Two evaluations of a
template that agree there go the same way: they write the same, or they stop with the
same error.  They may even differ where the first one has no value, as long as it does
not stop for the lack of it.
-/

namespace Stencil

/-- Whether a fault says that a variable has no value. -/
def EvaluationFault.lacksVariable : EvaluationFault → Bool
  | .undefinedVariable _ => true
  | _ => false

/-- Whether an error says that a variable has no value. -/
def TemplateError.lacksVariable : TemplateError → Bool
  | .malformed _ _ => false
  | .stopped error => error.fault.lacksVariable

/-- Two records of data have the same values under some names.  If lacks are excused,
the second one may have values where the first one has none. -/
def Named.AgreesOn (excused : Prop) (names : List String) (first second : Fields) :
    Prop :=
  ∀ name ∈ names, second.get? name = first.get? name ∨
    (excused ∧ first.get? name = none)

/-- Two registries have the same macros under some names. -/
def Registry.AgreesOn (names : List String) (first second : Registry) : Prop :=
  ∀ name ∈ names, second.lookup name = first.lookup name

/-- Two environments differ at most in data that are not under some names. -/
structure Environment.AgreesOn (excused : Prop) (names : List String)
    (first second : Environment) : Prop where
  data : first.data.AgreesOn excused names second.data
  program : second.program = first.program
  loops : second.loops = first.loops

namespace Environment.AgreesOn

variable {excused : Prop} {names : List String} {first second : Environment}

theorem push (agrees : first.AgreesOn excused names second) :
    first.push.AgreesOn excused names second.push :=
  ⟨agrees.data, agrees.program, congrArg (∅ :: ·) agrees.loops⟩

theorem pop (agrees : first.AgreesOn excused names second) :
    first.pop.AgreesOn excused names second.pop :=
  ⟨agrees.data, agrees.program, congrArg List.tail agrees.loops⟩

theorem define (agrees : first.AgreesOn excused names second) (name : String)
    (value : Value) :
    (first.define name value).AgreesOn excused names (second.define name value) := by
  obtain ⟨data, program, loops⟩ := agrees
  unfold Environment.define
  rw [loops]
  cases first.loops with
  | nil => exact ⟨data, congrArg (·.put name value) program, rfl⟩
  | cons frame frames => exact ⟨data, program, rfl⟩

/-- A name has the same value in both environments, unless the first one lacks it. -/
theorem get? (agrees : first.AgreesOn excused names second) {name : String}
    (known : name ∈ names) :
    second.get? name = first.get? name ∨ (excused ∧ first.get? name = none) := by
  have frames : second.frames = first.frames := by
    rw [Environment.frames, Environment.frames, agrees.loops, agrees.program]
  simp only [Environment.get?, frames]
  cases first.frames.findSome? fun frame => frame.get? name with
  | some value => exact .inl rfl
  | none => exact agrees.data name known

end Environment.AgreesOn

/-- Two states of evaluations differ at most in data that are not under some names, and
in the events told. -/
structure EvaluationState.AgreesOn (excused : Prop) (names : List String)
    (first second : EvaluationState) : Prop where
  environment : first.environment.AgreesOn excused names second.environment
  depth : second.depth = first.depth

namespace Evaluation

variable {α β : Type} {excused : Prop} {names : List String}

/-- From states that agree on some names, a second evaluation ends as the first one does
and leaves a state that agrees with the one that the first one leaves; or the first one
is excused, since it stops for the lack of a variable. -/
def Repeats (excused : Prop) (names : List String) (first second : Evaluation α) :
    Prop :=
  ∀ left right : EvaluationState, left.AgreesOn excused names right →
    (excused ∧ ∃ error, (first.outcome left).1 = .error error ∧
      error.fault.lacksVariable) ∨
    ((second.outcome right).1 = (first.outcome left).1 ∧
      (first.outcome left).2.AgreesOn excused names (second.outcome right).2)

namespace Repeats

theorem pure (value : α) :
    Repeats excused names (Pure.pure value : Evaluation α) (Pure.pure value) :=
  fun _ _ agrees => .inr ⟨rfl, agrees⟩

theorem bind {first second : Evaluation α} {next other : α → Evaluation β}
    (repeats : Repeats excused names first second)
    (further : ∀ value, Repeats excused names (next value) (other value)) :
    Repeats excused names (first >>= next) (second >>= other) := by
  intro left right agrees
  simp only [outcome_bind]
  rcases repeats left right agrees with ⟨excuse, error, stopped, lacks⟩ | ⟨same, after⟩
  · left
    refine ⟨excuse, error, ?_, lacks⟩
    rcases firstEnds : first.outcome left with ⟨_ | _, _⟩ <;>
      simp_all
  · rcases firstEnds : first.outcome left with ⟨error | value, state⟩ <;>
      rcases secondEnds : second.outcome right with ⟨otherResult, otherState⟩ <;>
        rw [firstEnds, secondEnds] at same after <;> subst same
    · exact .inr ⟨rfl, after⟩
    · exact further value state otherState after

theorem tell (event other : LogEvent) :
    Repeats excused names (Evaluation.tell event) (Evaluation.tell other) :=
  fun _ _ agrees => .inr ⟨rfl, agrees.environment, agrees.depth⟩

theorem define (name : String) (value : Value) :
    Repeats excused names (Evaluation.define name value)
      (Evaluation.define name value) :=
  fun _ _ agrees => .inr ⟨rfl, agrees.environment.define name value, agrees.depth⟩

theorem inFrame {first second : Evaluation α}
    (repeats : Repeats excused names first second) :
    Repeats excused names (Evaluation.inFrame first) (Evaluation.inFrame second) := by
  intro left right agrees
  have opened := repeats { left with environment := left.environment.push }
    { right with environment := right.environment.push }
    ⟨agrees.environment.push, agrees.depth⟩
  rcases opened with excuse | ⟨same, after⟩
  · exact .inl excuse
  · exact .inr ⟨same, after.environment.pop, after.depth⟩

/-- What repeats itself depends only on the environment and the depth. -/
theorem eq_of_environment {evaluation : Evaluation α}
    (repeats : Repeats False names evaluation evaluation) {first second : EvaluationState}
    (environment : second.environment = first.environment)
    (depth : second.depth = first.depth) :
    (evaluation.outcome second).1 = (evaluation.outcome first).1 := by
  have agrees : first.AgreesOn False names second :=
    ⟨⟨fun _ _ => .inl (by rw [environment]), by rw [environment], by rw [environment]⟩,
      depth⟩
  rcases repeats first second agrees with ⟨impossible, -⟩ | ⟨same, -⟩
  · exact impossible.elim
  · exact same

section Evaluators

variable (evaluator : Evaluator) (registry : Registry)

theorem fail (span : Span) (fault : EvaluationFault) :
    Repeats excused names (evaluator.fail span fault : Evaluation α)
      ({ evaluator with registry }.fail span fault) :=
  fun _ _ agrees => .inr ⟨rfl, agrees⟩

theorem nested {first second : Evaluation α}
    (repeats : Repeats excused names first second) (span : Span) :
    Repeats excused names (evaluator.nested span first)
      ({ evaluator with registry }.nested span second) := by
  intro left right agrees
  simp only [Evaluator.outcome_nested, agrees.depth]
  by_cases reached : evaluator.maxDepth ≤ left.depth
  · rw [if_pos reached, if_pos reached]
    exact .inr ⟨rfl, agrees⟩
  · rw [if_neg reached, if_neg reached]
    have deeper := repeats { left with depth := left.depth + 1 }
      { right with depth := left.depth + 1 } ⟨agrees.environment, rfl⟩
    rcases deeper with excuse | ⟨same, after⟩
    · exact .inl excuse
    · exact .inr ⟨same, after.environment, congrArg (· - 1) after.depth⟩

end Evaluators

end Repeats

end Evaluation

/-- Expressions use no other variables and macros than those of some names. -/
structure UsesOnly (names macroNames : List String) (expressions : List Expression) :
    Prop where
  roots : ∀ expression ∈ expressions, ∀ name, expression.root? = some name →
    name ∈ names
  macros : ∀ expression ∈ expressions, ∀ name, expression.macroName? = some name →
    name ∈ macroNames

namespace UsesOnly

variable {names macroNames : List String} {first second : List Expression}

theorem mono (uses : UsesOnly names macroNames second) (within : first ⊆ second) :
    UsesOnly names macroNames first where
  roots expression member := uses.roots expression (within member)
  macros expression member := uses.macros expression (within member)

theorem single (uses : UsesOnly names macroNames second) {expression : Expression}
    (member : expression ∈ second) : UsesOnly names macroNames [expression] :=
  uses.mono (List.cons_subset.mpr ⟨member, List.nil_subset second⟩)

end UsesOnly

theorem Program.usesOnly (program : Program) :
    UsesOnly program.roots program.macroNames program.expressions where
  roots _ member _ named := List.mem_filterMap.mpr ⟨_, member, named⟩
  macros _ member _ named := List.mem_filterMap.mpr ⟨_, member, named⟩

namespace Evaluator

open Evaluation

section Trees

variable {excused : Prop} {names macroNames : List String} (evaluator : Evaluator)
  {registry : Registry}

theorem resolvePath_repeats {path : VariablePath} (known : path.root ∈ names)
    (span : Span) :
    Repeats excused names (evaluator.resolvePath path span)
      ({ evaluator with registry }.resolvePath path span) := by
  intro left right agrees
  simp only [resolvePath, outcome_bind, outcome_get]
  rcases agrees.environment.get? known with found | ⟨excuse, lacking⟩
  · rw [found]
    cases left.environment.get? path.root with
    | none => exact .inr ⟨rfl, agrees.environment, agrees.depth⟩
    | some value =>
        dsimp only
        cases value.follow path.segments with
        | ok part => exact .inr ⟨rfl, agrees⟩
        | error failure => exact .inr ⟨rfl, agrees⟩
  · rw [lacking]
    exact .inl ⟨excuse, _, rfl, rfl⟩

/-- Two evaluators repeat each other on expressions that use only names on which they
agree. -/
theorem repeats_pairs (excused : Prop) (names : List String)
    (same : evaluator.registry.AgreesOn macroNames registry) :
    NodePairs evaluator { evaluator with registry } id
      (fun expression => UsesOnly names macroNames [expression])
      fun _ first second => Repeats excused names first second where
  pure := .pure
  bind := .bind
  fail span fault _ := .fail evaluator registry span fault
  path uses :=
    resolvePath_repeats evaluator (uses.roots _ (List.mem_singleton_self _) _ rfl) _
  lookup uses :=
    congrArg (Option.map Macro.seen) (same _ (uses.macros _ (List.mem_singleton_self _) _ rfl))
  nested repeats span := .nested evaluator registry repeats span
  tell _ := .tell _ _
  define := .define
  inFrame := .inFrame

/-- What a body does depends only on the variables and macros that it names. -/
theorem evaluateBody_repeats (same : evaluator.registry.AgreesOn macroNames registry)
    (nodes : List Node) (uses : UsesOnly names macroNames (bodyExpressions nodes)) :
    Repeats excused names (evaluator.evaluateBody nodes)
      ({ evaluator with registry }.evaluateBody nodes) := by
  have related := evaluateBody_related (evaluator.repeats_pairs excused names same) nodes
    fun _ => uses.single
  rwa [mapBodySpans_id] at related

theorem evaluate_repeats (same : evaluator.registry.AgreesOn macroNames registry)
    {program : Program} (uses : UsesOnly names macroNames program.expressions) :
    Repeats excused names (evaluator.evaluate program)
      ({ evaluator with registry }.evaluate program) :=
  .bind (evaluateBody_repeats evaluator same program.nodes uses) fun _ =>
    .bind (.tell _ _) fun _ => .pure _

end Trees

end Evaluator

namespace Engine

section Repetition

variable {excused : Prop} (engine : Engine) {registry : Registry} {data other : Fields}

theorem evaluateRecord_repeats (parsed : ParsedTemplate)
    (same : engine.registry.AgreesOn parsed.program.macroNames registry)
    (agrees : data.AgreesOn excused parsed.program.roots other) :
    (excused ∧ ∃ error, (engine.evaluateRecord parsed data).answer = .error error ∧
      error.lacksVariable) ∨
    ({ engine with registry }.evaluateRecord parsed other).answer =
      (engine.evaluateRecord parsed data).answer := by
  have repeats := (engine.evaluatorFor parsed).evaluate_repeats same
    parsed.program.usesOnly { environment := { data } } { environment := { data := other } }
    ⟨⟨agrees, rfl, rfl⟩, rfl⟩
  rcases repeats with ⟨excuse, error, stopped, lacks⟩ | ⟨ends, -⟩
  · exact .inl ⟨excuse, .stopped error, congrArg (Except.mapError _) stopped, lacks⟩
  · exact .inr (congrArg (Except.mapError TemplateError.stopped) ends)

/-- Resolving a template again with data and macros that agree on the names in it gives
the same answer, unless a variable was lacking. -/
theorem resolve_repeats (template : String)
    (same : engine.registry.AgreesOn (engine.parse template).program.macroNames registry)
    (agrees : data.AgreesOn excused (engine.parse template).program.roots other) :
    (excused ∧ ∃ error, (engine.resolve template data).answer = .error error ∧
      error.lacksVariable) ∨
    ({ engine with registry }.resolve template other).answer =
      (engine.resolve template data).answer := by
  by_cases clean : (engine.parse template).diagnostics = []
  · have cleanAgain : ({ engine with registry }.parse template).diagnostics = [] := clean
    rw [resolve_of_clean clean, resolve_of_clean cleanAgain]
    exact engine.evaluateRecord_repeats (engine.parse template) same agrees
  · have malformedAgain : ({ engine with registry }.parse template).diagnostics ≠ [] :=
      clean
    right
    rw [resolve_of_malformed clean, resolve_of_malformed malformedAgain]
    rfl

end Repetition

/-- An answer that is not the lack of a variable. -/
def FindsVariables (answer : Except TemplateError String) : Prop :=
  ∀ error, answer = .error error → error.lacksVariable = false

instance decidableFindsVariables (answer : Except TemplateError String) :
    Decidable (FindsVariables answer) :=
  match answer with
  | .ok _ => .isTrue fun _ failed => nomatch failed
  | .error error => decidable_of_iff (error.lacksVariable = false)
      ⟨fun found _ failed => Except.error.inj failed ▸ found, fun found => found error rfl⟩

theorem resolve_eq_of_agreesOn (engine : Engine) {registry : Registry}
    {data other : Fields} {template : String}
    (same : engine.registry.AgreesOn (engine.parse template).program.macroNames registry)
    (agrees : ∀ name ∈ (engine.parse template).program.roots,
      other.get? name = data.get? name) :
    ({ engine with registry }.resolve template other).answer =
      (engine.resolve template data).answer := by
  have agreesOn : data.AgreesOn False (engine.parse template).program.roots other :=
    fun name known => .inl (agrees name known)
  rcases engine.resolve_repeats template same agreesOn with ⟨impossible, -⟩ | equal
  · exact impossible.elim
  · exact equal

theorem resolve_eq_of_findsVariables (engine : Engine) {registry : Registry}
    {data other : Fields} {template : String}
    (same : engine.registry.AgreesOn (engine.parse template).program.macroNames registry)
    (keeps : ∀ name ∈ (engine.parse template).program.roots, ∀ value,
      data.get? name = some value → other.get? name = some value)
    (finds : FindsVariables (engine.resolve template data).answer) :
    ({ engine with registry }.resolve template other).answer =
      (engine.resolve template data).answer := by
  -- Where the first data have nothing, the second ones may have a value.
  have agrees : data.AgreesOn True (engine.parse template).program.roots other := by
    intro name known
    cases found : data.get? name with
    | none => exact .inr ⟨trivial, rfl⟩
    | some value => exact .inl (keeps name known value found)
  rcases engine.resolve_repeats template same agrees with ⟨-, error, stopped, lacks⟩ | equal
  · rw [finds error stopped] at lacks
    cases lacks
  · exact equal

/-- A template depends only on what it names.  With other macros under names that it
does not call, and other data under names at which none of its paths begins, it gives
the same answer.  The data may even have more under those names, unless the answer is
that a variable is lacking. -/
theorem resolve_depends_on_names (engine : Engine) (template : String) :
    let program := (engine.parse template).program
    (∀ registry data other, engine.registry.AgreesOn program.macroNames registry →
      (∀ name ∈ program.roots, other.get? name = data.get? name) →
        ({ engine with registry }.resolve template other).answer =
          (engine.resolve template data).answer) ∧
    (∀ registry data other, engine.registry.AgreesOn program.macroNames registry →
      (∀ name ∈ program.roots, ∀ value,
        data.get? name = some value → other.get? name = some value) →
      FindsVariables (engine.resolve template data).answer →
        ({ engine with registry }.resolve template other).answer =
          (engine.resolve template data).answer) ∧
    (∀ data name value, name ∉ program.roots →
      (engine.resolve template (data.put name value)).answer =
        (engine.resolve template data).answer) ∧
    (∀ data name value, data.get? name = none →
      FindsVariables (engine.resolve template data).answer →
        (engine.resolve template (data.put name value)).answer =
          (engine.resolve template data).answer) ∧
    (∀ data reordered : Fields, data.entries.Perm reordered.entries →
      (engine.resolve template reordered).answer =
        (engine.resolve template data).answer) ∧
    (∀ data added, added.name ∉ program.macroNames →
      ((engine.register added).resolve template data).answer =
        (engine.resolve template data).answer) := by
  intro program
  have unchanged : engine.registry.AgreesOn program.macroNames engine.registry :=
    fun _ _ => rfl
  refine ⟨?_, ?_, ?_, ?_, ?_, ?_⟩
  · intro registry data other same agrees
    exact engine.resolve_eq_of_agreesOn same agrees
  · intro registry data other same keeps finds
    exact engine.resolve_eq_of_findsVariables same keeps finds
  · intro data name value unused
    apply engine.resolve_eq_of_agreesOn unchanged
    intro known member
    have apart : known ≠ name := fun equal => unused (equal ▸ member)
    rw [Named.get?_put, if_neg apart]
  · intro data name value absent finds
    apply engine.resolve_eq_of_findsVariables unchanged _ finds
    intro known _ present found
    have apart : known ≠ name := by
      rintro rfl
      rw [absent] at found
      cases found
    rw [Named.get?_put, if_neg apart, found]
  · intro data reordered permuted
    apply engine.resolve_eq_of_agreesOn unchanged
    intro name _
    exact Named.get?_perm permuted name
  · intro data added unused
    have same : engine.registry.AgreesOn program.macroNames
        (engine.registry.register added) := by
      intro name member
      have apart : added.name ≠ name := fun equal => unused (equal ▸ member)
      rw [Registry.lookup_register, if_neg apart]
    exact engine.resolve_eq_of_agreesOn same fun _ _ => rfl

/-- The key of an object shadows a variable that may be lacking outside of the loop. -/
theorem resolve_depends_on_names_implicitKey :
    let engine := create {}
    let template := "#for (v in $tags)$key=@upper($v) #end"
    let names := ["tags", "key", "v"]
    let tags : Value := .object (.ofPairs [("a", .string "x")])
    let data : Fields := .ofPairs [("tags", tags), ("title", .null)]
    let other : Fields := .ofPairs [("key", .string "b"), ("tags", tags)]
    let reordered : Fields := .ofPairs [("title", .null), ("tags", tags)]
    let added : Macro := ⟨"twice", .exactly 1, fun arguments => .ok (.array arguments)⟩
    let answer := (engine.resolve template data).answer
    (engine.parse template).program.roots = names ∧
      (engine.parse template).program.macroNames = ["upper"] ∧ FindsVariables answer ∧
      engine.registry.AgreesOn ["upper"] (engine.register added).registry ∧
      ((engine.register added).resolve template other).answer = answer ∧
      ((engine.register added).resolve template (data.put "note" .null)).answer = answer ∧
      (engine.resolve template (data.put "note" .null)).answer = answer ∧
      (engine.resolve template (data.put "key" .null)).answer = answer ∧
      (engine.resolve template reordered).answer = answer ∧
      ((engine.register added).resolve template data).answer = answer := by
  intro engine template names tags data other reordered added answer
  have roots : (engine.parse template).program.roots = names := by decide +kernel
  have macroNames : (engine.parse template).program.macroNames = ["upper"] := by
    decide +kernel
  have finds : FindsVariables answer := by decide +kernel
  have same : engine.registry.AgreesOn ["upper"] (engine.register added).registry := by
    intro name member
    obtain rfl := List.mem_singleton.mp member
    rfl
  have keeps : ∀ name ∈ names, ∀ value, data.get? name = some value →
      other.get? name = some value := by
    simp [names, data, other, Named.ofPairs, Named.get?_put]
  have unused : "note" ∉ names := by decide
  have equal : ∀ name ∈ names, (data.put "note" .null).get? name = data.get? name := by
    simp [names, Named.get?_put]
  have depends := engine.resolve_depends_on_names template
  simp only [roots, macroNames] at depends
  obtain ⟨agreeing, extended, unusedKey, absentKey, inAnyOrder, registered⟩ := depends
  exact ⟨roots, macroNames, finds, same, extended _ _ _ same keeps finds,
    agreeing _ _ _ same equal, unusedKey _ _ _ unused, absentKey _ _ _ rfl finds,
    inAnyOrder _ _ (.swap _ _ []), registered _ _ (by decide)⟩

end Engine

end Stencil
