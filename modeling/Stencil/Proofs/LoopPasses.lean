import Stencil.Proofs.Agreement
import Stencil.Proofs.WellNested

/-!
# The passes of a loop

A loop runs its body once for every entry, each time in a frame of its own.  No pass
sees what another one has defined: each gives what it gives from the start of the loop,
and the loop writes what all of them write, or stops with the error of the first pass
that fails.
-/

namespace Stencil

/-- What a loop over a value binds in each of its passes, in order: the key, which an
array gives only under a name, and then the item. -/
def passBindings (key : Option String) (item : String) :
    Value → Option (List (List (String × Value)))
  | .array items =>
      some (items.zipIdx.map fun (value, index) =>
        (key.map (·, Value.integer (Int64.ofNat index))).toList ++ [(item, value)])
  | .object fields =>
      some (fields.entries.map fun (name, value) =>
        [(key.getD "key", .string name), (item, value)])
  | _ => none

/-- A state with a new frame in which some names are bound. -/
def EvaluationState.inPass (state : EvaluationState) (bindings : List (String × Value)) :
    EvaluationState :=
  { state with environment := state.environment.push.defineAll bindings }

/-- What passes write one after the other, or the error of the first one that fails. -/
def joinPasses {ε : Type} : List (Except ε String) → Except ε String
  | [] => .ok ""
  | .ok output :: others => (joinPasses others).map (output ++ ·)
  | .error error :: _ => .error error

theorem joinPasses_ok {ε : Type} (outputs : List String) :
    joinPasses (outputs.map (Except.ok (ε := ε))) = .ok (String.join outputs) := by
  induction outputs with
  | nil => rfl
  | cons output outputs ih =>
      rw [List.map_cons, joinPasses, ih, String.join_cons]
      rfl

theorem joinPasses_error {ε : Type} (outputs : List String) (error : ε)
    (later : List (Except ε String)) :
    joinPasses (outputs.map .ok ++ .error error :: later) = .error error := by
  induction outputs with
  | nil => rfl
  | cons output outputs ih =>
      rw [List.map_cons, List.cons_append, joinPasses, ih]
      rfl

/-- What a loop binds for an entry. -/
def entryBindings (key : Option String) (item : String) (entry : Value × Value) :
    List (String × Value) :=
  (key.map (·, entry.1)).toList ++ [(item, entry.2)]

theorem passBindings_eq (key : Option String) (item : String) (value : Value) :
    passBindings key item value = (Iteration.ofValue? value).map fun iteration =>
      iteration.entries.map (entryBindings (key.or iteration.implicitKey) item) := by
  cases value with
  | array items => simp [passBindings, Iteration.ofValue?, entryBindings, Function.comp_def]
  | object fields =>
      cases key <;>
        simp [passBindings, Iteration.ofValue?, entryBindings, Function.comp_def]
  | _ => rfl

theorem outcome_defineEntry_eq (key : Option String) (item : String)
    (entry : Value × Value) (state : EvaluationState) :
    (defineEntry key item entry).outcome state =
      (.ok (), { state with
        environment := state.environment.defineAll (entryBindings key item entry) }) := by
  cases key <;> rfl

namespace Evaluator

open Evaluation

variable (evaluator : Evaluator)

/-- What a body gives depends only on the environment and the depth. -/
theorem evaluateBody_eq_of_alike (nodes : List Node) {first second : EvaluationState}
    (alike : first.Alike second) :
    ((evaluator.evaluateBody nodes).outcome first).1 =
      ((evaluator.evaluateBody nodes).outcome second).1 := by
  let program : Program := ⟨nodes, ⟨0, 0⟩⟩
  have unchanged : evaluator.registry.AgreesOn program.macroNames evaluator.registry :=
    fun _ _ => rfl
  exact (evaluator.evaluateBody_repeats unchanged nodes program.usesOnly).eq_of_environment
    alike.1 alike.2

section Passes

variable (key : Option String) (item : String) (body : List Node)

/-- One pass of a loop. -/
def evaluatePass (entry : Value × Value) : Evaluation String :=
  inFrame do
    defineEntry key item entry
    evaluator.evaluateBody body

/-- One pass gives what the body gives in a new frame with the entry, and it leaves the
variables and the depth as they were. -/
theorem outcome_evaluatePass (entry : Value × Value) (state : EvaluationState) :
    let pass := (evaluator.evaluatePass key item body entry).outcome state
    pass.1 = ((evaluator.evaluateBody body).outcome
        (state.inPass (entryBindings key item entry))).1 ∧
      pass.2.Alike state := by
  constructor
  · rw [evaluatePass, outcome_inFrame]
    dsimp only
    rw [outcome_bind, outcome_defineEntry_eq]
    rfl
  · have keeps : (evaluator.evaluatePass key item body entry).Keeps :=
      inEntryFrame_keeps key item (evaluateBody_binds evaluator body) entry
    exact ⟨keeps.environment state, keeps.depth state⟩

/-- Every pass over some entries starts from the state in which the first one starts, the
events apart. -/
theorem outcome_passes (start : EvaluationState) (entries : List (Value × Value)) :
    ∀ written state, state.Alike start →
      ((entries.foldlM (fun written entry => do
          let output ← evaluator.evaluatePass key item body entry
          pure (written ++ output)) written : Evaluation String).outcome state).1 =
        (joinPasses (entries.map fun entry => ((evaluator.evaluateBody body).outcome
          (start.inPass (entryBindings key item entry))).1)).map (written ++ ·) := by
  induction entries with
  | nil =>
      intro written state _
      simp [joinPasses, Except.map]
  | cons entry entries ih =>
      intro written state alike
      obtain ⟨gives, leaves⟩ := evaluator.outcome_evaluatePass key item body entry state
      have sameStart : (state.inPass (entryBindings key item entry)).Alike
          (start.inPass (entryBindings key item entry)) := by
        obtain ⟨environment, depth⟩ := alike
        exact ⟨by simp only [EvaluationState.inPass, environment], depth⟩
      rw [evaluator.evaluateBody_eq_of_alike body sameStart] at gives
      rw [List.foldlM_cons, outcome_bind, outcome_bind, List.map_cons, ← gives]
      rcases ended : (evaluator.evaluatePass key item body entry).outcome state with
        ⟨error | output, after⟩
      · rfl
      · rw [ended] at leaves
        have afterAlike : after.Alike start :=
          ⟨leaves.1.trans alike.1, leaves.2.trans alike.2⟩
        rw [joinPasses]
        dsimp only
        rw [outcome_pure]
        dsimp only
        rw [ih (written ++ output) after afterAlike]
        cases joinPasses (entries.map fun entry => ((evaluator.evaluateBody body).outcome
          (start.inPass (entryBindings key item entry))).1) <;>
          simp [Except.map, String.append_assoc]

/-- The passes over some entries write what they write from the same start. -/
theorem outcome_evaluateEntries (start : EvaluationState) (entries : List (Value × Value))
    {state : EvaluationState} (alike : state.Alike start) :
    ((evaluateEntries key item (evaluator.evaluateBody body) entries).outcome state).1 =
      joinPasses (entries.map fun entry => ((evaluator.evaluateBody body).outcome
        (start.inPass (entryBindings key item entry))).1) := by
  have joined := evaluator.outcome_passes key item body start entries "" state alike
  simp only [String.empty_append] at joined
  exact joined.trans (congrFun Except.map_id _)

end Passes

theorem outcome_evaluateIterable {iterable : Expression} {value : Value}
    {iteration : Iteration} (isIteration : Iteration.ofValue? value = some iteration)
    {state after : EvaluationState}
    (evaluates : (evaluator.evaluateExpression iterable).outcome state = (.ok value, after)) :
    (evaluator.evaluateIterable iterable).outcome state = (.ok iteration, after) := by
  rw [evaluateIterable, outcome_bind, evaluates]
  dsimp only
  rw [isIteration]
  rfl

/-- A loop over a value that can be iterated writes what its passes write from the start
of the loop, or stops with the error of the first one that fails. -/
theorem outcome_loop {key : Option String} {item : String} {iterable : Expression}
    {body : List Node} {span : Span} {state : EvaluationState} {value : Value}
    {passes : List (List (String × Value))}
    (evaluates : ((evaluator.nested span (evaluator.evaluateExpression iterable)).outcome
      state).1 = .ok value)
    (iterates : passBindings key item value = some passes) :
    ((evaluator.evaluateNode (.loop key item iterable body span)).outcome state).1 =
      joinPasses (passes.map fun bindings => ((evaluator.evaluateBody body).outcome
        ({ state with depth := state.depth + 1 }.inPass bindings)).1) := by
  rw [passBindings_eq] at iterates
  obtain ⟨iteration, isIteration, rfl⟩ := Option.map_eq_some_iff.mp iterates
  rw [outcome_nested] at evaluates
  rw [evaluateNode, outcome_nested, List.map_map]
  by_cases reached : evaluator.maxDepth ≤ state.depth
  · rw [if_pos reached] at evaluates
    cases evaluates
  rw [if_neg reached] at evaluates ⊢
  dsimp only at evaluates ⊢
  generalize { state with depth := state.depth + 1 } = start at evaluates ⊢
  obtain ⟨after, iterableEnds⟩ : ∃ after,
      (evaluator.evaluateExpression iterable).outcome start = (.ok value, after) :=
    ⟨_, Prod.ext evaluates rfl⟩
  have afterAlike : after.Alike start := by
    have keeps := evaluateExpression_keeps evaluator iterable
    have environment := keeps.environment start
    have depth := keeps.depth start
    rw [iterableEnds] at environment depth
    exact ⟨environment, depth⟩
  have iterationEnds := evaluator.outcome_evaluateIterable isIteration iterableEnds
  simp only [outcome_bind, iterationEnds, outcome_tell]
  exact evaluator.outcome_evaluateEntries _ item body start iteration.entries afterAlike

/-- The passes of a loop are independent.  A loop over an array or an object runs its body
once for every entry, in order, in a new frame with the key and the item, and every pass
gives what it gives from the start of the loop.  The loop writes what all the passes
write, if none of them fails, and else stops with the error of the first one that does;
it leaves the frames and the depth as they were.  What is iterated is the value of the
iterable inside the block of the loop, one level deeper, where the passes start. -/
theorem loop_passes_independent (key : Option String) (item : String)
    (iterable : Expression) (body : List Node) (span : Span) (state : EvaluationState)
    {value : Value} {passes : List (List (String × Value))}
    (evaluates : ((evaluator.nested span (evaluator.evaluateExpression iterable)).outcome
      state).1 = .ok value)
    (iterates : passBindings key item value = some passes) :
    let start : EvaluationState := { state with depth := state.depth + 1 }
    let outcomes := passes.map fun bindings =>
      ((evaluator.evaluateBody body).outcome (start.inPass bindings)).1
    let loop := (evaluator.evaluateNode (.loop key item iterable body span)).outcome state
    (∀ outputs, outcomes = outputs.map .ok → loop.1 = .ok (String.join outputs)) ∧
      (∀ (earlier : List String) error later,
        outcomes = earlier.map .ok ++ .error error :: later → loop.1 = .error error) ∧
      loop.2.environment = state.environment ∧ loop.2.depth = state.depth := by
  intro start outcomes loop
  have joined : loop.1 = joinPasses outcomes := evaluator.outcome_loop evaluates iterates
  have keeps := evaluateNode_binds evaluator (.loop key item iterable body span)
  refine ⟨?_, ?_, keeps.environment state, keeps.depth state⟩
  · intro outputs allWrite
    rw [joined, allWrite, joinPasses_ok]
  · intro earlier error later fails
    rw [joined, fails, joinPasses_error]

/-- A loop without a name for its key, with a binding and an inner loop of that name in its
body: the second pass fails, or all of them write. -/
theorem loop_passes_independent_implicitKey :
    let engine := Engine.create {}
    let parsed := engine.parse "#let (n = $v.a)$key$n;#for (key in $v.b)$key#end#let (key = 0)"
    let evaluator := engine.evaluatorFor parsed
    let body := parsed.program.nodes
    let iterable : Expression := .path ⟨"x", []⟩ ⟨10, 12⟩
    let entry : Value := .object (.ofPairs [("a", .string "y"), ("b", .array [.integer 7])])
    let state (x : Value) : EvaluationState := { environment := { data := .ofPairs [("x", x)] } }
    let loop (x : Value) :=
      (evaluator.evaluateNode (.loop none "v" iterable body ⟨0, 4⟩)).outcome (state x)
    (loop (.object (.ofPairs [("p", entry), ("q", entry)]))).1 = .ok "py;7qy;7" ∧
      (loop (.object (.ofPairs [("p", entry), ("q", .null), ("r", entry)]))).1 =
        .error ⟨.unresolvedPath "$v.a" ".a" "Null has no fields", ⟨1, 11, 10⟩⟩ ∧
      (loop (.object (.ofPairs [("p", entry), ("q", .null), ("r", entry)]))).2.depth = 0 := by
  intro engine parsed evaluator body iterable entry state loop
  have evaluates (fields : Fields) :
      ((evaluator.nested ⟨0, 4⟩ (evaluator.evaluateExpression iterable)).outcome
        (state (.object fields))).1 = .ok (.object fields) := rfl
  have passes (fields : Fields) := evaluator.loop_passes_independent none "v" iterable body
    ⟨0, 4⟩ (state (.object fields)) (evaluates fields) rfl
  obtain ⟨allWrite, -, -, -⟩ := passes (.ofPairs [("p", entry), ("q", entry)])
  obtain ⟨-, stops, -, depth⟩ := passes (.ofPairs [("p", entry), ("q", .null), ("r", entry)])
  exact ⟨allWrite ["py;7", "qy;7"] (by decide +kernel),
    stops ["py;7"] _ [.ok "ry;7"] (by decide +kernel), depth⟩

end Evaluator

end Stencil
