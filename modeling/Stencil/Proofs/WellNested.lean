import Stencil.Proofs.Dependence
import Stencil.Proofs.EvaluationRules

/-!
# What an evaluation leaves behind

An evaluation closes the blocks, calls and frames that it opens, also when it stops with
an error.  All that remains of it are the bindings that it executed outside of loop
bodies, in the innermost frame.  So an evaluator that is used again, after any number of
evaluations and errors, works as a new one with those bindings in its program frame.
-/

namespace Stencil

namespace Environment

/-- The frame in which names are defined. -/
def innermost (environment : Environment) : Fields :=
  environment.frames.headD ∅

/-- Define names one after the other. -/
def defineAll (environment : Environment) (bindings : List (String × Value)) :
    Environment :=
  bindings.foldl (fun environment binding => environment.define binding.1 binding.2)
    environment

variable (environment : Environment)

@[simp]
theorem defineAll_nil : environment.defineAll [] = environment :=
  rfl

theorem defineAll_cons (binding : String × Value) (bindings : List (String × Value)) :
    environment.defineAll (binding :: bindings) =
      (environment.define binding.1 binding.2).defineAll bindings :=
  rfl

theorem defineAll_append (first second : List (String × Value)) :
    environment.defineAll (first ++ second) =
      (environment.defineAll first).defineAll second :=
  List.foldl_append

theorem define_innermost (name : String) (value : Value) :
    (environment.define name value).innermost = environment.innermost.put name value := by
  unfold define innermost frames
  cases environment.loops <;> rfl

/-- A definition concerns only the innermost frame. -/
theorem define_outside (name : String) (value : Value) :
    (environment.define name value).data = environment.data ∧
      (environment.define name value).frames.length = environment.frames.length ∧
      (environment.define name value).frames.tail = environment.frames.tail := by
  unfold define frames
  cases environment.loops with
  | nil => exact ⟨rfl, rfl, rfl⟩
  | cons frame frames => exact ⟨rfl, rfl, rfl⟩

theorem defineAll_innermost (bindings : List (String × Value)) :
    (environment.defineAll bindings).innermost =
      bindings.foldl (fun frame binding => frame.put binding.1 binding.2)
        environment.innermost := by
  induction bindings generalizing environment with
  | nil => rfl
  | cons binding bindings ih => rw [defineAll_cons, ih, define_innermost, List.foldl_cons]

theorem defineAll_outside (bindings : List (String × Value)) :
    (environment.defineAll bindings).data = environment.data ∧
      (environment.defineAll bindings).frames.length = environment.frames.length ∧
      (environment.defineAll bindings).frames.tail = environment.frames.tail := by
  induction bindings generalizing environment with
  | nil => exact ⟨rfl, rfl, rfl⟩
  | cons binding bindings ih =>
      obtain ⟨data, length, tail⟩ := environment.define_outside binding.1 binding.2
      rw [defineAll_cons, ← data, ← length, ← tail]
      exact ih (environment.define binding.1 binding.2)

/-- Names that are not defined keep their values in the innermost frame. -/
theorem defineAll_get?_of_notMem {bindings : List (String × Value)} {name : String}
    (other : name ∉ bindings.map Prod.fst) :
    (environment.defineAll bindings).innermost.get? name =
      environment.innermost.get? name := by
  induction bindings generalizing environment with
  | nil => rfl
  | cons binding bindings ih =>
      rw [List.map_cons, List.mem_cons, not_or] at other
      rw [defineAll_cons, ih _ other.2, define_innermost, Named.get?_put, if_neg other.1]

/-- Closing a frame undoes all that was defined in it. -/
theorem pop_defineAll_push (bindings : List (String × Value)) :
    (environment.push.defineAll bindings).pop = environment := by
  -- The definitions may already have put something into the frame.
  suffices pops : ∀ frame : Fields,
      ({ environment with loops := frame :: environment.loops }.defineAll bindings).pop =
        environment from pops ∅
  induction bindings with
  | nil => exact fun _ => rfl
  | cons binding bindings ih => exact fun frame => ih (frame.put binding.1 binding.2)

/-- Outside of loops, names are defined in the frame of the program. -/
theorem defineAll_of_data (data program : Fields) (bindings : List (String × Value)) :
    ({ data, program } : Environment).defineAll bindings =
      { data, program := bindings.foldl
          (fun frame binding => frame.put binding.1 binding.2) program } := by
  induction bindings generalizing program with
  | nil => rfl
  | cons binding bindings ih => exact ih (program.put binding.1 binding.2)

end Environment

namespace Evaluation

variable {α β : Type}

/-- What is bound after an evaluation; nothing if it fails. -/
def continued (first : Evaluation α)
    (next : α → EvaluationState → List (String × Value)) (state : EvaluationState) :
    List (String × Value) :=
  match first.outcome state with
  | (.ok value, after) => next value after
  | (.error _, _) => []

/-- An evaluation changes its environment by some definitions only, all of them under
certain names, and it closes the blocks and calls that it opens, whether it fails or
not. -/
structure Binds (evaluation : Evaluation α)
    (bound : EvaluationState → List (String × Value)) (names : List String) : Prop where
  environment : ∀ state, (evaluation.outcome state).2.environment =
    state.environment.defineAll (bound state)
  depth : ∀ state, (evaluation.outcome state).2.depth = state.depth
  named : ∀ state, ∀ binding ∈ bound state, binding.1 ∈ names

/-- An evaluation leaves its environment as it was. -/
def Keeps (evaluation : Evaluation α) : Prop :=
  evaluation.Binds (fun _ => []) []

theorem Keeps.of_state {evaluation : Evaluation α}
    (environment : ∀ state, (evaluation.outcome state).2.environment = state.environment)
    (depth : ∀ state, (evaluation.outcome state).2.depth = state.depth) :
    evaluation.Keeps :=
  ⟨environment, depth, fun _ _ member => nomatch member⟩

theorem Keeps.pure (value : α) : (Pure.pure value : Evaluation α).Keeps :=
  .of_state (fun _ => rfl) fun _ => rfl

theorem Keeps.tell (event : LogEvent) : (Evaluation.tell event).Keeps :=
  .of_state (fun _ => rfl) fun _ => rfl

theorem Keeps.fail (evaluator : Evaluator) (span : Span) (fault : EvaluationFault) :
    (evaluator.fail span fault : Evaluation α).Keeps :=
  .of_state (fun _ => rfl) fun _ => rfl

namespace Binds

variable {bound : EvaluationState → List (String × Value)} {names : List String}

theorem mono {evaluation : Evaluation α} {others : List String}
    (binds : evaluation.Binds bound names) (within : names ⊆ others) :
    evaluation.Binds bound others :=
  ⟨binds.environment, binds.depth,
    fun state binding member => within (binds.named state binding member)⟩

theorem define (name : String) (value : Value) :
    (Evaluation.define name value).Binds (fun _ => [(name, value)]) [name] where
  environment _ := rfl
  depth _ := rfl
  named _ binding member := by
    obtain rfl := List.mem_singleton.mp member
    exact List.mem_singleton_self _

theorem bind {first : Evaluation α} {next : α → Evaluation β}
    {further : α → EvaluationState → List (String × Value)} {others : List String}
    (binds : first.Binds bound names)
    (nextBinds : ∀ value, (next value).Binds (further value) others) :
    (first >>= next).Binds (fun state => bound state ++ continued first further state)
      (names ++ others) where
  environment state := by
    have firstLeaves := binds.environment state
    rw [outcome_bind, continued, Environment.defineAll_append, ← firstLeaves]
    rcases first.outcome state with ⟨_ | value, after⟩
    · rfl
    · exact (nextBinds value).environment after
  depth state := by
    have firstDepth := binds.depth state
    rw [outcome_bind, ← firstDepth]
    rcases first.outcome state with ⟨_ | value, after⟩
    · rfl
    · exact (nextBinds value).depth after
  named state binding member := by
    rcases List.mem_append.mp member with byFirst | byNext
    · exact List.mem_append_left _ (binds.named state binding byFirst)
    · unfold continued at byNext
      rcases ended : first.outcome state with ⟨_ | value, after⟩ <;> rw [ended] at byNext
      · cases byNext
      · exact List.mem_append_right _ ((nextBinds value).named after binding byNext)

/-- Going on with what binds nothing adds nothing. -/
theorem followed {first : Evaluation α} {next : α → Evaluation β}
    (binds : first.Binds bound names) (keeps : ∀ value, (next value).Keeps) :
    (first >>= next).Binds bound names := by
  have nothing : continued first (fun _ _ => []) = fun _ => [] := by
    funext state
    unfold continued
    rcases first.outcome state with ⟨_ | _, _⟩ <;> rfl
  have both := binds.bind keeps
  simpa only [nothing, List.append_nil] using both

theorem inFrame {evaluation : Evaluation α} (binds : evaluation.Binds bound names) :
    (Evaluation.inFrame evaluation).Keeps := by
  refine .of_state (fun state => ?_) fun state => binds.depth _
  have opened := binds.environment { state with environment := state.environment.push }
  rw [outcome_inFrame]
  dsimp only
  rw [opened, Environment.pop_defineAll_push]

theorem nested {evaluation : Evaluation α} (binds : evaluation.Binds bound names)
    (evaluator : Evaluator) (span : Span) :
    (evaluator.nested span evaluation).Binds (fun state =>
      if evaluator.maxDepth ≤ state.depth then []
      else bound { state with depth := state.depth + 1 }) names where
  environment state := by
    rw [Evaluator.outcome_nested]
    split
    · rfl
    · exact binds.environment { state with depth := state.depth + 1 }
  depth state := by
    rw [Evaluator.outcome_nested]
    split
    · rfl
    · have deeper := binds.depth { state with depth := state.depth + 1 }
      dsimp only at deeper ⊢
      rw [deeper, Nat.add_sub_cancel]
  named state binding member := by
    split at member
    · cases member
    · exact binds.named _ binding member

end Binds

theorem Keeps.nested {evaluation : Evaluation α} (keeps : evaluation.Keeps)
    (evaluator : Evaluator) (span : Span) : (evaluator.nested span evaluation).Keeps := by
  have binds := Binds.nested keeps evaluator span
  simp only [ite_self] at binds
  exact binds

end Evaluation

mutual

/-- The names that are bound in a node outside of loop bodies. -/
def Node.boundNames : Node → List String
  | .text _ _ => []
  | .output _ => []
  | .conditional branches otherwise _ =>
      branchBoundNames branches ++ otherwiseBoundNames otherwise
  | .loop _ _ _ _ _ => []
  | .binding name _ _ => [name]

/-- The names that are bound in branches outside of loop bodies. -/
def branchBoundNames : List Branch → List String
  | [] => []
  | branch :: branches => branch.boundNames ++ branchBoundNames branches

def Branch.boundNames : Branch → List String
  | .mk _ body => bodyBoundNames body

/-- The names that are bound in the last body of a conditional outside of loop
bodies. -/
def otherwiseBoundNames : Option (List Node) → List String
  | none => []
  | some body => bodyBoundNames body

def bodyBoundNames : List Node → List String
  | [] => []
  | node :: nodes => node.boundNames ++ bodyBoundNames nodes

end

namespace Evaluator

open Evaluation

mutual

/-- The bindings of a node that are executed outside of loop bodies, in order, when it is
evaluated in a state. -/
def boundByNode (evaluator : Evaluator) :
    Node → EvaluationState → List (String × Value)
  | .text _ _ => fun _ => []
  | .output _ => fun _ => []
  | .conditional branches otherwise _ => fun state =>
      if evaluator.maxDepth ≤ state.depth then []
      else
        let deeper := { state with depth := state.depth + 1 }
        boundByBranches evaluator branches deeper ++
          continued (evaluator.evaluateBranches branches) (fun output? =>
            match output? with
            | some _ => fun _ => []
            | none => boundByOtherwise evaluator otherwise) deeper
  | .loop _ _ _ _ _ => fun _ => []
  | .binding name value _ =>
      continued (evaluator.evaluateExpression value) fun value _ => [(name, value)]

/-- The bindings in the first branch with a true condition. -/
def boundByBranches (evaluator : Evaluator) :
    List Branch → EvaluationState → List (String × Value)
  | [] => fun _ => []
  | branch :: branches => fun state =>
      boundByBranch evaluator branch state ++
        continued (evaluator.evaluateBranch branch) (fun output? =>
          match output? with
          | some _ => fun _ => []
          | none => boundByBranches evaluator branches) state

/-- The bindings in a branch, if its condition is true. -/
def boundByBranch (evaluator : Evaluator) :
    Branch → EvaluationState → List (String × Value)
  | .mk condition body =>
      continued (evaluator.evaluateCondition condition) fun holds =>
        if holds then boundByBody evaluator body else fun _ => []

def boundByOtherwise (evaluator : Evaluator) :
    Option (List Node) → EvaluationState → List (String × Value)
  | none => fun _ => []
  | some body => boundByBody evaluator body

/-- The bindings of a body; those after the first error are not executed. -/
def boundByBody (evaluator : Evaluator) :
    List Node → EvaluationState → List (String × Value)
  | [] => fun _ => []
  | node :: nodes => fun state =>
      boundByNode evaluator node state ++
        continued (evaluator.evaluateNode node) (fun _ => boundByBody evaluator nodes)
          state

end

variable (evaluator : Evaluator)

theorem keeps_rules : evaluator.ExpressionRules fun _ => Evaluation.Keeps where
  pure value := .pure value
  get := .of_state (fun _ => rfl) fun _ => rfl
  fail span fault := .fail evaluator span fault
  tell _ := .tell _
  bind keeps further := keeps.followed further
  nested keeps span := Keeps.nested keeps evaluator span

theorem evaluateExpression_keeps (expression : Expression) :
    (evaluator.evaluateExpression expression).Keeps :=
  evaluateExpression_respects (keeps_rules evaluator) expression

theorem evaluateCondition_keeps (condition : Expression) :
    (evaluator.evaluateCondition condition).Keeps :=
  evaluateCondition_respects (keeps_rules evaluator) condition

theorem evaluateIterable_keeps (iterable : Expression) :
    (evaluator.evaluateIterable iterable).Keeps :=
  evaluateIterable_respects (keeps_rules evaluator) iterable

/-- What is evaluated in a frame with an entry of a loop leaves nothing behind. -/
theorem inEntryFrame_keeps (key : Option String) (item : String) {body : Evaluation String}
    {bound : EvaluationState → List (String × Value)} {names : List String}
    (binds : body.Binds bound names) (entry : Value × Value) :
    (inFrame do defineEntry key item entry; body).Keeps := by
  cases key with
  | none => exact ((Binds.define _ _).bind fun _ => binds).inFrame
  | some key =>
      exact (((Binds.define _ _).bind fun _ => Binds.define _ _).bind fun _ => binds).inFrame

theorem evaluateEntries_keeps (key : Option String) (item : String)
    {body : Evaluation String} {bound : EvaluationState → List (String × Value)}
    {names : List String} (binds : body.Binds bound names)
    (entries : List (Value × Value)) :
    (evaluateEntries key item body entries).Keeps := by
  unfold evaluateEntries
  generalize "" = written
  induction entries generalizing written with
  | nil => exact .pure _
  | cons entry entries ih =>
      rw [List.foldlM_cons]
      have ofEntry := inEntryFrame_keeps key item binds entry
      exact (ofEntry.followed fun _ => .pure _).followed fun written => ih written

mutual

theorem evaluateNode_binds : ∀ node : Node,
    (evaluator.evaluateNode node).Binds (evaluator.boundByNode node) node.boundNames
  | .text content span => by
      rw [evaluateNode, boundByNode, Node.boundNames]
      exact Keeps.pure _
  | .output expression => by
      rw [evaluateNode, boundByNode, Node.boundNames]
      exact (evaluateExpression_keeps evaluator expression).followed fun _ => .pure _
  | .conditional branches otherwise span => by
      rw [evaluateNode, boundByNode, Node.boundNames]
      have inBranches := evaluateBranches_binds branches
      have inLast := evaluateOtherwise_binds otherwise
      refine (inBranches.bind fun output? => ?_).nested evaluator span
      cases output? with
      | some output => exact (Keeps.pure _).mono (List.nil_subset _)
      | none => exact inLast
  | .loop key item iterable body span => by
      rw [evaluateNode, boundByNode, Node.boundNames]
      have inIterable := evaluateIterable_keeps evaluator iterable
      have inBody := evaluateBody_binds body
      exact Keeps.nested (inIterable.followed fun iteration =>
        (Keeps.tell _).followed fun _ =>
          evaluateEntries_keeps _ item inBody _) evaluator span
  | .binding name value span => by
      rw [evaluateNode, boundByNode, Node.boundNames]
      have first := evaluateExpression_keeps evaluator value
      exact first.bind fun value => (Binds.define name value).followed fun _ => .pure _

theorem evaluateBranches_binds : ∀ branches : List Branch,
    (evaluator.evaluateBranches branches).Binds (evaluator.boundByBranches branches)
      (branchBoundNames branches)
  | [] => by
      rw [evaluateBranches, boundByBranches, branchBoundNames]
      exact Keeps.pure _
  | branch :: branches => by
      rw [evaluateBranches, boundByBranches, branchBoundNames]
      refine (evaluateBranch_binds branch).bind fun output? => ?_
      cases output? with
      | some output => exact (Keeps.pure _).mono (List.nil_subset _)
      | none => exact evaluateBranches_binds branches

theorem evaluateBranch_binds : ∀ branch : Branch,
    (evaluator.evaluateBranch branch).Binds (evaluator.boundByBranch branch)
      branch.boundNames
  | .mk condition body => by
      rw [evaluateBranch, boundByBranch, Branch.boundNames]
      refine (evaluateCondition_keeps evaluator condition).bind fun holds => ?_
      cases holds with
      | true => exact (evaluateBody_binds body).followed fun _ => .pure _
      | false => exact (Keeps.pure _).mono (List.nil_subset _)

theorem evaluateOtherwise_binds : ∀ otherwise : Option (List Node),
    (evaluator.evaluateOtherwise otherwise).Binds (evaluator.boundByOtherwise otherwise)
      (otherwiseBoundNames otherwise)
  | none => by
      rw [evaluateOtherwise, boundByOtherwise, otherwiseBoundNames]
      exact Keeps.pure _
  | some body => by
      rw [evaluateOtherwise, boundByOtherwise, otherwiseBoundNames]
      exact evaluateBody_binds body

/-- All that remains of the evaluation of a body are its executed bindings. -/
theorem evaluateBody_binds : ∀ nodes : List Node,
    (evaluator.evaluateBody nodes).Binds (evaluator.boundByBody nodes)
      (bodyBoundNames nodes)
  | [] => by
      rw [evaluateBody, boundByBody, bodyBoundNames]
      exact Keeps.pure _
  | node :: nodes => by
      rw [evaluateBody, boundByBody, bodyBoundNames]
      exact (evaluateNode_binds node).bind fun _ =>
        (evaluateBody_binds nodes).followed fun _ => .pure _

end

theorem evaluate_binds (program : Program) :
    (evaluator.evaluate program).Binds (evaluator.boundByBody program.nodes)
      (bodyBoundNames program.nodes) :=
  (evaluateBody_binds evaluator program.nodes).followed fun _ =>
    (Keeps.tell _).followed fun _ => .pure _

/-- The state of an evaluator after it has evaluated programs one after the other, each
of which may have failed. -/
def stateAfter (evaluator : Evaluator) (programs : List Program)
    (state : EvaluationState) : EvaluationState :=
  programs.foldl (fun state program => ((evaluator.evaluate program).outcome state).2)
    state

/-- The bindings of these programs that were executed outside of loop bodies. -/
def boundByPrograms (evaluator : Evaluator) :
    List Program → EvaluationState → List (String × Value)
  | [] => fun _ => []
  | program :: programs => fun state =>
      boundByBody evaluator program.nodes state ++
        boundByPrograms evaluator programs ((evaluator.evaluate program).outcome state).2

theorem stateAfter_binds (programs : List Program) (state : EvaluationState) :
    (evaluator.stateAfter programs state).environment =
        state.environment.defineAll (evaluator.boundByPrograms programs state) ∧
      (evaluator.stateAfter programs state).depth = state.depth := by
  induction programs generalizing state with
  | nil => exact ⟨rfl, rfl⟩
  | cons program programs ih =>
      have binds := evaluate_binds evaluator program
      obtain ⟨environment, depth⟩ := ih ((evaluator.evaluate program).outcome state).2
      rw [boundByPrograms, Environment.defineAll_append, ← binds.environment state,
        ← binds.depth state]
      exact ⟨environment, depth⟩

/-- What an evaluation gives depends only on the environment and the depth. -/
theorem evaluate_eq_of_environment (program : Program) {first second : EvaluationState}
    (environment : second.environment = first.environment)
    (depth : second.depth = first.depth) :
    ((evaluator.evaluate program).outcome second).1 =
      ((evaluator.evaluate program).outcome first).1 := by
  have unchanged : evaluator.registry.AgreesOn program.macroNames evaluator.registry :=
    fun _ _ => rfl
  exact (evaluator.evaluate_repeats unchanged program.usesOnly).eq_of_environment
    environment depth

/-- Evaluation is well nested, also when it stops with an error: it closes what it opens,
and changes only the innermost frame, and there only names that are bound in the nodes
outside of loop bodies.  So an evaluator that has already evaluated programs, whether
they failed or not, works as one whose program frame holds just the bindings executed
so far. -/
theorem evaluation_wellNested (evaluator : Evaluator) :
    (∀ nodes state,
      let after := ((evaluator.evaluateBody nodes).outcome state).2
      after.depth = state.depth ∧
        after.environment.data = state.environment.data ∧
        after.environment.frames.length = state.environment.frames.length ∧
        after.environment.frames.tail = state.environment.frames.tail ∧
        (∀ name, name ∉ bodyBoundNames nodes →
          after.environment.innermost.get? name =
            state.environment.innermost.get? name) ∧
        after.environment.innermost =
          (evaluator.boundByBody nodes state).foldl
            (fun frame binding => frame.put binding.1 binding.2)
            state.environment.innermost) ∧
    ∀ earlier program data,
      let start : EvaluationState := { environment := { data } }
      let bound := Named.ofPairs (evaluator.boundByPrograms earlier start)
      (evaluator.stateAfter earlier start).environment = { data, program := bound } ∧
        ((evaluator.evaluate program).outcome (evaluator.stateAfter earlier start)).1 =
          ((evaluator.evaluate program).outcome
            { environment := { data, program := bound } }).1 := by
  constructor
  · intro nodes state after
    have binds := evaluateBody_binds evaluator nodes
    have leaves := binds.environment state
    have depth := binds.depth state
    obtain ⟨data, length, tail⟩ :=
      state.environment.defineAll_outside (evaluator.boundByBody nodes state)
    rw [← leaves] at data length tail
    refine ⟨depth, data, length, tail, ?_, ?_⟩
    · intro name unbound
      have other : name ∉ (evaluator.boundByBody nodes state).map Prod.fst := by
        intro member
        obtain ⟨binding, executed, rfl⟩ := List.mem_map.mp member
        exact unbound (binds.named state binding executed)
      have keeps := state.environment.defineAll_get?_of_notMem other
      rwa [← leaves] at keeps
    · have innermost :=
        state.environment.defineAll_innermost (evaluator.boundByBody nodes state)
      rwa [← leaves] at innermost
  · intro earlier program data start bound
    obtain ⟨environment, depth⟩ := stateAfter_binds evaluator earlier start
    have reached : (evaluator.stateAfter earlier start).environment =
        { data, program := bound } :=
      environment.trans (Environment.defineAll_of_data data ∅ _)
    exact ⟨reached, evaluate_eq_of_environment evaluator program reached depth⟩

/-- An error in a loop that is in a conditional: the bindings before the loop remain, and
the entry at which the loop stopped leaves no trace. -/
theorem evaluation_wellNested_stoppedLoop :
    let engine := Engine.create {}
    let parsed := engine.parse
      "#let (n = 1)#if (true)#let (m = 2)#for (v in $xs)#let (k = $v)$no#end#end#let (z = 3)"
    let evaluator := engine.evaluatorFor parsed
    let nodes := parsed.program.nodes
    let state : EvaluationState :=
      { environment := ⟨.ofPairs [("xs", .array [.null])], ∅, [.ofPairs [("v", .boolean true)]]⟩
        depth := 3 }
    let after := ((evaluator.evaluateBody nodes).outcome state).2
    ((evaluator.evaluateBody nodes).outcome state).1.toOption = none ∧
      (evaluator.boundByBody nodes state).map Prod.fst = ["n", "m"] ∧
      bodyBoundNames nodes = ["n", "m", "z"] ∧ "v" ∉ bodyBoundNames nodes ∧
      after.depth = 3 ∧ after.environment.innermost.get? "v" = some (.boolean true) := by
  intro engine parsed evaluator nodes state after
  have boundNames : bodyBoundNames nodes = ["n", "m", "z"] := by decide +kernel
  have unbound : "v" ∉ bodyBoundNames nodes := by
    rw [boundNames]
    decide
  obtain ⟨depth, -, -, -, keeps, -⟩ := evaluator.evaluation_wellNested.1 nodes state
  exact ⟨by decide +kernel, by decide +kernel, boundNames, unbound, depth,
    keeps "v" unbound⟩

end Evaluator

end Stencil
