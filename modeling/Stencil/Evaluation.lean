import Stencil.Evaluation.State
import Stencil.Program
import Stencil.Registry

/-!
# Evaluating programs

Evaluation walks over the nodes of a program in order and puts together the
text that they write.  It stops at the first error.  Blocks and macro calls
count towards a limit of nesting; loop bodies run in a frame of their own for
every entry.
-/

namespace Stencil

/-- What an evaluation depends on apart from its state. -/
structure Evaluator where
  registry : Registry
  /-- The template in which errors are located. -/
  source : Source
  /-- How deep blocks and macro calls may be nested. -/
  maxDepth : Nat
  deriving Inhabited

def Literal.value : Literal → Value
  | .string content => .string content
  | .integer number => .integer number
  | .float number => .float number
  | .boolean value => .boolean value
  | .null => .null

/-- The part of a value to which a step of a path leads, or the reason why there
is none. -/
def Value.step : Value → PathSegment → Except String Value
  | .object fields, .field name =>
      match fields.get? name with
      | some value => .ok value
      | none => .error "no such field"
  | .array items, .index position =>
      match items[position]? with
      | some value => .ok value
      | none =>
          .error ("index out of range for length " ++ toString items.length)
  | value, .field _ => .error (value.typeName ++ " has no fields")
  | value, .index _ => .error (value.typeName ++ " cannot be indexed")

/-- The part of a value at the end of a path, or the first step that leads
nowhere and the reason. -/
def Value.follow (value : Value) :
    List PathSegment → Except (PathSegment × String) Value
  | [] => .ok value
  | segment :: segments =>
      match value.step segment with
      | .ok part => part.follow segments
      | .error reason => .error (segment, reason)

namespace Evaluator

def fail {α : Type} (evaluator : Evaluator) (span : Span)
    (fault : EvaluationFault) : Evaluation α :=
  throw ⟨fault, evaluator.source.positionAt span.start⟩

/-- Evaluate one level deeper, unless the limit is reached. -/
def nested {α : Type} (evaluator : Evaluator) (span : Span)
    (evaluation : Evaluation α) : Evaluation α := do
  let depth := (← get).depth
  if evaluator.maxDepth ≤ depth then
    evaluator.fail span (.tooDeep (depth + 1) evaluator.maxDepth)
  else
    modify fun state => { state with depth := state.depth + 1 }
    evaluation.restoring fun state => { state with depth := state.depth - 1 }

def resolvePath (evaluator : Evaluator) (path : VariablePath) (span : Span) :
    Evaluation Value := do
  let environment := (← get).environment
  match environment.get? path.root with
  | none =>
      Evaluation.tell (.undefinedVariable path.root environment.visibleNames)
      evaluator.fail span (.undefinedVariable path.root)
  | some value =>
      match value.follow path.segments with
      | .ok part => pure part
      | .error (segment, reason) =>
          evaluator.fail span (.unresolvedPath path.text segment.text reason)

def applyMacro (evaluator : Evaluator) (name : String) (arguments : List Value)
    (span : Span) : Evaluation Value :=
  match evaluator.registry.lookup name with
  | none => evaluator.fail span (.undefinedMacro name)
  | some entry =>
      if entry.arity.accepts arguments.length then
        match entry.apply arguments with
        | .ok value => pure value
        | .error cause => evaluator.fail span (.macroFailed name cause)
      else
        evaluator.fail span
          (.wrongArgumentCount name entry.arity arguments.length)

mutual

def evaluateExpression (evaluator : Evaluator) : Expression → Evaluation Value
  | .literal value _ => pure value.value
  | .path path span => evaluator.resolvePath path span
  | .call name arguments span =>
      evaluator.nested span do
        let values ← evaluateArguments evaluator arguments
        evaluator.applyMacro name values span

/-- The values of several expressions, from the first to the last. -/
def evaluateArguments (evaluator : Evaluator) :
    List Expression → Evaluation (List Value)
  | [] => pure []
  | expression :: expressions => do
      let value ← evaluateExpression evaluator expression
      let values ← evaluateArguments evaluator expressions
      pure (value :: values)

end

/-- Whether a condition holds; it must be a truth value. -/
def evaluateCondition (evaluator : Evaluator) (condition : Expression) :
    Evaluation Bool := do
  match ← evaluator.evaluateExpression condition with
  | .boolean holds => pure holds
  | other =>
      evaluator.fail condition.span
        (.wrongType ("condition must be a Bool, found " ++ other.typeName))

end Evaluator

/-- The entries over which a loop runs, each with its key, and the name of the
key when the loop gives none. -/
structure Iteration where
  entries : List (Value × Value)
  implicitKey : Option String
  deriving Repr, Inhabited

/-- The entries of an array are numbered from zero, those of an object have their
names for keys. -/
def Iteration.ofValue? : Value → Option Iteration
  | .array items =>
      some ⟨items.zipIdx.map fun (value, index) =>
        (.integer (Int64.ofNat index), value), none⟩
  | .object fields =>
      some ⟨fields.entries.map fun (name, value) => (.string name, value),
        some "key"⟩
  | _ => none

def defineEntry (key : Option String) (item : String) (entry : Value × Value) :
    Evaluation Unit := do
  match key with
  | some key => Evaluation.define key entry.1
  | none => pure ()
  Evaluation.define item entry.2

/-- What a body writes for all entries, each in a frame of its own. -/
def evaluateEntries (key : Option String) (item : String)
    (body : Evaluation String) (entries : List (Value × Value)) :
    Evaluation String :=
  entries.foldlM (fun written entry => do
    let output ← Evaluation.inFrame do
      defineEntry key item entry
      body
    pure (written ++ output)) ""

namespace Evaluator

def evaluateIterable (evaluator : Evaluator) (iterable : Expression) :
    Evaluation Iteration := do
  let value ← evaluator.evaluateExpression iterable
  match Iteration.ofValue? value with
  | some iteration => pure iteration
  | none =>
      evaluator.fail iterable.span
        (.wrongType ("cannot iterate over " ++ value.typeName))

/-- What an expression of the text writes: the result of a macro is rendered,
everything else is written as it is. -/
def outputText : Expression → Value → String
  | .call _ _ _, value => value.render
  | _, value => value.text

mutual

def evaluateNode (evaluator : Evaluator) : Node → Evaluation String
  | .text content _ => pure content
  | .output expression => do
      let value ← evaluator.evaluateExpression expression
      pure (outputText expression value)
  | .conditional branches otherwise span =>
      evaluator.nested span do
        match ← evaluateBranches evaluator branches with
        | some output => pure output
        | none => evaluateOtherwise evaluator otherwise
  | .loop key item iterable body span =>
      evaluator.nested span do
        let iteration ← evaluator.evaluateIterable iterable
        Evaluation.tell (.iterating iteration.entries.length item)
        evaluateEntries (key.or iteration.implicitKey) item
          (evaluateBody evaluator body) iteration.entries
  | .binding name value _ => do
      let value ← evaluator.evaluateExpression value
      Evaluation.define name value
      pure ""

/-- What the first branch with a true condition writes, if there is one. -/
def evaluateBranches (evaluator : Evaluator) :
    List Branch → Evaluation (Option String)
  | [] => pure none
  | branch :: branches => do
      match ← evaluateBranch evaluator branch with
      | some output => pure (some output)
      | none => evaluateBranches evaluator branches

/-- What a branch writes, if its condition is true. -/
def evaluateBranch (evaluator : Evaluator) :
    Branch → Evaluation (Option String)
  | .mk condition body => do
      if ← evaluator.evaluateCondition condition then
        let output ← evaluateBody evaluator body
        pure (some output)
      else
        pure none

/-- What the body writes that is taken when no condition is true. -/
def evaluateOtherwise (evaluator : Evaluator) :
    Option (List Node) → Evaluation String
  | none => pure ""
  | some body => evaluateBody evaluator body

/-- What the nodes of a body write, one after the other. -/
def evaluateBody (evaluator : Evaluator) : List Node → Evaluation String
  | [] => pure ""
  | node :: nodes => do
      let first ← evaluateNode evaluator node
      let others ← evaluateBody evaluator nodes
      pure (first ++ others)

end

def evaluate (evaluator : Evaluator) (program : Program) : Evaluation String := do
  let output ← evaluator.evaluateBody program.nodes
  Evaluation.tell (.evaluated program.nodes.length output.utf8ByteSize)
  pure output

end Evaluator

end Stencil
