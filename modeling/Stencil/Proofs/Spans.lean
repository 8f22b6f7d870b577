import Stencil.Program

/-!
# Spans of trees

Changing all spans of a tree at once.  Two trees are the same up to spans if they
are equal once every span is forgotten.
-/

namespace Stencil

mutual

def Expression.mapSpans (change : Span → Span) : Expression → Expression
  | .path path span => .path path (change span)
  | .literal value span => .literal value (change span)
  | .call name arguments span =>
      .call name (mapArgumentSpans change arguments) (change span)

/-- Change every span of several expressions. -/
def mapArgumentSpans (change : Span → Span) : List Expression → List Expression
  | [] => []
  | expression :: expressions =>
      expression.mapSpans change :: mapArgumentSpans change expressions

end

mutual

def Node.mapSpans (change : Span → Span) : Node → Node
  | .text content span => .text content (change span)
  | .output expression => .output (expression.mapSpans change)
  | .conditional branches otherwise span =>
      .conditional (mapBranchSpans change branches)
        (mapOtherwiseSpans change otherwise) (change span)
  | .loop key item iterable body span =>
      .loop key item (iterable.mapSpans change) (mapBodySpans change body)
        (change span)
  | .binding name value span =>
      .binding name (value.mapSpans change) (change span)

/-- Change every span of the branches of a conditional. -/
def mapBranchSpans (change : Span → Span) : List Branch → List Branch
  | [] => []
  | branch :: branches =>
      branch.mapSpans change :: mapBranchSpans change branches

def Branch.mapSpans (change : Span → Span) : Branch → Branch
  | .mk condition body =>
      .mk (condition.mapSpans change) (mapBodySpans change body)

/-- Change every span of the last body of a conditional. -/
def mapOtherwiseSpans (change : Span → Span) :
    Option (List Node) → Option (List Node)
  | none => none
  | some body => some (mapBodySpans change body)

def mapBodySpans (change : Span → Span) : List Node → List Node
  | [] => []
  | node :: nodes => node.mapSpans change :: mapBodySpans change nodes

end

def Program.mapSpans (change : Span → Span) (program : Program) : Program :=
  ⟨mapBodySpans change program.nodes, change program.span⟩

/-- Forget every span of a program. -/
def Program.withoutSpans (program : Program) : Program :=
  program.mapSpans fun _ => ⟨0, 0⟩

section Changes

variable (change : Span → Span)

theorem Expression.span_mapSpans (expression : Expression) :
    (expression.mapSpans change).span = change expression.span := by
  cases expression <;> rfl

theorem mapBodySpans_eq_map (nodes : List Node) :
    mapBodySpans change nodes = nodes.map (Node.mapSpans change) := by
  induction nodes with
  | nil => rfl
  | cons node nodes ih => rw [mapBodySpans, ih, List.map_cons]

@[simp]
theorem mapBodySpans_append (first second : List Node) :
    mapBodySpans change (first ++ second) =
      mapBodySpans change first ++ mapBodySpans change second := by
  simp [mapBodySpans_eq_map]

end Changes

mutual

theorem Expression.mapSpans_mapSpans (first second : Span → Span) :
    ∀ expression : Expression,
      (expression.mapSpans first).mapSpans second =
        expression.mapSpans (second ∘ first)
  | .path path span => rfl
  | .literal value span => rfl
  | .call name arguments span => by
      simp [Expression.mapSpans, mapArgumentSpans_mapArgumentSpans first second]

theorem mapArgumentSpans_mapArgumentSpans (first second : Span → Span) :
    ∀ expressions : List Expression,
      mapArgumentSpans second (mapArgumentSpans first expressions) =
        mapArgumentSpans (second ∘ first) expressions
  | [] => rfl
  | expression :: expressions => by
      simp [mapArgumentSpans, expression.mapSpans_mapSpans first second,
        mapArgumentSpans_mapArgumentSpans first second expressions]

end

mutual

theorem Node.mapSpans_mapSpans (first second : Span → Span) :
    ∀ node : Node,
      (node.mapSpans first).mapSpans second = node.mapSpans (second ∘ first)
  | .text content span => rfl
  | .output expression => by
      simp [Node.mapSpans, Expression.mapSpans_mapSpans]
  | .conditional branches otherwise span => by
      simp [Node.mapSpans, mapBranchSpans_mapBranchSpans first second branches,
        mapOtherwiseSpans_mapOtherwiseSpans first second otherwise]
  | .loop key item iterable body span => by
      simp [Node.mapSpans, Expression.mapSpans_mapSpans,
        mapBodySpans_mapBodySpans first second body]
  | .binding name value span => by
      simp [Node.mapSpans, Expression.mapSpans_mapSpans]

theorem mapBranchSpans_mapBranchSpans (first second : Span → Span) :
    ∀ branches : List Branch,
      mapBranchSpans second (mapBranchSpans first branches) =
        mapBranchSpans (second ∘ first) branches
  | [] => rfl
  | branch :: branches => by
      simp [mapBranchSpans, branch.mapSpans_mapSpans first second,
        mapBranchSpans_mapBranchSpans first second branches]

theorem Branch.mapSpans_mapSpans (first second : Span → Span) :
    ∀ branch : Branch,
      (branch.mapSpans first).mapSpans second =
        branch.mapSpans (second ∘ first)
  | .mk condition body => by
      simp [Branch.mapSpans, Expression.mapSpans_mapSpans,
        mapBodySpans_mapBodySpans first second body]

theorem mapOtherwiseSpans_mapOtherwiseSpans (first second : Span → Span) :
    ∀ otherwise : Option (List Node),
      mapOtherwiseSpans second (mapOtherwiseSpans first otherwise) =
        mapOtherwiseSpans (second ∘ first) otherwise
  | none => rfl
  | some body => by
      simp [mapOtherwiseSpans, mapBodySpans_mapBodySpans first second body]

theorem mapBodySpans_mapBodySpans (first second : Span → Span) :
    ∀ nodes : List Node,
      mapBodySpans second (mapBodySpans first nodes) =
        mapBodySpans (second ∘ first) nodes
  | [] => rfl
  | node :: nodes => by
      simp [mapBodySpans, node.mapSpans_mapSpans first second,
        mapBodySpans_mapBodySpans first second nodes]

end

mutual

theorem Expression.mapSpans_id :
    ∀ expression : Expression, expression.mapSpans id = expression
  | .path path span => rfl
  | .literal value span => rfl
  | .call name arguments span => by
      simp [Expression.mapSpans, mapArgumentSpans_id arguments]

theorem mapArgumentSpans_id :
    ∀ expressions : List Expression, mapArgumentSpans id expressions = expressions
  | [] => rfl
  | expression :: expressions => by
      simp [mapArgumentSpans, expression.mapSpans_id,
        mapArgumentSpans_id expressions]

end

mutual

theorem Node.mapSpans_id : ∀ node : Node, node.mapSpans id = node
  | .text content span => rfl
  | .output expression => by simp [Node.mapSpans, Expression.mapSpans_id]
  | .conditional branches otherwise span => by
      simp [Node.mapSpans, mapBranchSpans_id branches,
        mapOtherwiseSpans_id otherwise]
  | .loop key item iterable body span => by
      simp [Node.mapSpans, Expression.mapSpans_id, mapBodySpans_id body]
  | .binding name value span => by simp [Node.mapSpans, Expression.mapSpans_id]

theorem mapBranchSpans_id :
    ∀ branches : List Branch, mapBranchSpans id branches = branches
  | [] => rfl
  | branch :: branches => by
      simp [mapBranchSpans, branch.mapSpans_id, mapBranchSpans_id branches]

theorem Branch.mapSpans_id : ∀ branch : Branch, branch.mapSpans id = branch
  | .mk condition body => by
      simp [Branch.mapSpans, Expression.mapSpans_id, mapBodySpans_id body]

theorem mapOtherwiseSpans_id :
    ∀ otherwise : Option (List Node), mapOtherwiseSpans id otherwise = otherwise
  | none => rfl
  | some body => by simp [mapOtherwiseSpans, mapBodySpans_id body]

theorem mapBodySpans_id : ∀ nodes : List Node, mapBodySpans id nodes = nodes
  | [] => rfl
  | node :: nodes => by
      simp [mapBodySpans, node.mapSpans_id, mapBodySpans_id nodes]

end

end Stencil
