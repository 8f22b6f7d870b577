import Stencil.Program

/-!
# Expressions of a program

The expressions that occur in a program, those that stand in the headers of its
blocks, and the names that it uses.
-/

namespace Stencil

mutual

/-- An expression and all those in its arguments. -/
def Expression.parts : Expression → List Expression
  | .path path span => [.path path span]
  | .literal value span => [.literal value span]
  | .call name arguments span =>
      .call name arguments span :: argumentParts arguments

/-- Several expressions and all those in their arguments. -/
def argumentParts : List Expression → List Expression
  | [] => []
  | argument :: arguments => argument.parts ++ argumentParts arguments

end

theorem Expression.mem_parts_self (expression : Expression) :
    expression ∈ expression.parts := by
  cases expression <;> simp [Expression.parts]

mutual

/-- All expressions in a node. -/
def Node.expressions : Node → List Expression
  | .text _ _ => []
  | .output expression => expression.parts
  | .conditional branches otherwise _ =>
      branchExpressions branches ++ otherwiseExpressions otherwise
  | .loop _ _ iterable body _ => iterable.parts ++ bodyExpressions body
  | .binding _ value _ => value.parts

/-- All expressions in the branches of a conditional. -/
def branchExpressions : List Branch → List Expression
  | [] => []
  | branch :: branches => branch.expressions ++ branchExpressions branches

def Branch.expressions : Branch → List Expression
  | .mk condition body => condition.parts ++ bodyExpressions body

/-- All expressions in the last body of a conditional. -/
def otherwiseExpressions : Option (List Node) → List Expression
  | none => []
  | some body => bodyExpressions body

def bodyExpressions : List Node → List Expression
  | [] => []
  | node :: nodes => node.expressions ++ bodyExpressions nodes

end

def Program.expressions (program : Program) : List Expression :=
  bodyExpressions program.nodes

mutual

/-- The conditions and the iterables of all blocks in a node. -/
def Node.blockHeaders : Node → List Expression
  | .text _ _ => []
  | .output _ => []
  | .conditional branches otherwise _ =>
      branchBlockHeaders branches ++ otherwiseBlockHeaders otherwise
  | .loop _ _ iterable body _ => iterable :: bodyBlockHeaders body
  | .binding _ _ _ => []

/-- The conditions of branches, and the headers of all blocks in them. -/
def branchBlockHeaders : List Branch → List Expression
  | [] => []
  | branch :: branches => branch.blockHeaders ++ branchBlockHeaders branches

def Branch.blockHeaders : Branch → List Expression
  | .mk condition body => condition :: bodyBlockHeaders body

/-- The headers of all blocks in the last body of a conditional. -/
def otherwiseBlockHeaders : Option (List Node) → List Expression
  | none => []
  | some body => bodyBlockHeaders body

def bodyBlockHeaders : List Node → List Expression
  | [] => []
  | node :: nodes => node.blockHeaders ++ bodyBlockHeaders nodes

end

def Program.blockHeaders (program : Program) : List Expression :=
  bodyBlockHeaders program.nodes

/-- The variable at which a path begins. -/
def Expression.root? : Expression → Option String
  | .path ⟨root, _⟩ _ => some root
  | _ => none

/-- The macro that is called. -/
def Expression.macroName? : Expression → Option String
  | .call name _ _ => some name
  | _ => none

/-- The variables at which the paths of a program begin. -/
def Program.roots (program : Program) : List String :=
  program.expressions.filterMap Expression.root?

/-- The macros that a program calls. -/
def Program.macroNames (program : Program) : List String :=
  program.expressions.filterMap Expression.macroName?

end Stencil
