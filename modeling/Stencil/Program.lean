import Stencil.Token

/-!
# Template programs

The tree into which the tokens of a template are put together.  Every node and
expression keeps the bytes from which it was read.
-/

namespace Stencil

/-- One step of a variable path. -/
inductive PathSegment where
  | field (name : String)
  | index (position : Nat)
  deriving DecidableEq, Repr, Inhabited

def PathSegment.text : PathSegment → String
  | .field name => "." ++ name
  | .index position => "[" ++ toString position ++ "]"

/-- A variable and the way from its value to a part of it. -/
structure VariablePath where
  root : String
  segments : List PathSegment
  deriving DecidableEq, Repr, Inhabited

def VariablePath.text (path : VariablePath) : String :=
  "$" ++ path.root ++ String.join (path.segments.map PathSegment.text)

/-- A constant written in a header. -/
inductive Literal where
  | string (content : String)
  | integer (number : Int64)
  | float (number : Binary64)
  | boolean (value : Bool)
  | null
  deriving DecidableEq, Repr, Inhabited

def Literal.ofKind? : TokenKind → Option Literal
  | .string content => some (.string content)
  | .integer number => some (.integer number)
  | .float number => some (.float number)
  | .boolean value => some (.boolean value)
  | .null => some .null
  | _ => none

/-- An expression of a header or of the text. -/
inductive Expression where
  | path (path : VariablePath) (span : Span)
  | call (name : String) (arguments : List Expression) (span : Span)
  | literal (value : Literal) (span : Span)
  deriving Repr, Inhabited

def Expression.span : Expression → Span
  | .path _ span => span
  | .call _ _ span => span
  | .literal _ span => span

mutual

/-- One element of a template body. -/
inductive Node where
  /-- Literal text. -/
  | text (content : String) (span : Span)
  /-- An expression whose value is written to the output. -/
  | output (expression : Expression)
  /-- Guarded bodies, of which the first with a true condition is taken, and the
  body that is taken when there is none. -/
  | conditional (branches : List Branch) (otherwise : Option (List Node))
      (span : Span)
  /-- A body for every entry of an array or object. -/
  | loop (key : Option String) (item : String) (iterable : Expression)
      (body : List Node) (span : Span)
  /-- A name for a value. -/
  | binding (name : String) (value : Expression) (span : Span)
  deriving Repr, Inhabited

/-- A body with its condition. -/
inductive Branch where
  | mk (condition : Expression) (body : List Node)
  deriving Repr, Inhabited

end

def Branch.condition : Branch → Expression
  | .mk condition _ => condition

def Branch.body : Branch → List Node
  | .mk _ body => body

def Node.span : Node → Span
  | .text _ span => span
  | .output expression => expression.span
  | .conditional _ _ span => span
  | .loop _ _ _ _ span => span
  | .binding _ _ span => span

/-- A whole template. -/
structure Program where
  nodes : List Node
  span : Span
  deriving Repr, Inhabited

end Stencil
