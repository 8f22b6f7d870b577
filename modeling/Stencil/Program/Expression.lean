import Stencil.Program
import Stencil.Program.TokenReader

/-!
# Reading expressions

Paths, constants and macro calls are read from tokens.  Calls may stand in the
arguments of calls, down to a limit: a reader for one nesting level is made from
the reader for the next one.
-/

namespace Stencil

/-- The segments of a path, the offset at which it ends, and the tokens after
it. -/
structure PathTail where
  segments : List PathSegment
  stop : Nat
  rest : List Token
  deriving Repr, Inhabited

def PathTail.prepend (segment : PathSegment) (tail : PathTail) : PathTail :=
  { tail with segments := segment :: tail.segments }

/-- Read the segments that are written directly after the byte at which the path
ends so far. -/
def readPathTail (stop : Nat) : List Token → PathTail
  | ⟨.dot, dotSpan⟩ :: ⟨.name field, span⟩ :: rest =>
      if dotSpan.start = stop then
        (readPathTail span.stop rest).prepend (.field field)
      else
        ⟨[], stop, ⟨.dot, dotSpan⟩ :: ⟨.name field, span⟩ :: rest⟩
  | ⟨.leftBracket, openSpan⟩ :: ⟨.integer index, indexSpan⟩ ::
      ⟨.rightBracket, span⟩ :: rest =>
      if openSpan.start = stop ∧ 0 ≤ index.toInt then
        (readPathTail span.stop rest).prepend (.index index.toInt.toNat)
      else
        ⟨[], stop, ⟨.leftBracket, openSpan⟩ :: ⟨.integer index, indexSpan⟩ ::
          ⟨.rightBracket, span⟩ :: rest⟩
  | tokens => ⟨[], stop, tokens⟩

theorem length_readPathTail_le (stop : Nat) (tokens : List Token) :
    (readPathTail stop tokens).rest.length ≤ tokens.length := by
  fun_induction readPathTail stop tokens <;>
    simp_all only [PathTail.prepend, List.length_cons] <;> omega

/-- Read a path whose sigil starts at `start` and is already taken off. -/
def readPath (start : Nat) (tokens : List Token) : Reading (Option Expression) :=
  match tokens with
  | ⟨.name root, span⟩ :: rest =>
      let tail := readPathTail span.stop rest
      ⟨some (.path ⟨root, tail.segments⟩ ⟨start, tail.stop⟩), [], tail.rest⟩
  | _ => .failed (unexpectedNext ["a variable name"] tokens) tokens

theorem length_readPath_le (start : Nat) (tokens : List Token) :
    (readPath start tokens).rest.length ≤ tokens.length := by
  unfold readPath
  split
  · exact Nat.le_succ_of_le (length_readPathTail_le _ _)
  · exact Nat.le_refl _

/-- The arguments of a call and the offset at which its parentheses close. -/
structure ArgumentList where
  arguments : List Expression
  stop : Nat
  deriving Repr, Inhabited

/-- Put an argument in front of others. -/
def ArgumentList.prepend (argument : Expression) (list : ArgumentList) :
    ArgumentList :=
  { list with arguments := argument :: list.arguments }

/-- Read one argument or more, separated by commas, and the closing
parenthesis. -/
def readArguments (argument : TokenReader (Option Expression))
    (tokens : List Token) : Reading (Option ArgumentList) :=
  let reading := argument.read tokens
  match reading.value with
  | none => .failed reading.reports reading.rest
  | some expression =>
      match _ : reading.rest with
      | ⟨.comma, _⟩ :: rest =>
          ((readArguments argument rest).precededBy reading.reports).map
            (Option.map (ArgumentList.prepend expression))
      | ⟨.rightParen, span⟩ :: rest =>
          ⟨some ⟨[expression], span.stop⟩, reading.reports, rest⟩
      | rest =>
          .failed (reading.reports ++ unexpectedNext ["','", "')'"] rest) rest
termination_by tokens.length
decreasing_by
  have shorter := argument.shrinks tokens
  rename_i readingRest
  rw [readingRest, List.length_cons] at shorter
  omega

theorem length_readArguments_le (argument : TokenReader (Option Expression))
    (tokens : List Token) :
    (readArguments argument tokens).rest.length ≤ tokens.length := by
  fun_induction readArguments argument tokens with
  | case1 tokens reading => exact argument.shrinks tokens
  | case2 tokens reading expression _ span rest readingRest ih =>
      have shorter : reading.rest.length ≤ tokens.length := argument.shrinks tokens
      rw [readingRest, List.length_cons] at shorter
      simp only [Reading.map, Reading.precededBy]
      omega
  | case3 tokens reading expression _ span rest readingRest =>
      have shorter : reading.rest.length ≤ tokens.length := argument.shrinks tokens
      rw [readingRest, List.length_cons] at shorter
      simp only
      omega
  | case4 tokens reading expression _ _ _ =>
      exact argument.shrinks tokens

/-- Read the arguments of a call after the opening parenthesis. -/
def readArgumentList (argument : TokenReader (Option Expression))
    (tokens : List Token) : Reading (Option ArgumentList) :=
  match tokens with
  | ⟨.rightParen, span⟩ :: rest => ⟨some ⟨[], span.stop⟩, [], rest⟩
  | _ => readArguments argument tokens

theorem length_readArgumentList_le (argument : TokenReader (Option Expression))
    (tokens : List Token) :
    (readArgumentList argument tokens).rest.length ≤ tokens.length := by
  unfold readArgumentList
  split
  · exact Nat.le_succ _
  · exact length_readArguments_le argument tokens

/-- Read a macro call whose name is already taken off.  Without an argument
reader no further level of nesting is allowed. -/
def readCall (limit : Nat) (argument? : Option (TokenReader (Option Expression)))
    (name : String) (nameSpan : Span) (tokens : List Token) :
    Reading (Option Expression) :=
  match tokens with
  | ⟨.leftParen, _⟩ :: rest =>
      match argument? with
      | none => .failed [⟨.nestingTooDeep limit, nameSpan⟩] (closeGroup 0 rest)
      | some argument =>
          (readArgumentList argument rest).map (Option.map fun list =>
            .call name list.arguments ⟨nameSpan.start, list.stop⟩)
  | _ => .failed [⟨.missingArguments name, nameSpan⟩] tokens

theorem length_readCall_le (limit : Nat)
    (argument? : Option (TokenReader (Option Expression))) (name : String)
    (nameSpan : Span) (tokens : List Token) :
    (readCall limit argument? name nameSpan tokens).rest.length ≤
      tokens.length := by
  unfold readCall
  split
  · rename_i rest
    split
    · exact Nat.le_succ_of_le (length_closeGroup_le 0 rest)
    · exact Nat.le_succ_of_le (length_readArgumentList_le _ rest)
  · exact Nat.le_refl _

def readExpression (limit : Nat)
    (argument? : Option (TokenReader (Option Expression)))
    (tokens : List Token) : Reading (Option Expression) :=
  match tokens with
  | [] => .failed [] []
  | token :: rest =>
      match token.kind with
      | .dollar => readPath token.span.start rest
      | .macroName name => readCall limit argument? name token.span rest
      | kind =>
          match Literal.ofKind? kind with
          | some literal => ⟨some (.literal literal token.span), [], rest⟩
          | none =>
              .failed
                (unexpectedNext ["a variable", "a macro call", "a literal"] tokens)
                tokens

theorem length_readExpression_le (limit : Nat)
    (argument? : Option (TokenReader (Option Expression))) (tokens : List Token) :
    (readExpression limit argument? tokens).rest.length ≤ tokens.length := by
  unfold readExpression
  split
  · exact Nat.le_refl _
  · rename_i token rest
    split
    · exact Nat.le_succ_of_le (length_readPath_le _ rest)
    · exact Nat.le_succ_of_le (length_readCall_le _ _ _ _ rest)
    · split
      · exact Nat.le_succ _
      · exact Nat.le_refl _

/-- The reader of expressions in which calls may be nested `levels` deep. -/
def expressionReader (limit : Nat) : Nat → TokenReader (Option Expression)
  | 0 =>
      { read := fun tokens => readExpression limit none tokens
        shrinks := length_readExpression_le limit none }
  | levels + 1 =>
      { read := fun tokens =>
          readExpression limit (some (expressionReader limit levels)) tokens
        shrinks := length_readExpression_le limit
          (some (expressionReader limit levels)) }

end Stencil
