import Stencil.Token

/-!
# Reading from a list of tokens

A reader takes tokens from the front of a list and gives a value, the reports of
what was wrong, and the tokens that are left.  It never gives back more tokens
than it was given, which is why loops of readers end.

The end of the input is reached alike when no token is left and when the next
one marks the end; it is never consumed, and nothing is reported there, since
whatever is missing has been reported when the tokens were made.
-/

namespace Stencil

/-- The outcome of reading the front of a list of tokens. -/
structure Reading (α : Type) where
  value : α
  reports : List Report
  /-- The tokens that are left. -/
  rest : List Token
  deriving Repr, Inhabited

namespace Reading

def failed {α : Type} (reports : List Report) (rest : List Token) :
    Reading (Option α) :=
  ⟨none, reports, rest⟩

/-- Put earlier reports in front. -/
def precededBy {α : Type} (reading : Reading α) (reports : List Report) :
    Reading α :=
  { reading with reports := reports ++ reading.reports }

def map {α β : Type} (change : α → β) (reading : Reading α) : Reading β :=
  ⟨change reading.value, reading.reports, reading.rest⟩

end Reading

/-- The kind of the next token; the end of the list counts as end of input. -/
def nextKind : List Token → TokenKind
  | [] => .endOfInput
  | token :: _ => token.kind

def atEnd (tokens : List Token) : Bool :=
  nextKind tokens == .endOfInput

/-- The report that the next token was not expected; none at the end of the
input. -/
def unexpectedNext (expected : List String) : List Token → List Report
  | [] => []
  | token :: _ =>
      if token.kind = .endOfInput then
        []
      else
        [⟨.unexpected token.kind.description expected, token.span⟩]

/-- The tokens after the parenthesis that closes the innermost open one, when
`depth` further ones are open. -/
def closeGroup (depth : Nat) : List Token → List Token
  | [] => []
  | token :: rest =>
      match token.kind with
      | .endOfInput => token :: rest
      | .leftParen => closeGroup (depth + 1) rest
      | .rightParen =>
          match depth with
          | 0 => rest
          | depth + 1 => closeGroup depth rest
      | _ => closeGroup depth rest

/-- Step over a parenthesised header, if there is one. -/
def skipHeader : List Token → List Token
  | [] => []
  | token :: rest =>
      if token.kind = .leftParen then closeGroup 0 rest else token :: rest

def TokenKind.keyword? : TokenKind → Option Keyword
  | .directive word => Keyword.ofWord? word
  | _ => none

/-- The tokens after the `#end` of the innermost open block, when `depth` further
ones are open. -/
def closeBlock (depth : Nat) : List Token → List Token
  | [] => []
  | token :: rest =>
      if token.kind = .endOfInput then
        token :: rest
      else
        match token.kind.keyword? with
        | some .ifBlock | some .forBlock => closeBlock (depth + 1) rest
        | some .endBlock =>
            match depth with
            | 0 => rest
            | depth + 1 => closeBlock depth rest
        | _ => closeBlock depth rest

theorem length_closeGroup_le (depth : Nat) (tokens : List Token) :
    (closeGroup depth tokens).length ≤ tokens.length := by
  fun_induction closeGroup depth tokens <;>
    simp_all only [List.length_cons, List.length_nil] <;> omega

theorem length_skipHeader_le (tokens : List Token) :
    (skipHeader tokens).length ≤ tokens.length := by
  unfold skipHeader
  split
  · exact Nat.le_refl _
  · rename_i token rest
    split
    · exact Nat.le_succ_of_le (length_closeGroup_le 0 rest)
    · exact Nat.le_refl _

theorem length_closeBlock_le (depth : Nat) (tokens : List Token) :
    (closeBlock depth tokens).length ≤ tokens.length := by
  fun_induction closeBlock depth tokens <;>
    simp_all only [List.length_cons, List.length_nil] <;> omega

/-- A way of reading the front of a list of tokens. -/
structure TokenReader (α : Type) where
  read : List Token → Reading α
  shrinks : ∀ tokens, (read tokens).rest.length ≤ tokens.length

namespace TokenReader

variable {α β : Type}

/-- Consume the next token if it is acceptable; otherwise report what was
expected. -/
def next (accept : TokenKind → Option α) (expected : List String) :
    TokenReader (Option α) where
  read tokens :=
    match tokens with
    | [] => .failed [] []
    | token :: rest =>
        match accept token.kind with
        | some value => ⟨some value, [], rest⟩
        | none => .failed (unexpectedNext expected tokens) tokens
  shrinks tokens := by
    split
    · exact Nat.le_refl _
    · split
      · exact Nat.le_succ _
      · exact Nat.le_refl _

/-- Read with one reader and, if it gives a value, go on with another one. -/
def andThen (first : TokenReader (Option α))
    (second : α → TokenReader (Option β)) : TokenReader (Option β) where
  read tokens :=
    let reading := first.read tokens
    match reading.value with
    | none => .failed reading.reports reading.rest
    | some value =>
        ((second value).read reading.rest).precededBy reading.reports
  shrinks tokens := by
    have firstShrinks := first.shrinks tokens
    dsimp only
    split
    · exact firstShrinks
    · exact Nat.le_trans ((second _).shrinks _) firstShrinks

def map (change : α → β) (reader : TokenReader (Option α)) :
    TokenReader (Option β) where
  read tokens := (reader.read tokens).map (Option.map change)
  shrinks := reader.shrinks

/-- If the next token is of a given kind, consume it and go on with one reader;
otherwise go on with another one. -/
def ifNext (kind : TokenKind) (present absent : TokenReader α) :
    TokenReader α where
  read tokens :=
    match tokens with
    | [] => absent.read []
    | token :: rest =>
        if token.kind = kind then present.read rest else absent.read tokens
  shrinks tokens := by
    split
    · exact absent.shrinks []
    · rename_i token rest
      split
      · exact Nat.le_succ_of_le (present.shrinks rest)
      · exact absent.shrinks (token :: rest)

def exactly (kind : TokenKind) (expected : List String) :
    TokenReader (Option Unit) :=
  next (fun found => if found = kind then some () else none) expected

end TokenReader

end Stencil
