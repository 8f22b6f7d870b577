import Stencil.Program.Expression

/-!
# Reading the headers of directives

A header stands in parentheses after its directive.  Whatever is wrong inside
it, reading goes on after the parenthesis that closes it.
-/

namespace Stencil

/-- The content of a header and the offset at which its parentheses close. -/
structure Header (α : Type) where
  content : α
  stop : Nat
  deriving Repr, Inhabited

/-- The names of a loop and what it runs over. -/
structure LoopHeader where
  key : Option String
  item : String
  iterable : Expression
  deriving Repr, Inhabited

/-- A name and the expression to which it is bound. -/
structure BindingHeader where
  name : String
  value : Expression
  deriving Repr, Inhabited

/-- The word between the names of a loop and what it runs over.  It is not a
variable name. -/
def loopWord : String := "in"

def nameReader (expected : String) : TokenReader (Option String) :=
  .next
    (fun kind =>
      match kind with
      | .name name => if name = loopWord then none else some name
      | _ => none)
    [expected]

/-- Read the word before what a loop runs over, and that expression. -/
def iterableReader (expression : TokenReader (Option Expression))
    (expected : List String) : TokenReader (Option Expression) :=
  (TokenReader.exactly (.name loopWord) expected).andThen fun _ => expression

/-- Read the inside of the header of a loop: one name, or two with a comma, and
what the loop runs over. -/
def loopHeaderReader (expression : TokenReader (Option Expression)) :
    TokenReader (Option LoopHeader) :=
  (nameReader "a loop variable name").andThen fun first =>
    .ifNext .comma
      ((nameReader "a loop variable name").andThen fun second =>
        (iterableReader expression ["'in'"]).map (LoopHeader.mk (some first) second))
      ((iterableReader expression ["','", "'in'"]).map (LoopHeader.mk none first))

def bindingHeaderReader (expression : TokenReader (Option Expression)) :
    TokenReader (Option BindingHeader) :=
  (nameReader "a variable name").andThen fun name =>
    (TokenReader.exactly .assign ["'='"]).andThen fun _ =>
      expression.map (BindingHeader.mk name)

def readHeader {α : Type} (directive : Token) (inside : TokenReader (Option α))
    (tokens : List Token) : Reading (Option (Header α)) :=
  match tokens with
  | ⟨.leftParen, _⟩ :: group =>
      let reading := inside.read group
      match reading.value, reading.rest with
      | none, _ => .failed reading.reports (closeGroup 0 group)
      | some content, ⟨.rightParen, span⟩ :: rest =>
          ⟨some ⟨content, span.stop⟩, reading.reports, rest⟩
      | some _, rest =>
          .failed (reading.reports ++ unexpectedNext ["')'"] rest)
            (closeGroup 0 group)
  | _ =>
      let found := directive.kind.description ++ " without a header"
      .failed [⟨.unexpected found ["'(' after the directive"], directive.span⟩]
        tokens

theorem length_readHeader_le {α : Type} (directive : Token)
    (inside : TokenReader (Option α)) (tokens : List Token) :
    (readHeader directive inside tokens).rest.length ≤ tokens.length := by
  unfold readHeader
  split
  · rename_i group
    have groupShrinks := length_closeGroup_le 0 group
    have insideShrinks := inside.shrinks group
    dsimp only
    split
    · exact Nat.le_succ_of_le groupShrinks
    · rename_i rest _ insideRest
      rw [insideRest, List.length_cons] at insideShrinks
      simp only [List.length_cons]
      omega
    · exact Nat.le_succ_of_le groupShrinks
  · exact Nat.le_refl _

def headerReader {α : Type} (directive : Token) (inside : TokenReader (Option α)) :
    TokenReader (Option (Header α)) where
  read := readHeader directive inside
  shrinks := length_readHeader_le directive inside

end Stencil
