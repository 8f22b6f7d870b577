import Stencil.Proofs.ReadingSteps
import Stencil.Proofs.Spelling
import Stencil.Proofs.Nesting

/-!
# Reading back what is spelled

Tokens that spell a tree are read as that tree, without a report, if the levels
suffice for its nesting.  What comes after them is left, unless it would go on
with a path.
-/

namespace Stencil

/-- Tokens that do not go on with a path that comes before them. -/
def PathEnds (tokens : List Token) : Prop :=
  nextKind tokens ≠ .dot ∧ nextKind tokens ≠ .leftBracket

/-- A reader gives back a value that tokens spell, and leaves what follows. -/
def TokenReader.ReadsBack {α : Type} (reader : TokenReader (Option α)) (value : α)
    (tokens : List Token) : Prop :=
  ∀ tail, PathEnds tail → reader.read (tokens ++ tail) = ⟨some value, [], tail⟩

@[simp]
theorem Reading.precededBy_nil {α : Type} (reading : Reading α) :
    reading.precededBy [] = reading :=
  rfl

theorem readPathTail_of_pathEnds (stop : Nat) {tail : List Token}
    (ends : PathEnds tail) : readPathTail stop tail = ⟨[], stop, tail⟩ := by
  obtain ⟨noDot, noBracket⟩ := ends
  rcases tail with _ | ⟨⟨kind, span⟩, rest⟩
  · rfl
  · cases kind <;> first | rfl | simp [nextKind] at noDot noBracket

theorem StepsSpelledBy.readBack {start stop : Nat} {segments : List PathSegment}
    {tokens : List Token} (spelled : StepsSpelledBy start stop segments tokens)
    {tail : List Token} (ends : PathEnds tail) :
    readPathTail start (tokens ++ tail) = ⟨segments, stop, tail⟩ := by
  induction segments generalizing start tokens with
  | nil =>
      obtain ⟨rfl, rfl⟩ := spelled
      exact readPathTail_of_pathEnds start ends
  | cons segment segments ih =>
      cases segment with
      | field name =>
          obtain ⟨dotSpan, span, others, rfl, rfl, further⟩ := spelled
          simp [readPathTail, ih further, PathTail.prepend]
      | index position =>
          obtain ⟨openSpan, number, numberSpan, span, others, rfl, rfl, same, further⟩ :=
            spelled
          simp [readPathTail, same, ih further, PathTail.prepend]

section Arguments

variable {argument : TokenReader (Option Expression)}

theorem readArguments_last {first : Expression} {own : List Token}
    (readsFirst : argument.ReadsBack first own) (closeSpan : Span)
    (tail : List Token) :
    readArguments argument (own ++ ⟨.rightParen, closeSpan⟩ :: tail) =
      ⟨some ⟨[first], closeSpan.stop⟩, [], tail⟩ := by
  rw [readArguments_eq, readsFirst _ ⟨by simp [nextKind], by simp [nextKind]⟩]
  simp

theorem readArguments_comma {first : Expression} {own : List Token}
    (readsFirst : argument.ReadsBack first own) (commaSpan : Span)
    (tail : List Token) :
    readArguments argument (own ++ ⟨.comma, commaSpan⟩ :: tail) =
      (readArguments argument tail).map (Option.map (ArgumentList.prepend first)) := by
  rw [readArguments_eq, readsFirst _ ⟨by simp [nextKind], by simp [nextKind]⟩]
  simp

theorem readArgumentList_of_ne {tokens : List Token}
    (other : nextKind tokens ≠ .rightParen) :
    readArgumentList argument tokens = readArguments argument tokens := by
  rcases tokens with _ | ⟨⟨kind, span⟩, rest⟩
  · rfl
  · cases kind <;> first | rfl | exact absurd rfl other

end Arguments

theorem Expression.SpelledBy.nextKind_ne_rightParen {expression : Expression}
    {tokens : List Token} (spelled : expression.SpelledBy tokens)
    (tail : List Token) : nextKind (tokens ++ tail) ≠ .rightParen := by
  cases expression with
  | path path span =>
      obtain ⟨sigilSpan, nameSpan, steps, rfl, -⟩ := spelled
      simp [nextKind]
  | literal value span =>
      obtain rfl := spelled
      cases value <;> simp [nextKind, Literal.kind]
  | call name arguments span =>
      obtain ⟨nameSpan, openSpan, inside, closeSpan, rfl, -⟩ := spelled
      simp [nextKind]

mutual

/-- An expression is read back from the tokens that spell it. -/
theorem Expression.readBack (limit : Nat) : ∀ (expression : Expression)
    {tokens : List Token}, expression.SpelledBy tokens →
      ∀ {levels : Nat}, expression.nesting ≤ levels →
        (expressionReader limit levels).ReadsBack expression tokens
  | .path path span, tokens => by
      intro spelled levels _ tail ends
      obtain ⟨sigilSpan, nameSpan, steps, rfl, same, further⟩ := spelled
      have steps := further.readBack ends
      cases levels <;>
        simp [expressionReader, readExpression, readPath, steps, same]
  | .literal value span, tokens => by
      rintro rfl levels _ tail _
      cases levels <;> cases value <;> rfl
  | .call name arguments span, tokens => by
      intro spelled levels within tail ends
      obtain ⟨nameSpan, openSpan, inside, closeSpan, rfl, rfl, further⟩ := spelled
      obtain ⟨inner, rfl⟩ : ∃ inner, levels = inner + 1 :=
        ⟨levels - 1, by simp only [Expression.nesting] at within; omega⟩
      have list : readArgumentList (expressionReader limit inner)
          (inside ++ ⟨.rightParen, closeSpan⟩ :: tail) =
            ⟨some ⟨arguments, closeSpan.stop⟩, [], tail⟩ :=
        readBack_arguments limit arguments further (Nat.le_of_succ_le_succ within)
          closeSpan tail
      simp [expressionReader, readExpression, readCall, list, Reading.map]

theorem readBack_arguments (limit : Nat) : ∀ (arguments : List Expression)
    {tokens : List Token}, ArgumentsSpelledBy arguments tokens →
      ∀ {levels : Nat}, argumentsNesting arguments ≤ levels →
        ∀ (closeSpan : Span) (tail : List Token),
          readArgumentList (expressionReader limit levels)
            (tokens ++ ⟨.rightParen, closeSpan⟩ :: tail) =
              ⟨some ⟨arguments, closeSpan.stop⟩, [], tail⟩
  | [], tokens => by
      rintro rfl levels _ closeSpan tail
      rfl
  | argument :: arguments, tokens => by
      intro spelled levels within closeSpan tail
      obtain ⟨own, others, rfl, first, further⟩ := spelled
      obtain ⟨firstWithin, othersWithin⟩ := Nat.max_le.mp within
      have readsFirst := argument.readBack limit first firstWithin
      have list := readBack_furtherArguments limit arguments further othersWithin
        readsFirst closeSpan tail
      rw [List.append_assoc,
        readArgumentList_of_ne (first.nextKind_ne_rightParen _), list]

theorem readBack_furtherArguments (limit : Nat) : ∀ (arguments : List Expression)
    {tokens : List Token}, FurtherArgumentsSpelledBy arguments tokens →
      ∀ {levels : Nat}, argumentsNesting arguments ≤ levels →
        ∀ {first : Expression} {own : List Token},
          (expressionReader limit levels).ReadsBack first own →
          ∀ (closeSpan : Span) (tail : List Token),
            readArguments (expressionReader limit levels)
              (own ++ (tokens ++ ⟨.rightParen, closeSpan⟩ :: tail)) =
                ⟨some ⟨first :: arguments, closeSpan.stop⟩, [], tail⟩
  | [], tokens => by
      rintro rfl levels _ first own readsFirst closeSpan tail
      exact readArguments_last readsFirst closeSpan tail
  | argument :: arguments, tokens => by
      intro spelled levels within first own readsFirst closeSpan tail
      obtain ⟨commaSpan, next, others, rfl, nextSpelled, further⟩ := spelled
      obtain ⟨nextWithin, othersWithin⟩ := Nat.max_le.mp within
      have list := readBack_furtherArguments limit arguments further othersWithin
        (argument.readBack limit nextSpelled nextWithin) closeSpan tail
      rw [List.cons_append, readArguments_comma readsFirst, List.append_assoc, list]
      rfl

end

theorem readHeader_back {α : Type} {inside : TokenReader (Option α)} {content : α}
    (directive : Token) (openSpan : Span) (own : List Token) (closeSpan : Span)
    (tail : List Token)
    (reads : inside.read (own ++ ⟨.rightParen, closeSpan⟩ :: tail) =
      ⟨some content, [], ⟨.rightParen, closeSpan⟩ :: tail⟩) :
    readHeader directive inside
      (⟨.leftParen, openSpan⟩ :: (own ++ ⟨.rightParen, closeSpan⟩ :: tail)) =
        ⟨some ⟨content, closeSpan.stop⟩, [], tail⟩ := by
  rw [readHeader_of_group, reads]
  simp

theorem pathEnds_rightParen (span : Span) (tail : List Token) :
    PathEnds (⟨.rightParen, span⟩ :: tail) :=
  ⟨by simp [nextKind], by simp [nextKind]⟩

theorem loopHeaderReader_back {expression : TokenReader (Option Expression)}
    {key : Option String} {item : String} {iterable : Expression}
    {names inside tail : List Token} (wordSpan : Span)
    (named : LoopNamesSpelledBy key item names)
    (reads : expression.read (inside ++ tail) = ⟨some iterable, [], tail⟩) :
    (loopHeaderReader expression).read
      (names ++ ⟨.name loopWord, wordSpan⟩ :: (inside ++ tail)) =
        ⟨some ⟨key, item, iterable⟩, [], tail⟩ := by
  cases key with
  | none =>
      obtain ⟨span, rfl, proper⟩ := named
      simp [loopHeaderReader, nameReader, iterableReader, TokenReader.andThen,
        TokenReader.next, TokenReader.ifNext, TokenReader.map, TokenReader.exactly,
        Reading.map, proper, reads]
  | some key =>
      obtain ⟨keySpan, commaSpan, span, rfl, keyProper, itemProper⟩ := named
      simp [loopHeaderReader, nameReader, iterableReader, TokenReader.andThen,
        TokenReader.next, TokenReader.ifNext, TokenReader.map, TokenReader.exactly,
        Reading.map, keyProper, itemProper, reads]

theorem bindingHeaderReader_back {expression : TokenReader (Option Expression)}
    {name : String} {value : Expression} {inside tail : List Token}
    (nameSpan assignSpan : Span) (proper : name ≠ loopWord)
    (reads : expression.read (inside ++ tail) = ⟨some value, [], tail⟩) :
    (bindingHeaderReader expression).read
      (⟨.name name, nameSpan⟩ :: ⟨.assign, assignSpan⟩ :: (inside ++ tail)) =
        ⟨some ⟨name, value⟩, [], tail⟩ := by
  simp [bindingHeaderReader, nameReader, TokenReader.andThen, TokenReader.next,
    TokenReader.map, TokenReader.exactly, Reading.map, proper, reads]

theorem Node.SpelledBy.pathEnds {node : Node} {tokens : List Token}
    (spelled : node.SpelledBy tokens) (tail : List Token) :
    PathEnds (tokens ++ tail) := by
  have first : ∃ token rest, tokens = token :: rest ∧ token.kind ≠ .dot ∧
      token.kind ≠ .leftBracket := by
    cases node with
    | text content span =>
        obtain rfl := spelled
        exact ⟨_, _, rfl, by simp, by simp⟩
    | output expression =>
        obtain ⟨inText, spelled⟩ := spelled
        cases expression with
        | path path span =>
            obtain ⟨sigilSpan, nameSpan, steps, rfl, -⟩ := spelled
            exact ⟨_, _, rfl, by simp, by simp⟩
        | literal value span => simp [Expression.standsInText] at inText
        | call name arguments span =>
            obtain ⟨nameSpan, openSpan, inside, closeSpan, rfl, -⟩ := spelled
            exact ⟨_, _, rfl, by simp, by simp⟩
    | conditional branches otherwise span =>
        obtain ⟨openSpan, chain, last, closeSpan, rfl, -⟩ := spelled
        exact ⟨_, _, rfl, by simp [Keyword.kind], by simp [Keyword.kind]⟩
    | loop key item iterable body span =>
        obtain ⟨openSpan, parenSpan, names, wordSpan, expression, closeSpan, inside,
          endSpan, rfl, -⟩ := spelled
        exact ⟨_, _, rfl, by simp [Keyword.kind], by simp [Keyword.kind]⟩
    | binding name value span =>
        obtain ⟨openSpan, parenSpan, nameSpan, assignSpan, expression, closeSpan, rfl,
          -⟩ := spelled
        exact ⟨_, _, rfl, by simp [Keyword.kind], by simp [Keyword.kind]⟩
  obtain ⟨token, rest, rfl, ends⟩ := first
  exact ends

theorem BodySpelledBy.pathEnds {nodes : List Node} {tokens : List Token}
    (spelled : BodySpelledBy nodes tokens) {tail : List Token} (ends : PathEnds tail) :
    PathEnds (tokens ++ tail) := by
  cases nodes with
  | nil =>
      obtain rfl := spelled
      exact ends
  | cons node nodes =>
      obtain ⟨own, others, rfl, first, -⟩ := spelled
      rw [List.append_assoc]
      exact first.pathEnds _

end Stencil
