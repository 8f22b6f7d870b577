import Stencil.Proofs.Spelling

/-!
# Groups that close

What readers may rely on in tokens that were made without a report: every opening
parenthesis is closed later on, and a name follows every sigil of a path.
-/

namespace Stencil

/-- Whether the innermost open group is closed, when `depth` further ones are
open. -/
def groupCloses (depth : Nat) : List Token → Bool
  | [] => false
  | token :: rest =>
      match token.kind with
      | .endOfInput => false
      | .leftParen => groupCloses (depth + 1) rest
      | .rightParen =>
          match depth with
          | 0 => true
          | depth + 1 => groupCloses depth rest
      | _ => groupCloses depth rest

/-- Whether a kind of token can stand in a header, apart from parentheses. -/
def TokenKind.isInner : TokenKind → Bool
  | .leftParen | .rightParen | .text _ | .endOfInput => false
  | _ => true

/-- What is true of tokens that were made without a report. -/
structure WellLexed (tokens : List Token) : Prop where
  groups : ∀ before span group,
    tokens = before ++ ⟨.leftParen, span⟩ :: group → groupCloses 0 group
  sigils : ∀ before span rest, tokens = before ++ ⟨.dollar, span⟩ :: rest →
    ∃ name, nextKind rest = .name name

theorem WellLexed.of_append {first second : List Token}
    (lexed : WellLexed (first ++ second)) : WellLexed second where
  groups before span group split :=
    lexed.groups (first ++ before) span group (by rw [split, List.append_assoc])
  sigils before span rest split :=
    lexed.sigils (first ++ before) span rest (by rw [split, List.append_assoc])

theorem WellLexed.of_cons {token : Token} {tokens : List Token}
    (lexed : WellLexed (token :: tokens)) : WellLexed tokens :=
  .of_append (show WellLexed ([token] ++ tokens) from lexed)

theorem groupCloses_of_isInner {token : Token} (inner : token.kind.isInner)
    (depth : Nat) (rest : List Token) :
    groupCloses depth (token :: rest) = groupCloses depth rest := by
  rcases token with ⟨kind, span⟩
  cases kind <;> first | rfl | simp [TokenKind.isInner] at inner

theorem closeGroup_of_isInner {token : Token} (inner : token.kind.isInner) (depth : Nat)
    (rest : List Token) : closeGroup depth (token :: rest) = closeGroup depth rest := by
  rcases token with ⟨kind, span⟩
  cases kind <;> first | rfl | simp [TokenKind.isInner] at inner

theorem Literal.isInner_of_ofKind? {kind : TokenKind} {literal : Literal}
    (constant : Literal.ofKind? kind = some literal) : kind.isInner := by
  cases kind <;> first | rfl | cases constant

theorem groupCloses_append {depth : Nat} {tokens : List Token}
    (closes : groupCloses depth tokens) (tail : List Token) :
    groupCloses depth (tokens ++ tail) := by
  fun_induction groupCloses depth tokens <;> simp_all [groupCloses]

theorem nextKind_ne_of_groupCloses {depth : Nat} {tokens : List Token}
    (closes : groupCloses depth tokens) : nextKind tokens ≠ .endOfInput := by
  intro ended
  cases tokens with
  | nil => simp [groupCloses] at closes
  | cons token rest =>
      simp only [nextKind] at ended
      simp [groupCloses, ended] at closes

theorem unexpectedNext_ne_nil {tokens : List Token}
    (proper : nextKind tokens ≠ .endOfInput) (expected : List String) :
    unexpectedNext expected tokens ≠ [] := by
  cases tokens with
  | nil => exact absurd rfl proper
  | cons token rest =>
      have : token.kind ≠ .endOfInput := proper
      simp [unexpectedNext, this]

theorem StepsSpelledBy.groupCloses {start stop : Nat} {segments : List PathSegment}
    {tokens : List Token} (spelled : StepsSpelledBy start stop segments tokens)
    (depth : Nat) (rest : List Token) :
    groupCloses depth (tokens ++ rest) = groupCloses depth rest := by
  induction segments generalizing start tokens with
  | nil =>
      obtain ⟨rfl, -⟩ := spelled
      rfl
  | cons segment segments ih =>
      cases segment with
      | field name =>
          obtain ⟨dotSpan, span, others, rfl, -, further⟩ := spelled
          have inner := ih further
          simpa [Stencil.groupCloses] using inner
      | index position =>
          obtain ⟨openSpan, number, numberSpan, span, others, rfl, -, -, further⟩ :=
            spelled
          have inner := ih further
          simpa [Stencil.groupCloses] using inner

mutual

theorem Expression.SpelledBy.groupCloses : ∀ {expression : Expression}
    {tokens : List Token}, expression.SpelledBy tokens →
      ∀ (depth : Nat) (rest : List Token),
        groupCloses depth (tokens ++ rest) = groupCloses depth rest
  | .path path span, tokens => by
      intro spelled depth rest
      obtain ⟨sigilSpan, nameSpan, steps, rfl, -, further⟩ := spelled
      exact further.groupCloses depth rest
  | .literal value span, tokens => by
      rintro rfl depth rest
      cases value <;> rfl
  | .call name arguments span, tokens => by
      intro spelled depth rest
      obtain ⟨nameSpan, openSpan, inside, closeSpan, rfl, -, further⟩ := spelled
      have inner := further.groupCloses (depth + 1) (⟨.rightParen, closeSpan⟩ :: rest)
      simpa [Stencil.groupCloses] using inner

theorem ArgumentsSpelledBy.groupCloses : ∀ {arguments : List Expression}
    {tokens : List Token}, ArgumentsSpelledBy arguments tokens →
      ∀ (depth : Nat) (rest : List Token),
        groupCloses depth (tokens ++ rest) = groupCloses depth rest
  | [], tokens => by
      rintro rfl depth rest
      rfl
  | argument :: arguments, tokens => by
      intro spelled depth rest
      obtain ⟨own, others, rfl, first, further⟩ := spelled
      rw [List.append_assoc, first.groupCloses, further.groupCloses]

theorem FurtherArgumentsSpelledBy.groupCloses : ∀ {arguments : List Expression}
    {tokens : List Token}, FurtherArgumentsSpelledBy arguments tokens →
      ∀ (depth : Nat) (rest : List Token),
        groupCloses depth (tokens ++ rest) = groupCloses depth rest
  | [], tokens => by
      rintro rfl depth rest
      rfl
  | argument :: arguments, tokens => by
      intro spelled depth rest
      obtain ⟨commaSpan, own, others, rfl, first, further⟩ := spelled
      rw [List.cons_append, groupCloses_of_isInner rfl, List.append_assoc,
        first.groupCloses, further.groupCloses]

end

end Stencil
