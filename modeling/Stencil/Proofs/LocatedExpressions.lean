import Stencil.Proofs.Coverage
import Stencil.Proofs.FaithfulParse
import Stencil.Proofs.Subexpressions

/-!
# Where expressions stand

Every expression of a program that was read without a report begins in the text of the
template at the start of its span: a path with its sigil and its root, a call with its
sigil and the name of its macro.
-/

namespace Stencil

/-- Each of some expressions is spelled by tokens that follow each other. -/
def SpelledWithin (expressions : List Expression) (tokens : List Token) : Prop :=
  ∀ expression ∈ expressions, ∃ own, own <:+: tokens ∧ expression.SpelledBy own

namespace SpelledWithin

variable {expressions others : List Expression} {tokens further : List Token}

theorem nil : SpelledWithin [] tokens :=
  fun _ member => nomatch member

theorem mono (within : SpelledWithin expressions tokens) (inside : tokens <:+: further) :
    SpelledWithin expressions further := by
  intro expression member
  obtain ⟨own, ownInside, spelled⟩ := within expression member
  exact ⟨own, ownInside.trans inside, spelled⟩

theorem union (first : SpelledWithin expressions tokens)
    (second : SpelledWithin others tokens) :
    SpelledWithin (expressions ++ others) tokens :=
  fun expression member => (List.mem_append.mp member).elim (first expression)
    (second expression)

theorem append (first : SpelledWithin expressions tokens)
    (second : SpelledWithin others further) :
    SpelledWithin (expressions ++ others) (tokens ++ further) :=
  (first.mono (List.prefix_append _ _).isInfix).union
    (second.mono (List.suffix_append _ _).isInfix)

theorem self {expression : Expression} (spelled : expression.SpelledBy tokens)
    (within : SpelledWithin expressions tokens) :
    SpelledWithin (expression :: expressions) tokens :=
  List.forall_mem_cons.mpr ⟨⟨tokens, List.infix_refl tokens, spelled⟩, within⟩

end SpelledWithin

mutual

theorem Expression.SpelledBy.within : ∀ {expression : Expression} {tokens : List Token},
    expression.SpelledBy tokens → SpelledWithin expression.parts tokens
  | .path path span, tokens => fun spelled => .self spelled .nil
  | .literal value span, tokens => fun spelled => .self spelled .nil
  | .call name arguments span, tokens => by
      intro spelled
      refine .self spelled ?_
      obtain ⟨nameSpan, openSpan, inside, closeSpan, rfl, -, further⟩ := spelled
      exact further.within.mono
        ⟨[⟨.macroName name, nameSpan⟩, ⟨.leftParen, openSpan⟩], _, rfl⟩

theorem ArgumentsSpelledBy.within : ∀ {arguments : List Expression}
    {tokens : List Token}, ArgumentsSpelledBy arguments tokens →
      SpelledWithin (argumentParts arguments) tokens
  | [], tokens => fun _ => .nil
  | argument :: arguments, tokens => by
      rintro ⟨own, others, rfl, first, further⟩
      exact first.within.append further.within

theorem FurtherArgumentsSpelledBy.within : ∀ {arguments : List Expression}
    {tokens : List Token}, FurtherArgumentsSpelledBy arguments tokens →
      SpelledWithin (argumentParts arguments) tokens
  | [], tokens => fun _ => .nil
  | argument :: arguments, tokens => by
      rintro ⟨commaSpan, own, others, rfl, first, further⟩
      exact (first.within.append further.within).mono (List.suffix_cons _ _).isInfix

end

mutual

theorem Node.SpelledBy.within : ∀ {node : Node} {tokens : List Token},
    node.SpelledBy tokens → SpelledWithin node.expressions tokens
  | .text content span, tokens => fun _ => .nil
  | .output expression, tokens => fun spelled => spelled.2.within
  | .conditional branches otherwise span, tokens => by
      rintro ⟨openSpan, chain, last, closeSpan, rfl, -, -, guarded, further⟩
      have both := guarded.within.append further.within
      exact both.mono ⟨[], [⟨Keyword.endBlock.kind, closeSpan⟩], by simp⟩
  | .loop key item iterable body span, tokens => by
      rintro ⟨openSpan, parenSpan, names, wordSpan, expression, closeSpan, inside, endSpan,
        rfl, -, -, header, further⟩
      refine (header.within.mono ?_).union (further.within.mono ?_)
      · exact ⟨⟨Keyword.forBlock.kind, openSpan⟩ :: ⟨.leftParen, parenSpan⟩ ::
          (names ++ [⟨.name loopWord, wordSpan⟩]), _, by simp; rfl⟩
      · exact ⟨⟨Keyword.forBlock.kind, openSpan⟩ :: ⟨.leftParen, parenSpan⟩ ::
          (names ++ ⟨.name loopWord, wordSpan⟩ :: (expression ++ [⟨.rightParen, closeSpan⟩])),
          [⟨Keyword.endBlock.kind, endSpan⟩], by simp⟩
  | .binding name value span, tokens => by
      rintro ⟨openSpan, parenSpan, nameSpan, assignSpan, expression, closeSpan, rfl, -, -,
        header⟩
      exact header.within.mono ⟨[⟨Keyword.letBinding.kind, openSpan⟩,
        ⟨.leftParen, parenSpan⟩, ⟨.name name, nameSpan⟩, ⟨.assign, assignSpan⟩],
        [⟨.rightParen, closeSpan⟩], by simp⟩

theorem BranchesSpelledBy.within : ∀ {keyword : Keyword} {branches : List Branch}
    {tokens : List Token}, BranchesSpelledBy keyword branches tokens →
      SpelledWithin (branchExpressions branches) tokens
  | keyword, [], tokens => fun _ => .nil
  | keyword, branch :: branches, tokens => by
      rintro ⟨span, own, others, rfl, first, further⟩
      exact (first.within.append further.within).mono (List.suffix_cons _ _).isInfix

theorem Branch.SpelledBy.within : ∀ {branch : Branch} {tokens : List Token},
    branch.SpelledBy tokens → SpelledWithin branch.expressions tokens
  | .mk condition body, tokens => by
      rintro ⟨openSpan, expression, closeSpan, inside, rfl, header, further⟩
      refine (header.within.mono ?_).union (further.within.mono ?_)
      · exact ⟨[⟨.leftParen, openSpan⟩], _, rfl⟩
      · exact ⟨⟨.leftParen, openSpan⟩ :: (expression ++ [⟨.rightParen, closeSpan⟩]), [],
          by simp⟩

theorem OtherwiseSpelledBy.within : ∀ {otherwise : Option (List Node)}
    {tokens : List Token}, OtherwiseSpelledBy otherwise tokens →
      SpelledWithin (otherwiseExpressions otherwise) tokens
  | none, tokens => fun _ => .nil
  | some body, tokens => by
      rintro ⟨span, inside, rfl, further⟩
      exact further.within.mono (List.suffix_cons _ _).isInfix

/-- All expressions of a body are spelled among its tokens. -/
theorem BodySpelledBy.within : ∀ {nodes : List Node} {tokens : List Token},
    BodySpelledBy nodes tokens → SpelledWithin (bodyExpressions nodes) tokens
  | [], tokens => fun _ => .nil
  | node :: nodes, tokens => by
      rintro ⟨own, others, rfl, first, further⟩
      exact first.within.append further.within

end

/-- The characters with which an expression always begins; those of a constant are not
told here. -/
def Expression.opening : Expression → List Char
  | .path ⟨root, _⟩ _ => '$' :: root.toList
  | .call name _ _ => '@' :: name.toList
  | .literal _ _ => []

/-- An expression begins in a text at the start of its span. -/
def Expression.BeginsIn (expression : Expression) (text : List Char) : Prop :=
  ∃ before after, text = before ++ after ∧ byteLength before = expression.span.start ∧
    expression.opening <+: after

section Located

variable {trim : Bool} {before : List Token} {offset : Nat} {characters : List Char}

/-- The text at the front of which some of its tokens stand. -/
theorem Covered.split {first second : List Token}
    (covered : Covered trim before offset characters (first ++ second)) :
    ∃ front rest, characters = front ++ rest ∧
      Covered trim (before ++ first) (offset + byteLength front) rest second := by
  induction first generalizing before offset characters with
  | nil => exact ⟨[], characters, rfl, by simpa using covered⟩
  | cons token first ih =>
      cases covered with
      | @cons _ _ _ _ start gap slice rest _ begins _ _ further =>
          obtain ⟨front, last, rfl, reached⟩ := ih further
          refine ⟨gap ++ slice ++ front, last, by simp, ?_⟩
          have bytes : start + byteLength slice + byteLength front =
              offset + byteLength (gap ++ slice ++ front) := by
            simp only [byteLength_append]
            omega
          rw [bytes] at reached
          simpa using reached

/-- A token stands in the text at the start of its span, after a gap. -/
theorem Covered.head {token : Token} {tokens : List Token}
    (covered : Covered trim before offset characters (token :: tokens)) :
    ∃ gap slice rest, characters = gap ++ (slice ++ rest) ∧
      token.span.start = offset + byteLength gap ∧ token.kind.WrittenAs slice ∧
        Gap trim before (token :: tokens) gap ∧
          Covered trim (before ++ [token]) token.span.stop rest tokens := by
  cases covered with
  | @cons _ _ _ _ start gap slice rest allowed begins span written further =>
      refine ⟨gap, slice, rest, rfl, ?_, written, allowed, ?_⟩
      · rw [span, begins]
      · rwa [span]

/-- Nothing stands between the sigil of a path and the name after it. -/
theorem Gap.eq_nil_of_dollar {span : Span} {after : List Token} {gap : List Char}
    (allowed : Gap trim (before ++ [⟨.dollar, span⟩]) after gap) : gap = [] := by
  cases allowed with
  | empty => rfl
  | header inHeader _ => exact absurd rfl (inHeader.unsplit before span)
  | padding split _ _ _ _ =>
      have last := (List.append_inj' split rfl).2
      cases last
  | @lineBreak earlier header word wordSpan _ _ _ split _ group _ _ =>
      rcases group with rfl | ⟨openSpan, inside, closeSpan, rfl, -⟩
      · have last := (List.append_inj' split rfl).2
        cases last
      · have whole : earlier ++ ⟨.directive word, wordSpan⟩ :: ⟨.leftParen, openSpan⟩ ::
            (inside ++ [⟨.rightParen, closeSpan⟩]) =
            (earlier ++ ⟨.directive word, wordSpan⟩ :: ⟨.leftParen, openSpan⟩ :: inside) ++
              [⟨.rightParen, closeSpan⟩] := by simp
        rw [whole] at split
        have last := (List.append_inj' split rfl).2
        cases last

theorem Expression.SpelledBy.opening {expression : Expression} {own tail : List Token}
    (spelled : expression.SpelledBy own)
    (covered : Covered trim before offset characters (own ++ tail)) :
    ∃ gap rest, characters = gap ++ rest ∧
      expression.span.start = offset + byteLength gap ∧ expression.opening <+: rest := by
  cases expression with
  | path path span =>
      obtain ⟨sigilSpan, nameSpan, steps, rfl, start, -⟩ := spelled
      obtain ⟨gap, _, _, rfl, place, rfl, -, further⟩ := covered.head
      obtain ⟨none, _, rest, rfl, -, rfl, allowed, -⟩ := further.head
      obtain rfl := allowed.eq_nil_of_dollar
      exact ⟨gap, _, rfl, start.symm.trans place, rest, by simp [Expression.opening]⟩
  | call name arguments span =>
      obtain ⟨nameSpan, openSpan, inside, closeSpan, rfl, rfl, -⟩ := spelled
      obtain ⟨gap, _, rest, rfl, place, rfl, -, -⟩ := covered.head
      exact ⟨gap, _, rfl, place, rest, rfl⟩
  | literal value span =>
      obtain rfl := spelled
      obtain ⟨gap, _, _, rfl, place, -, -, -⟩ := covered.head
      exact ⟨gap, _, rfl, place, List.nil_prefix⟩

end Located

/-- In a template that is read without a report, every expression begins at the start of
its span. -/
theorem parseTemplate_beginsIn {settings : Settings} {text : String}
    (clean : (parseTemplate settings text).diagnostics = [])
    {expression : Expression}
    (member : expression ∈ (parseTemplate settings text).program.expressions) :
    expression.BeginsIn text.toList := by
  obtain ⟨tokens, span, split, spelled⟩ := parseTemplate_spelled clean
  obtain ⟨scanClean, -⟩ := List.append_eq_nil_iff.mp (templateReports_eq_nil.mpr clean)
  have covered := tokenize_covered scanClean
  obtain ⟨own, ⟨earlier, later, isInfix⟩, ownSpelled⟩ := spelled.within expression member
  rw [split, ← isInfix, List.append_assoc, List.append_assoc] at covered
  obtain ⟨front, rest, isText, fromOwn⟩ := covered.split
  obtain ⟨gap, after, rfl, place, opening⟩ := ownSpelled.opening fromOwn
  refine ⟨front ++ gap, after, by rw [isText, List.append_assoc], ?_, opening⟩
  rw [place, byteLength_append, Nat.zero_add]

end Stencil
