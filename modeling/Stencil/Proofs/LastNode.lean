import Stencil.Proofs.HeadersFollow
import Stencil.Proofs.Seam

/-!
# The node before the last literal text

Where a program ends with literal text, the tokens tell which node stands before it.
So what more text could complete is said about the program itself: a path that goes
on, or a line break after a block or a binding that is trimmed.
-/

namespace Stencil

/-- Whether a line break after a node is trimmed, if line breaks are. -/
def Node.trimsAfter : Node → Bool
  | .conditional _ _ _ | .loop _ _ _ _ _ | .binding _ _ _ => true
  | _ => false

/-- More text completes what literal text begins that stands after a node: a step of
the path, or a line break that is trimmed. -/
inductive Completes (trim : Bool) (more : List Char) : Node → String → Span → Prop
  | step {path : VariablePath} {pathSpan : Span} {content : String} {span : Span} :
      (readPathPiece? (content.toList ++ more)).isSome →
        Completes trim more (.output (.path path pathSpan)) content span
  | lineBreak {node : Node} {span : Span} :
      trim → node.trimsAfter → node.span.stop = span.start →
        startsWith (· == '\n') more → Completes trim more node "\r" span

/-- More text does not complete what the last literal text of a program begins. -/
def Program.StandsApart (program : Program) (trim : Bool) (more : List Char) : Prop :=
  ∀ front node content span, program.nodes = front ++ [node, .text content span] →
    ¬Completes trim more node content span

/-- A program stands apart from more text if its last literal text goes on neither with
a step of a path nor with the rest of a line break. -/
theorem Program.standsApart_of_text {program : Program} {trim : Bool} {more : List Char}
    {earlier : List Node} {content : String} {span : Span}
    (nodes : program.nodes = earlier ++ [.text content span])
    (noStep : readPathPiece? (content.toList ++ more) = none)
    (noBreak : content = "\r" → startsWith (· == '\n') more = false) :
    program.StandsApart trim more := by
  intro front node other otherSpan split completes
  rw [nodes, List.append_cons front] at split
  obtain ⟨rfl, rfl⟩ : content = other ∧ span = otherSpan := by
    simpa using (List.append_inj' split rfl).2
  cases completes with
  | step read => simp [noStep] at read
  | lineBreak _ _ _ starts => simp [noBreak rfl] at starts

theorem last_eq_of_append {α : Type} {front others : List α} {last closing : α}
    (same : front ++ [last] = others ++ [closing]) : last = closing :=
  List.singleton_inj.mp (List.append_inj' same rfl).2

theorem StepsSpelledBy.last {start stop : Nat} {segments : List PathSegment}
    {tokens : List Token} (spelled : StepsSpelledBy start stop segments tokens) :
    tokens = [] ∧ start = stop ∨
      ∃ front last, tokens = front ++ [last] ∧ last.kind.endsPath ∧ last.span.stop = stop := by
  induction segments generalizing start tokens with
  | nil => exact .inl spelled
  | cons segment segments ih =>
      right
      cases segment with
      | field name =>
          obtain ⟨dotSpan, span, others, rfl, -, further⟩ := spelled
          rcases ih further with ⟨rfl, same⟩ | ⟨front, last, rfl, ends⟩
          · exact ⟨[_], _, rfl, rfl, same⟩
          · exact ⟨_ :: _ :: front, last, rfl, ends⟩
      | index position =>
          obtain ⟨openSpan, number, numberSpan, span, others, rfl, -, -, further⟩ :=
            spelled
          rcases ih further with ⟨rfl, same⟩ | ⟨front, last, rfl, ends⟩
          · exact ⟨[_, _], _, rfl, rfl, same⟩
          · exact ⟨_ :: _ :: _ :: front, last, rfl, ends⟩

/-- What the last token of a node is. -/
inductive EndsNode : Node → TokenKind → Prop
  | text (content : String) (span : Span) : EndsNode (.text content span) (.text content)
  | path (path : VariablePath) (span : Span) {kind : TokenKind} :
      kind.endsPath → EndsNode (.output (.path path span)) kind
  | call (name : String) (arguments : List Expression) (span : Span) :
      EndsNode (.output (.call name arguments span)) .rightParen
  | block {node : Node} {kind : TokenKind} : node.trimsAfter →
      kind = .rightParen ∨ kind = Keyword.endBlock.kind → EndsNode node kind

/-- A node ends where the last one of its tokens does. -/
theorem Node.SpelledBy.last {node : Node} {tokens : List Token}
    (spelled : node.SpelledBy tokens) :
    ∃ front last, tokens = front ++ [last] ∧ EndsNode node last.kind ∧
      last.span.stop = node.span.stop := by
  cases node with
  | text content span =>
      obtain rfl := spelled
      exact ⟨[], _, rfl, .text content span, rfl⟩
  | output expression =>
      obtain ⟨inText, spelled⟩ := spelled
      cases expression with
      | path path span =>
          obtain ⟨sigilSpan, nameSpan, steps, rfl, -, further⟩ := spelled
          rcases further.last with ⟨rfl, same⟩ | ⟨front, last, rfl, ends, stop⟩
          · exact ⟨[_], _, rfl, .path path span rfl, same⟩
          · exact ⟨_ :: _ :: front, last, rfl, .path path span ends, stop⟩
      | literal value span => simp [Expression.standsInText] at inText
      | call name arguments span =>
          obtain ⟨nameSpan, openSpan, inside, closeSpan, rfl, rfl, -⟩ := spelled
          exact ⟨_ :: _ :: inside, _, rfl, .call name arguments _, rfl⟩
  | conditional branches otherwise span =>
      obtain ⟨openSpan, chain, last, closeSpan, rfl, rfl, -⟩ := spelled
      exact ⟨⟨Keyword.ifBlock.kind, openSpan⟩ :: (chain ++ last),
        ⟨Keyword.endBlock.kind, closeSpan⟩, by simp, .block rfl (.inr rfl), rfl⟩
  | loop key item iterable body span =>
      obtain ⟨openSpan, parenSpan, names, wordSpan, expression, closeSpan, inside,
        endSpan, rfl, rfl, -⟩ := spelled
      exact ⟨⟨Keyword.forBlock.kind, openSpan⟩ :: ⟨.leftParen, parenSpan⟩ ::
        (names ++ ⟨.name loopWord, wordSpan⟩ ::
          (expression ++ ⟨.rightParen, closeSpan⟩ :: inside)),
        ⟨Keyword.endBlock.kind, endSpan⟩, by simp, .block rfl (.inr rfl), rfl⟩
  | binding name value span =>
      obtain ⟨openSpan, parenSpan, nameSpan, assignSpan, expression, closeSpan, rfl, rfl,
        -⟩ := spelled
      exact ⟨_ :: _ :: _ :: _ :: expression, _, rfl, .block rfl (.inl rfl), rfl⟩

theorem Node.SpelledBy.ne_nil {node : Node} {tokens : List Token}
    (spelled : node.SpelledBy tokens) : tokens ≠ [] := by
  obtain ⟨front, last, rfl, -⟩ := spelled.last
  simp

theorem BodySpelledBy.eq_nil {nodes : List Node} (spelled : BodySpelledBy nodes []) :
    nodes = [] := by
  cases nodes with
  | nil => rfl
  | cons node nodes =>
      obtain ⟨own, others, same, first, -⟩ := spelled
      exact absurd (List.append_eq_nil_iff.mp same.symm).1 first.ne_nil

/-- The last tokens of a body spell its last node. -/
theorem BodySpelledBy.last {nodes : List Node} {tokens : List Token}
    (spelled : BodySpelledBy nodes tokens) (nonempty : tokens ≠ []) :
    ∃ front node before own, nodes = front ++ [node] ∧ tokens = before ++ own ∧
      BodySpelledBy front before ∧ node.SpelledBy own := by
  induction nodes generalizing tokens with
  | nil => exact absurd spelled nonempty
  | cons node nodes ih =>
      obtain ⟨own, others, rfl, first, further⟩ := spelled
      by_cases ended : others = []
      · subst ended
        obtain rfl := further.eq_nil
        exact ⟨[], node, [], own, rfl, List.append_nil own, rfl, first⟩
      · obtain ⟨front, last, before, lastOwn, rfl, rfl, frontSpelled, lastSpelled⟩ :=
          ih further ended
        exact ⟨node :: front, last, own ++ before, lastOwn, rfl,
          (List.append_assoc ..).symm, ⟨own, before, rfl, first, frontSpelled⟩,
          lastSpelled⟩

/-- Literal text at the end of a body is its last node. -/
theorem BodySpelledBy.last_text {nodes : List Node} {front : List Token}
    {content : String} {span : Span}
    (spelled : BodySpelledBy nodes (front ++ [⟨.text content, span⟩])) :
    ∃ earlier, nodes = earlier ++ [.text content span] ∧ BodySpelledBy earlier front := by
  obtain ⟨earlier, node, before, own, rfl, split, earlierSpelled, ownSpelled⟩ :=
    spelled.last (by simp)
  obtain ⟨ownFront, last, rfl, ends, -⟩ := ownSpelled.last
  rw [← List.append_assoc] at split
  obtain rfl := last_eq_of_append split
  cases ends with
  | text _ textSpan =>
      obtain ⟨rfl, same⟩ : ownFront = [] ∧ span = textSpan := by
        cases ownFront with
        | nil => simpa [Node.SpelledBy] using ownSpelled
        | cons first others => simp [Node.SpelledBy] at ownSpelled
      obtain ⟨rfl, -⟩ := List.append_inj' split rfl
      exact ⟨earlier, by rw [same], by rwa [List.append_nil]⟩
  | path path pathSpan ends => simp [TokenKind.endsPath] at ends
  | block trims ends => rcases ends with ends | ends <;> simp [Keyword.kind] at ends

/-- No group is closed by the last token of an expression that began inside it. -/
theorem groupCloses_of_last_spelled {expression : Expression}
    {own : List Token} (spelled : expression.SpelledBy own) :
    ∀ (front : List Token) (depth : Nat) (inside : List Token) (last : Token),
      front ++ own = inside ++ [last] → own ≠ [] → groupCloses depth inside = false →
        groupCloses depth (inside ++ [last]) = false
  | [], depth, inside, last => by
      intro split _ _
      have balanced := spelled.groupCloses depth []
      rwa [List.append_nil, ← List.nil_append own, split] at balanced
  | token :: front, depth, inside, last => by
      intro split nonempty opened
      cases inside with
      | nil =>
          obtain ⟨-, nothing⟩ := List.cons.inj split
          exact absurd (List.append_eq_nil_iff.mp nothing).2 nonempty
      | cons first inside =>
          obtain ⟨rfl, rest⟩ := List.cons.inj split
          have further := fun depth =>
            groupCloses_of_last_spelled spelled front depth inside last rest nonempty
          rcases token with ⟨kind, span⟩
          cases kind with
          | endOfInput => rfl
          | leftParen => exact further (depth + 1) opened
          | rightParen =>
              cases depth with
              | zero => exact absurd opened (by simp [groupCloses])
              | succ depth => exact further depth opened
          | _ => exact further depth opened

theorem last_of_headerGroup {front before header : List Token} {last : Token}
    {word : String} {span : Span} (group : HeaderGroup header)
    (split : front ++ [last] = before ++ ⟨.directive word, span⟩ :: header) :
    last.kind = .directive word ∨ last.kind = .rightParen := by
  rcases group with rfl | ⟨openSpan, inside, closeSpan, rfl, -⟩
  · exact .inl (congrArg Token.kind (last_eq_of_append split))
  · have ends : front ++ [last] =
        (before ++ ⟨.directive word, span⟩ :: ⟨.leftParen, openSpan⟩ :: inside) ++
          [⟨.rightParen, closeSpan⟩] := by
      simp [split]
    exact .inr (congrArg Token.kind (last_eq_of_append ends))

theorem Expression.SpelledBy.directive_not_mem {expression : Expression}
    {own : List Token} (spelled : expression.SpelledBy own) (word : String)
    (span : Span) : ⟨.directive word, span⟩ ∉ own := by
  intro member
  have inKinds : .directive word ∈ own.map Token.kind := List.mem_map_of_mem member
  rw [spelled.kinds] at inKinds
  have isItem := expression.kinds_isItem _ inKinds
  simp [TokenKind.isItem] at isItem

/-- A call in the text does not end with the header of a directive. -/
theorem not_headerGroup_of_call {name : String} {arguments : List Expression}
    {callSpan span : Span} {word : String} {earlier own before header : List Token}
    (spelled : (Expression.call name arguments callSpan).SpelledBy own)
    (split : earlier ++ own = before ++ ⟨.directive word, span⟩ :: header) :
    ¬HeaderGroup header := by
  intro group
  rcases List.append_eq_append_iff.mp split with
    ⟨more, rfl, isOwn⟩ | ⟨more, rfl, isHeader⟩
  · exact spelled.directive_not_mem word span (by simp [isOwn])
  · cases more with
    | nil =>
        rw [List.nil_append] at isHeader
        exact spelled.directive_not_mem word span (isHeader ▸ List.mem_cons_self)
    | cons first more =>
        obtain ⟨rfl, rfl⟩ := List.cons.inj isHeader
        obtain ⟨nameSpan, parenSpan, tokens, lastSpan, isOwn, -, -⟩ := id spelled
        rcases group with nothing | ⟨openSpan, inside, closeSpan, isGroup, opened, closes⟩
        · simp [isOwn] at nothing
        · cases more with
          | nil => simp [isOwn] at isGroup
          | cons opener more =>
              obtain ⟨-, rest⟩ := List.cons.inj isGroup
              have opened := groupCloses_of_last_spelled spelled more 0 inside
                ⟨.rightParen, closeSpan⟩ rest (by simp [isOwn]) opened
              rw [closes] at opened
              cases opened

/-- A node whose tokens end with a directive and its header trims a line break, and
it ends where they do. -/
theorem Node.SpelledBy.trims {node : Node} {earlier own before header : List Token}
    {word : String} {span : Span} (spelled : node.SpelledBy own)
    (split : earlier ++ own = before ++ ⟨.directive word, span⟩ :: header)
    (group : HeaderGroup header) :
    node.trimsAfter ∧
      node.span.stop = lastStop (⟨.directive word, span⟩ :: header) := by
  -- Of the ways in which a node can end, only that of a block ends with a directive.
  have trims : node.trimsAfter := by
    obtain ⟨ownFront, last, isOwn, ends, -⟩ := spelled.last
    have lastKind : last.kind = .directive word ∨ last.kind = .rightParen := by
      rw [isOwn, ← List.append_assoc] at split
      exact last_of_headerGroup group split
    generalize last.kind = kind at ends lastKind
    cases ends with
    | text content textSpan => simp at lastKind
    | path path pathSpan ends =>
        rcases lastKind with rfl | rfl <;> simp [TokenKind.endsPath] at ends
    | call name arguments callSpan =>
        exact absurd group (not_headerGroup_of_call spelled.2 split)
    | block trims => exact trims
  refine ⟨trims, ?_⟩
  obtain ⟨ownFront, last, rfl, -, stop⟩ := spelled.last
  calc node.span.stop
      = lastStop (earlier ++ (ownFront ++ [last])) := by simp [lastStop, stop]
    _ = lastStop (⟨.directive word, span⟩ :: header) := by
        rw [split, lastStop_append (List.cons_ne_nil _ _)]

theorem headersFollow_of_append {front tail : List TokenKind}
    (follows : headersFollow (front ++ tail)) : headersFollow tail := by
  induction front with
  | nil => exact follows
  | cons kind front ih =>
      cases kind <;> simp_all [headersFollow]

/-- A directive of a body that takes a header has one. -/
theorem BodySpelledBy.header {nodes : List Node} {before rest : List Token}
    {word : String} {span : Span} {keyword : Keyword}
    (spelled : BodySpelledBy nodes (before ++ ⟨.directive word, span⟩ :: rest))
    (known : Keyword.ofWord? word = some keyword) (takes : keyword.takesHeader) :
    nextKind rest = .leftParen := by
  have follows : headersFollow (bodyKinds nodes) = true := by
    rw [← List.append_nil (bodyKinds nodes), headersFollow_body]
    rfl
  rw [← spelled.kinds, List.map_append] at follows
  have opens := headersFollow_of_append follows
  cases rest with
  | nil => simp [headersFollow, known, takes] at opens
  | cons token rest =>
      simp only [List.map_cons, headersFollow, known, Option.all_some, takes,
        Bool.not_true, Bool.false_or, List.head?_cons, Bool.and_eq_true, beq_iff_eq,
        Option.some.injEq] at opens
      exact opens.1

theorem append_last_cancel {tokens front : List Token} {token final last : Token}
    (split : tokens ++ [final] = front ++ [token, last]) : tokens = front ++ [token] := by
  rw [List.append_cons front token [last]] at split
  exact (List.append_inj' split rfl).1

/-- Where a program stands apart from more text, nothing at the seam between them is
left unfinished. -/
theorem BodySpelledBy.seamFree {trim : Bool} {more : List Char} {program : Program}
    {tokens : List Token} {final : Token}
    (spelled : BodySpelledBy program.nodes tokens) (ended : final.kind = .endOfInput)
    (apart : program.StandsApart trim more) : SeamFree trim more (tokens ++ [final]) where
  headers before word span rest keyword split known takes := by
    rcases List.eq_nil_or_concat rest with rfl | ⟨rest, last, rfl⟩
    · rw [last_eq_of_append split] at ended
      cases ended
    · rw [List.concat_eq_append] at split ⊢
      rw [← List.cons_append, ← List.append_assoc] at split
      rw [(List.append_inj' split rfl).1] at spelled
      have opens := spelled.header known takes
      cases rest with
      | nil => cases opens
      | cons token rest => exact opens
  paths before last content span final split ends := by
    rw [List.append_cons before last] at split
    rw [append_last_cancel split] at spelled
    obtain ⟨earlier, isProgram, earlierSpelled⟩ := spelled.last_text
    obtain ⟨front, node, _, own, rfl, ownSplit, -, ownSpelled⟩ :=
      earlierSpelled.last (by simp)
    obtain ⟨ownFront, ownLast, rfl, endsNode, -⟩ := ownSpelled.last
    rw [← List.append_assoc] at ownSplit
    obtain rfl := last_eq_of_append ownSplit
    have goesOn := apart front node content span (by simp [isProgram])
    generalize last.kind = kind at ends endsNode
    cases endsNode with
    | path path pathSpan =>
        apply Option.not_isSome_iff_eq_none.mp
        intro read
        exact goesOn (.step read)
    | block trims ends' => rcases ends' with rfl | rfl <;> cases ends
    | _ => cases ends
  breaks before word span header content textSpan final split group stop trims
      isReturn := by
    rw [← List.cons_append, ← List.append_assoc] at split
    rw [append_last_cancel split] at spelled
    obtain ⟨earlier, isProgram, earlierSpelled⟩ := spelled.last_text
    obtain ⟨front, node, _, own, rfl, ownSplit, -, ownSpelled⟩ :=
      earlierSpelled.last (by simp)
    obtain ⟨trimsAfter, stops⟩ := ownSpelled.trims ownSplit.symm group
    have goesOn := apart front node content textSpan (by simp [isProgram])
    apply Bool.eq_false_iff.mpr
    intro starts
    subst isReturn
    exact goesOn (.lineBreak trims trimsAfter (stops.trans stop) starts)

end Stencil
