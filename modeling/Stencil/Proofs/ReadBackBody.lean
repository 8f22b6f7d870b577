import Stencil.Proofs.Following
import Stencil.Proofs.ReadBack

/-!
# Reading back bodies

A body is read back from the tokens that spell it, and reading goes on with what
follows as if it stood there alone.
-/

namespace Stencil

theorem keyword?_kind (keyword : Keyword) : keyword.kind.keyword? = some keyword := by
  cases keyword <;> rfl

theorem pathEnds_directive (word : String) (span : Span) (tail : List Token) :
    PathEnds (⟨.directive word, span⟩ :: tail) :=
  ⟨by simp [nextKind], by simp [nextKind]⟩

theorem pathEnds_keyword (keyword : Keyword) (span : Span) (tail : List Token) :
    PathEnds (⟨keyword.kind, span⟩ :: tail) :=
  pathEnds_directive keyword.word span tail

/-- The keywords that end a body inside a block. -/
def Keyword.ends : Keyword → Bool
  | .elifBranch | .elseBranch | .endBlock => true
  | _ => false

theorem endsBody_of_ends {keyword : Keyword} (ends : keyword.ends) :
    endsBody true keyword.kind := by
  cases keyword <;> first | rfl | simp [Keyword.ends] at ends

/-- A body is read back up to a keyword that ends it. -/
def TokenReader.ReadsBackBody (body : TokenReader (List Node)) (nodes : List Node)
    (tokens : List Token) : Prop :=
  ∀ (keyword : Keyword) (span : Span) (tail : List Token), keyword.ends →
    body.read (tokens ++ ⟨keyword.kind, span⟩ :: tail) =
      ⟨nodes, [], ⟨keyword.kind, span⟩ :: tail⟩

theorem readClosedBody_back {body : TokenReader (List Node)} {nodes : List Node}
    {inside : List Token} (reads : body.ReadsBackBody nodes inside) (opener : Token)
    (keyword : Keyword) (span : Span) (tail : List Token) :
    readClosedBody body opener keyword
      (inside ++ ⟨Keyword.endBlock.kind, span⟩ :: tail) =
        ⟨some ⟨nodes, span.stop⟩, [], tail⟩ := by
  rw [readClosedBody_eq, reads .endBlock span tail rfl]
  simp only [keyword?_kind]

section Branches

variable (nested : NestedReaders) {condition : Expression} {nodes : List Node}
  {expression inside : List Token}
  (readsCondition : nested.expression.ReadsBack condition expression)
  (readsBody : nested.body.ReadsBackBody nodes inside)

include readsCondition readsBody

/-- The last branch of a conditional, with the body after it, if there is one. -/
theorem readBranches_last (opener directive : Token) (openSpan closeSpan : Span)
    {otherwise : Option (List Node)} {last : List Token}
    (lastSpelled : OtherwiseSpelledBy otherwise last)
    (readsLast : ∀ body span tokens, otherwise = some body →
      last = ⟨Keyword.elseBranch.kind, span⟩ :: tokens →
        nested.body.ReadsBackBody body tokens)
    (endSpan : Span) (tail : List Token) :
    readBranches nested opener directive
      (⟨.leftParen, openSpan⟩ :: (expression ++ ⟨.rightParen, closeSpan⟩ ::
        (inside ++ (last ++ ⟨Keyword.endBlock.kind, endSpan⟩ :: tail)))) =
      ⟨some ⟨[.mk condition nodes], otherwise, endSpan.stop⟩, [], tail⟩ := by
  rw [readBranches_eq, readHeader_back directive openSpan _ closeSpan _
    (readsCondition _ (pathEnds_rightParen closeSpan _))]
  simp only [Option.isNone_some, Bool.false_and, Bool.false_eq_true, if_false]
  cases otherwise with
  | none =>
      obtain rfl := lastSpelled
      rw [List.nil_append, readsBody .endBlock endSpan tail rfl]
      simp [keyword?_kind]
  | some body =>
      obtain ⟨span, tokens, rfl, -⟩ := lastSpelled
      rw [List.cons_append, readsBody .elseBranch span _ rfl]
      simp [keyword?_kind, readClosedBody_back (readsLast body span tokens rfl rfl),
        Reading.map]

/-- A branch that is followed by another one. -/
theorem readBranches_next (opener directive : Token) (openSpan closeSpan span : Span)
    {chain : BranchChain} {others tail : List Token}
    (readsOthers : ∀ directive, readBranches nested opener directive others =
      ⟨some chain, [], tail⟩) :
    readBranches nested opener directive
      (⟨.leftParen, openSpan⟩ :: (expression ++ ⟨.rightParen, closeSpan⟩ ::
        (inside ++ ⟨Keyword.elifBranch.kind, span⟩ :: others))) =
      ⟨some (chain.prepend (.mk condition nodes)), [], tail⟩ := by
  rw [readBranches_eq, readHeader_back directive openSpan _ closeSpan _
    (readsCondition _ (pathEnds_rightParen closeSpan _))]
  simp only [Option.isNone_some, Bool.false_and, Bool.false_eq_true, if_false]
  rw [readsBody .elifBranch span others rfl]
  simp [keyword?_kind, readsOthers, Reading.map]

end Branches

/-- A node is read back from tokens: the first of them does not end a body, and it
begins a piece that is the node. -/
def NodeReadsBack (limit levels : Nat) (node : Node) (tokens : List Token) : Prop :=
  ∀ (inBlock : Bool) (tail : List Token), PathEnds tail →
    ∃ token rest, tokens = token :: rest ∧ endsBody inBlock token.kind = false ∧
      readPiece limit (expressionReader limit levels) (nestedReaders? limit levels)
        token (rest ++ tail) = ⟨[node], [], tail⟩

/-- Reading a body goes on after nodes that are read back. -/
def BodyReadsBack (limit levels : Nat) (nodes : List Node) (tokens : List Token) :
    Prop :=
  ∀ (inBlock : Bool) (tail : List Token), PathEnds tail →
    readBody limit (expressionReader limit levels) (nestedReaders? limit levels) inBlock
      (tokens ++ tail) =
    (readBody limit (expressionReader limit levels) (nestedReaders? limit levels) inBlock
      tail).map (nodes ++ ·)

section Levels

variable {limit levels : Nat}

theorem BodyReadsBack.nil : BodyReadsBack limit levels [] [] := by
  intro inBlock tail _
  rfl

theorem BodyReadsBack.cons {node : Node} {nodes : List Node} {own others : List Token}
    (first : NodeReadsBack limit levels node own)
    (rest : BodyReadsBack limit levels nodes others)
    (othersSpelled : BodySpelledBy nodes others) :
    BodyReadsBack limit levels (node :: nodes) (own ++ others) := by
  intro inBlock tail ends
  obtain ⟨token, after, rfl, continues, piece⟩ :=
    first inBlock (others ++ tail) (othersSpelled.pathEnds ends)
  rw [List.append_assoc, List.cons_append, readBody, continues, piece]
  simp [rest inBlock tail ends, Reading.map]

theorem readBody_ended (inBlock : Bool) {token : Token}
    (ended : endsBody inBlock token.kind) (tail : List Token) :
    readBody limit (expressionReader limit levels) (nestedReaders? limit levels) inBlock
      (token :: tail) = ⟨[], [], token :: tail⟩ := by
  rw [readBody, if_pos ended]

theorem blockBodyReader_read (tokens : List Token) :
    (blockBodyReader limit levels).read tokens =
      readBody limit (expressionReader limit levels) (nestedReaders? limit levels) true
        tokens := by
  cases levels <;> rfl

theorem BodyReadsBack.inBlock {nodes : List Node} {tokens : List Token}
    (reads : BodyReadsBack limit levels nodes tokens) :
    (blockBodyReader limit levels).ReadsBackBody nodes tokens := by
  intro keyword span tail ends
  rw [blockBodyReader_read, reads true _ (pathEnds_keyword keyword span tail),
    readBody_ended true (endsBody_of_ends ends)]
  simp [Reading.map]

end Levels

section Keywords

variable (limit : Nat) (expression : TokenReader (Option Expression))
  (nested? : Option NestedReaders) (span : Span) (tokens : List Token)

theorem readPiece_ifBlock :
    readPiece limit expression nested? ⟨Keyword.ifBlock.kind, span⟩ tokens =
      readConditional limit nested? ⟨Keyword.ifBlock.kind, span⟩ tokens :=
  rfl

theorem readPiece_forBlock :
    readPiece limit expression nested? ⟨Keyword.forBlock.kind, span⟩ tokens =
      readLoop limit nested? ⟨Keyword.forBlock.kind, span⟩ tokens :=
  rfl

theorem readPiece_letBinding :
    readPiece limit expression nested? ⟨Keyword.letBinding.kind, span⟩ tokens =
      readBinding expression ⟨Keyword.letBinding.kind, span⟩ tokens :=
  rfl

end Keywords

theorem Expression.readBack_output (limit : Nat) {expression : Expression}
    {tokens : List Token} (inText : expression.standsInText)
    (spelled : expression.SpelledBy tokens) {levels : Nat}
    (within : expression.nesting ≤ levels) :
    NodeReadsBack limit levels (.output expression) tokens := by
  intro inBlock tail ends
  have reads := expression.readBack limit spelled within tail ends
  cases expression with
  | path path span =>
      obtain ⟨sigilSpan, nameSpan, steps, rfl, same, further⟩ := spelled
      refine ⟨_, _, rfl, rfl, ?_⟩
      have read : readPath sigilSpan.start (⟨.name path.root, nameSpan⟩ :: steps ++ tail) =
          ⟨some (.path path span), [], tail⟩ := by
        cases levels <;> exact reads
      simp only [readPiece, read]
      rfl
  | literal value span => simp [Expression.standsInText] at inText
  | call name arguments span =>
      obtain ⟨nameSpan, openSpan, inside, closeSpan, rfl, same, further⟩ := spelled
      refine ⟨_, _, rfl, rfl, ?_⟩
      have read : readCall limit
          ((nestedReaders? limit levels).map NestedReaders.expression) name nameSpan
          (⟨.leftParen, openSpan⟩ :: (inside ++ [⟨.rightParen, closeSpan⟩]) ++ tail) =
          ⟨some (.call name arguments span), [], tail⟩ := by
        cases levels <;> exact reads
      simp only [readPiece, readOutputCall, read]

theorem Expression.readBack_binding (limit : Nat) (name : String) (value : Expression)
    {span : Span} {tokens : List Token}
    (spelled : (Node.binding name value span).SpelledBy tokens) {levels : Nat}
    (within : value.nesting ≤ levels) :
    NodeReadsBack limit levels (.binding name value span) tokens := by
  intro inBlock tail _
  obtain ⟨openSpan, parenSpan, nameSpan, assignSpan, expression, closeSpan, rfl, rfl,
    proper, valueSpelled⟩ := spelled
  refine ⟨_, _, rfl, rfl, ?_⟩
  have reads := bindingHeaderReader_back nameSpan assignSpan proper
    (value.readBack limit valueSpelled within _ (pathEnds_rightParen closeSpan tail))
  have header := readHeader_back ⟨Keyword.letBinding.kind, openSpan⟩ parenSpan
    (⟨.name name, nameSpan⟩ :: ⟨.assign, assignSpan⟩ :: expression) closeSpan tail reads
  simp only [List.cons_append] at header
  simp [readPiece_letBinding, readBinding, header, Reading.map]

mutual

/-- A node is read back from the tokens that spell it. -/
theorem Node.readBack (limit : Nat) : ∀ (node : Node) {tokens : List Token},
    node.SpelledBy tokens → ∀ {levels : Nat}, node.nesting ≤ levels →
      NodeReadsBack limit levels node tokens
  | .text content span, tokens => by
      rintro rfl levels _ inBlock tail _
      exact ⟨_, _, rfl, rfl, rfl⟩
  | .output expression, tokens => by
      rintro ⟨inText, spelled⟩ levels within
      exact expression.readBack_output limit inText spelled within
  | .conditional branches otherwise span, tokens => by
      intro spelled levels within inBlock tail _
      obtain ⟨openSpan, chain, last, closeSpan, rfl, rfl, nonempty, guarded,
        lastSpelled⟩ := spelled
      obtain ⟨inner, rfl⟩ : ∃ inner, levels = inner + 1 :=
        ⟨levels - 1, by simp only [Node.nesting] at within; omega⟩
      obtain ⟨branchesWithin, lastWithin⟩ :=
        Nat.max_le.mp (Nat.le_of_succ_le_succ within)
      refine ⟨_, _, rfl, rfl, ?_⟩
      have readsLast := readBack_otherwise limit otherwise lastSpelled lastWithin
      have reads := readBack_branches limit branches nonempty guarded branchesWithin
        lastSpelled readsLast ⟨Keyword.ifBlock.kind, openSpan⟩
        ⟨Keyword.ifBlock.kind, openSpan⟩ closeSpan tail
      simp [readPiece_ifBlock, nestedReaders?, readConditional, reads, Reading.map]
  | .loop key item iterable body span, tokens => by
      intro spelled levels within inBlock tail _
      obtain ⟨openSpan, parenSpan, names, wordSpan, expression, closeSpan, inside,
        endSpan, rfl, rfl, named, iterableSpelled, bodySpelled⟩ := spelled
      obtain ⟨inner, rfl⟩ : ∃ inner, levels = inner + 1 :=
        ⟨levels - 1, by simp only [Node.nesting] at within; omega⟩
      obtain ⟨headerWithin, bodyWithin⟩ :=
        Nat.max_le.mp (Nat.le_of_succ_le_succ within)
      refine ⟨_, _, rfl, rfl, ?_⟩
      let after := inside ++ ⟨Keyword.endBlock.kind, endSpan⟩ :: tail
      have reads := loopHeaderReader_back wordSpan named
        (iterable.readBack limit iterableSpelled headerWithin _
          (pathEnds_rightParen closeSpan after))
      have header := readHeader_back ⟨Keyword.forBlock.kind, openSpan⟩ parenSpan
        (names ++ ⟨.name loopWord, wordSpan⟩ :: expression) closeSpan after
        (by simpa using reads)
      have closed := readClosedBody_back
        (readBack_body limit body bodySpelled bodyWithin).inBlock
        ⟨Keyword.forBlock.kind, openSpan⟩ .forBlock endSpan tail
      simp only [List.append_assoc, List.cons_append] at header
      simp [readPiece_forBlock, nestedReaders?, readLoop, header, closed, after,
        Reading.map]
  | .binding name value span, tokens => by
      intro spelled levels within
      exact value.readBack_binding limit name spelled within

/-- The branches of a conditional are read back after the first keyword. -/
theorem readBack_branches (limit : Nat) : ∀ (branches : List Branch),
    branches ≠ [] → ∀ {keyword : Keyword} {span : Span} {chain last : List Token},
      BranchesSpelledBy keyword branches (⟨keyword.kind, span⟩ :: chain) →
      ∀ {levels : Nat}, branchesNesting branches ≤ levels →
        ∀ {otherwise : Option (List Node)}, OtherwiseSpelledBy otherwise last →
          (∀ body span tokens, otherwise = some body →
            last = ⟨Keyword.elseBranch.kind, span⟩ :: tokens →
              (blockBodyReader limit levels).ReadsBackBody body tokens) →
          ∀ (opener directive : Token) (endSpan : Span) (tail : List Token),
            readBranches ⟨expressionReader limit levels, blockBodyReader limit levels⟩
              opener directive
              (chain ++ (last ++ ⟨Keyword.endBlock.kind, endSpan⟩ :: tail)) =
                ⟨some ⟨branches, otherwise, endSpan.stop⟩, [], tail⟩
  | [] => fun nonempty => absurd rfl nonempty
  | [.mk condition body] => by
      intro _ keyword span chain last spelled levels within otherwise lastSpelled
        readsLast opener directive endSpan tail
      obtain ⟨_, own, _, same, ⟨openSpan, expression, closeSpan, inside, rfl,
        conditionSpelled, bodySpelled⟩, rfl⟩ := spelled
      obtain ⟨-, rfl⟩ := List.cons.inj same
      obtain ⟨branchWithin, -⟩ := Nat.max_le.mp within
      obtain ⟨conditionWithin, bodyWithin⟩ := Nat.max_le.mp branchWithin
      have reads := readBranches_last
        ⟨expressionReader limit levels, blockBodyReader limit levels⟩
        (condition.readBack limit conditionSpelled conditionWithin)
        (readBack_body limit body bodySpelled bodyWithin).inBlock opener directive openSpan
        closeSpan lastSpelled readsLast endSpan tail
      simpa using reads
  | .mk condition body :: next :: branches => by
      intro _ keyword span chain last spelled levels within otherwise lastSpelled
        readsLast opener directive endSpan tail
      obtain ⟨_, own, _, same, ⟨openSpan, expression, closeSpan, inside, rfl,
        conditionSpelled, bodySpelled⟩, ⟨nextSpan, ownNext, others, rfl, nextSpelled,
        othersSpelled⟩⟩ := spelled
      obtain ⟨-, rfl⟩ := List.cons.inj same
      obtain ⟨branchWithin, othersWithin⟩ := Nat.max_le.mp within
      obtain ⟨conditionWithin, bodyWithin⟩ := Nat.max_le.mp branchWithin
      have furtherSpelled : BranchesSpelledBy .elifBranch (next :: branches)
          (⟨Keyword.elifBranch.kind, nextSpan⟩ :: (ownNext ++ others)) :=
        ⟨nextSpan, ownNext, others, rfl, nextSpelled, othersSpelled⟩
      have readsOthers := readBack_branches limit (next :: branches) (by simp)
        furtherSpelled othersWithin lastSpelled readsLast opener
      have reads := readBranches_next
        ⟨expressionReader limit levels, blockBodyReader limit levels⟩
        (condition.readBack limit conditionSpelled conditionWithin)
        (readBack_body limit body bodySpelled bodyWithin).inBlock opener directive openSpan
        closeSpan nextSpan fun directive => readsOthers directive endSpan tail
      simpa [BranchChain.prepend] using reads

theorem readBack_otherwise (limit : Nat) : ∀ (otherwise : Option (List Node))
    {last : List Token}, OtherwiseSpelledBy otherwise last →
      ∀ {levels : Nat}, otherwiseNesting otherwise ≤ levels →
        ∀ body span tokens, otherwise = some body →
          last = ⟨Keyword.elseBranch.kind, span⟩ :: tokens →
            (blockBodyReader limit levels).ReadsBackBody body tokens
  | none, last => by
      intro _ levels _ body span tokens given
      cases given
  | some body, last => by
      rintro ⟨_, inside, rfl, spelled⟩ levels within _ span tokens ⟨⟩ same
      obtain ⟨-, rfl⟩ := List.cons.inj same
      exact (readBack_body limit body spelled within).inBlock

theorem readBack_body (limit : Nat) : ∀ (nodes : List Node) {tokens : List Token},
    BodySpelledBy nodes tokens → ∀ {levels : Nat}, bodyNesting nodes ≤ levels →
      BodyReadsBack limit levels nodes tokens
  | [], tokens => by
      rintro rfl levels _
      exact .nil
  | node :: nodes, tokens => by
      intro spelled levels within
      obtain ⟨own, others, rfl, first, further⟩ := spelled
      obtain ⟨firstWithin, othersWithin⟩ := Nat.max_le.mp within
      exact .cons (node.readBack limit first firstWithin)
        (readBack_body limit nodes further othersWithin) further

end

/-- Reading a template goes on after tokens that spell nodes. -/
theorem templateReading_append {limit : Nat} {nodes : List Node} {tokens : List Token}
    (spelled : BodySpelledBy nodes tokens) (within : bodyNesting nodes ≤ limit)
    {tail : List Token} (ends : PathEnds tail) :
    templateReading limit (tokens ++ tail) =
      (templateReading limit tail).map (nodes ++ ·) :=
  readBack_body limit nodes spelled within false tail ends

/-- A template is read back from the tokens that spell it. -/
theorem templateReading_spelled {limit : Nat} {nodes : List Node} {tokens : List Token}
    (spelled : BodySpelledBy nodes tokens) (within : bodyNesting nodes ≤ limit)
    (span : Span) :
    templateReading limit (tokens ++ [⟨.endOfInput, span⟩]) =
      ⟨nodes, [], [⟨.endOfInput, span⟩]⟩ := by
  have ends : PathEnds [⟨.endOfInput, span⟩] := ⟨by simp [nextKind], by simp [nextKind]⟩
  rw [templateReading_append spelled within ends, templateReading, readBody_ended false rfl]
  simp [Reading.map]

end Stencil
