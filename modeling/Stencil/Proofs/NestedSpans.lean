import Stencil.Proofs.ReadingSteps
import Stencil.Proofs.SpanOrder

/-!
# Spans nest

The spans of the tree that is read from a template, be it malformed or not, nest in each other
as the nodes do.  Every reader puts what it reads between the offset from which it starts and
one that the tokens left to it have not yet reached.
-/

namespace Stencil

section Headers

variable {expression : TokenReader (Option Expression)}

theorem iterableReader_places (places : expression.Places Standing.expression.optional)
    (expected : List String) :
    (iterableReader expression expected).Places Standing.expression.optional :=
  .andThen (.next _ _) fun _ => places

theorem loopHeaderReader_places (places : expression.Places Standing.expression.optional) :
    (loopHeaderReader expression).Places
      (Standing.expression.comap LoopHeader.iterable).optional :=
  .andThen (.next _ _) fun _ =>
    .ifNext
      (.andThen (.next _ _) fun _ =>
        .map (iterableReader_places places _) fun _ _ _ stands => stands)
      (.map (iterableReader_places places _) fun _ _ _ stands => stands)

theorem bindingHeaderReader_places (places : expression.Places Standing.expression.optional) :
    (bindingHeaderReader expression).Places
      (Standing.expression.comap BindingHeader.value).optional :=
  .andThen (.next _ _) fun _ =>
    .andThen (.next _ _) fun _ => .map places fun _ _ _ stands => stands

end Headers

/-- What a header contains ends before the header does. -/
def Standing.header {α : Type} (standing : Standing α) : Standing (Header α) :=
  standing.upTo Header.content Header.stop

theorem readHeader_stands {α : Type} {standing : Standing α}
    {inside : TokenReader (Option α)} (places : inside.Places standing.optional)
    (directive : Token) {start stop : Nat} {tokens : List Token}
    (ordered : TokensInOrder start stop tokens) :
    (readHeader directive inside tokens).Stands standing.header.optional start stop := by
  by_cases opens : nextKind tokens = .leftParen
  · obtain ⟨openSpan, group, rfl⟩ := exists_of_nextKind (by simp) opens
    rw [readHeader_of_group]
    obtain ⟨reached, ⟨forward, between⟩, left⟩ := places start stop group ordered.rest
    split
    · rename_i content closer rest isContent isRest
      rw [isRest] at left
      split
      · refine .given ⟨standing.widen (Nat.le_refl _) left.le_stop ?_, Nat.le_refl _⟩ left.tail
        exact between content isContent
      · exact .failed (ordered.rest.closeGroup 0)
    · exact .failed (ordered.rest.closeGroup 0)
  · rw [readHeader_of_ne directive inside opens]
    exact .failed ordered

theorem readPathTail_inOrder {stop limit : Nat} {tokens : List Token}
    (ordered : TokensInOrder stop limit tokens) :
    stop ≤ (readPathTail stop tokens).stop ∧
      TokensInOrder (readPathTail stop tokens).stop limit (readPathTail stop tokens).rest := by
  fun_induction readPathTail stop tokens with
  | case1 dotSpan field span rest ih =>
      obtain ⟨forward, left⟩ := ih ordered.tail.tail
      exact ⟨Nat.le_trans ordered.rest.le_stop forward, left⟩
  | case2 => exact ⟨Nat.le_refl _, ordered⟩
  | case3 stop openSpan index indexSpan span rest _ ih =>
      obtain ⟨forward, left⟩ := ih ordered.tail.tail.tail
      exact ⟨Nat.le_trans ordered.rest.rest.le_stop forward, left⟩
  | case4 => exact ⟨Nat.le_refl _, ordered⟩
  | case5 => exact ⟨Nat.le_refl _, ordered⟩

theorem Standing.expression_leaf {start stop : Nat} {expression : Expression}
    (behind : start ≤ expression.span.start)
    (nonempty : expression.span.start < expression.span.stop)
    (within : expression.span.stop ≤ stop) (isLeaf : expression.insideSpans = [])
    (parts : expression.parts = [expression]) :
    Standing.expression.between start stop expression := by
  refine ⟨.single behind nonempty within, ?_⟩
  change Framed [] expression.parts
  rw [parts]
  refine Framed.nil.cons_expression ⟨nonempty, ?_⟩
  rw [isLeaf]
  exact Nat.le_of_lt nonempty

/-- A path that begins with a sigil before all tokens. -/
theorem readPath_stands {start offset limit : Nat} {tokens : List Token} (sigil : start < offset)
    (ordered : TokensInOrder offset limit tokens) :
    (readPath start tokens).Stands Standing.expression.optional start limit := by
  unfold readPath
  split
  · rename_i root span rest
    obtain ⟨forward, left⟩ := readPathTail_inOrder ordered.tail
    have nonempty : start < (readPathTail span.stop rest).stop :=
      Nat.lt_of_lt_of_le sigil (Nat.le_trans ordered.le_stop forward)
    exact .given (Standing.expression_leaf (Nat.le_refl _) nonempty (Nat.le_refl _) rfl rfl) left
  · exact .failed (ordered.from_le (Nat.le_of_lt sigil))

/-- The arguments of a call end before its parentheses do. -/
def Standing.argumentList : Standing ArgumentList :=
  arguments.upTo ArgumentList.arguments ArgumentList.stop

theorem readArguments_stands {argument : TokenReader (Option Expression)}
    (places : argument.Places Standing.expression.optional) {stop : Nat} (tokens : List Token) :
    ∀ start, TokensInOrder start stop tokens →
      (readArguments argument tokens).Stands Standing.argumentList.optional start stop := by
  fun_induction readArguments argument tokens with
  | case1 tokens reading isNone =>
      intro start ordered
      obtain ⟨reached, ⟨forward, -⟩, left⟩ := places start stop tokens ordered
      exact .failed (left.from_le forward)
  | case2 tokens reading expression isExpression span rest isRest ih =>
      intro start ordered
      obtain ⟨reached, ⟨forward, between⟩, left⟩ := places start stop tokens ordered
      rw [show (argument.read tokens).rest = _ from isRest] at left
      refine Reading.Stands.mapGiven (ih reached left.rest) forward fun last list others => ?_
      exact ⟨Standing.arguments_cons (between expression isExpression) others.1, others.2⟩
  | case3 tokens reading expression isExpression span rest isRest =>
      intro start ordered
      obtain ⟨reached, ⟨forward, between⟩, left⟩ := places start stop tokens ordered
      rw [show (argument.read tokens).rest = _ from isRest] at left
      refine .given ⟨Standing.arguments_cons (between expression isExpression) ?_,
        Nat.le_refl _⟩ left.tail
      exact ⟨left.le_stop, .nil⟩
  | case4 tokens reading expression isExpression _ _ =>
      intro start ordered
      obtain ⟨reached, ⟨forward, -⟩, left⟩ := places start stop tokens ordered
      exact .failed (left.from_le forward)

theorem readArgumentList_stands {argument : TokenReader (Option Expression)}
    (places : argument.Places Standing.expression.optional) {start stop : Nat}
    {tokens : List Token} (ordered : TokensInOrder start stop tokens) :
    (readArgumentList argument tokens).Stands Standing.argumentList.optional start stop := by
  unfold readArgumentList
  split
  · exact .given ⟨⟨ordered.le_stop, .nil⟩, Nat.le_refl _⟩ ordered.tail
  · exact readArguments_stands places _ _ ordered

/-- A call whose name stands before all tokens. -/
theorem readCall_stands {limit : Nat} {argument? : Option (TokenReader (Option Expression))}
    (places : ∀ argument, argument? = some argument →
      argument.Places Standing.expression.optional)
    (name : String) {nameSpan : Span} (nonempty : nameSpan.start < nameSpan.stop) {stop : Nat}
    {tokens : List Token} (ordered : TokensInOrder nameSpan.stop stop tokens) :
    (readCall limit argument? name nameSpan tokens).Stands Standing.expression.optional
      nameSpan.start stop := by
  have behind := Nat.le_of_lt nonempty
  unfold readCall
  split
  · split
    · exact .failed ((ordered.rest.closeGroup 0).from_le behind)
    · rename_i argument
      have list := readArgumentList_stands (places argument rfl) ordered.rest
      refine list.mapGiven behind fun reached arguments stands => ?_
      obtain ⟨⟨inOrder, framed⟩, within⟩ := stands
      have forward : nameSpan.start < arguments.stop := Nat.lt_of_lt_of_le nonempty inOrder.le
      refine ⟨.single (Nat.le_refl _) forward within, ?_⟩
      exact framed.cons_expression ⟨forward, inOrder.from_le behind⟩
  · exact .failed (ordered.from_le behind)

theorem readExpression_stands {limit : Nat}
    {argument? : Option (TokenReader (Option Expression))}
    (places : ∀ argument, argument? = some argument →
      argument.Places Standing.expression.optional)
    {start stop : Nat} {tokens : List Token} (ordered : TokensInOrder start stop tokens) :
    (readExpression limit argument? tokens).Stands Standing.expression.optional start stop := by
  unfold readExpression
  split
  · exact .failed ordered
  · rename_i token rest
    split
    · rename_i isDollar
      have nonempty := ordered.nonempty (by rw [isDollar]; simp)
      exact (readPath_stands nonempty ordered.tail).from_le ordered.1
    · rename_i name isName
      have nonempty := ordered.nonempty (by rw [isName]; simp)
      exact (readCall_stands places name nonempty ordered.tail).from_le ordered.1
    · split
      · rename_i literal isLiteral
        have proper : token.kind ≠ .endOfInput := by
          intro ended
          rw [ended] at isLiteral
          cases isLiteral
        exact .given (Standing.expression_leaf ordered.1 (ordered.nonempty proper)
          (Nat.le_refl _) rfl rfl) ordered.tail
      · exact .failed ordered

theorem expressionReader_places (limit levels : Nat) :
    (expressionReader limit levels).Places Standing.expression.optional := by
  induction levels with
  | zero =>
      intro start stop tokens ordered
      refine readExpression_stands ?_ ordered
      rintro argument ⟨⟩
  | succ levels ih =>
      intro start stop tokens ordered
      refine readExpression_stands ?_ ordered
      rintro argument ⟨⟩
      exact ih

/-- The nodes of a body end before its block does. -/
def Standing.closedBody : Standing ClosedBody :=
  body.upTo ClosedBody.nodes ClosedBody.stop

/-- All branches of a conditional end before it does. -/
def Standing.branchChain : Standing BranchChain :=
  chain.upTo (fun chain => (chain.branches, chain.otherwise)) BranchChain.stop

/-- What stray keywords separate is one body. -/
theorem Reading.Stands.joinBody {start reached stop : Nat} {nodes : List Node}
    {later : Reading (Option ClosedBody)} {reports : List Report}
    (first : Standing.body.between start reached nodes)
    (others : later.Stands Standing.closedBody.optional reached stop) :
    ((later.precededBy reports).map (Option.map fun closed =>
      ClosedBody.mk (nodes ++ closed.nodes) closed.stop)).Stands
        Standing.closedBody.optional start stop := by
  refine Reading.Stands.mapGiven others (Standing.body.le first) fun last closed stands => ?_
  exact ⟨Standing.body_append first stands.1, stands.2⟩

theorem readClosedBody_stands {body : TokenReader (List Node)}
    (places : body.Places Standing.body) (opener : Token) (keyword : Keyword) {stop : Nat}
    (tokens : List Token) :
    ∀ start, TokensInOrder start stop tokens →
      (readClosedBody body opener keyword tokens).Stands Standing.closedBody.optional
        start stop := by
  fun_induction readClosedBody body opener keyword tokens with
  | case1 tokens reading isRest =>
      intro start ordered
      obtain ⟨reached, between, left⟩ := places start stop tokens ordered
      rw [show (body.read tokens).rest = _ from isRest] at left
      exact .failed (left.from_le (Standing.body.le between))
  | case2 tokens reading closer rest isRest =>
      intro start ordered
      obtain ⟨reached, between, left⟩ := places start stop tokens ordered
      rw [show (body.read tokens).rest = _ from isRest] at left
      exact .given ⟨Standing.body.widen (Nat.le_refl _) left.le_stop between, Nat.le_refl _⟩
        left.tail
  | case3 tokens reading closer rest isRest _ stray after ih
  | case4 tokens reading closer rest isRest _ stray after ih =>
      intro start ordered
      obtain ⟨reached, between, left⟩ := places start stop tokens ordered
      rw [show (body.read tokens).rest = _ from isRest] at left
      exact .joinBody between (ih reached left.rest.skipHeader)
  | case5 tokens reading closer rest isRest =>
      intro start ordered
      obtain ⟨reached, between, left⟩ := places start stop tokens ordered
      rw [show (body.read tokens).rest = _ from isRest] at left
      exact .failed (left.from_le (Standing.body.le between))

/-- The readers below a block put expressions and bodies where they stand. -/
structure NestedReaders.Place (nested : NestedReaders) : Prop where
  expression : nested.expression.Places Standing.expression.optional
  body : nested.body.Places Standing.body

/-- What comes behind a branch is behind its condition and its body. -/
theorem readBranch_stands {nested : NestedReaders} (places : nested.Place) (directive : Token)
    {start stop : Nat} {tokens : List Token} (ordered : TokensInOrder start stop tokens) :
    let header := readHeader directive nested.expression tokens
    let body := nested.body.read header.rest
    ∃ reached, start ≤ reached ∧ TokensInOrder reached stop body.rest ∧
      ∀ condition, header.value = some condition → ∀ {last branches otherwise},
        Standing.chain.between reached last (branches, otherwise) →
          Standing.chain.between start last
            (.mk condition.content body.value :: branches, otherwise) := by
  intro header body
  obtain ⟨behind, ⟨forward, between⟩, left⟩ :=
    readHeader_stands places.expression directive ordered
  obtain ⟨reached, guarded, rest⟩ := places.body behind stop _ left
  have bodyForward : behind ≤ reached := Standing.body.le guarded
  refine ⟨reached, Nat.le_trans forward bodyForward, rest, fun condition isCondition => ?_⟩
  obtain ⟨inside, within⟩ := between condition isCondition
  intro last branches otherwise further
  exact Standing.chain_cons inside (Standing.body.widen within (Nat.le_refl _) guarded) further

theorem readBranches_stands {nested : NestedReaders} (places : nested.Place)
    (opener directive : Token) {stop : Nat} (tokens : List Token) :
    ∀ start, TokensInOrder start stop tokens →
      (readBranches nested opener directive tokens).Stands Standing.branchChain.optional
        start stop := by
  fun_induction readBranches nested opener directive tokens with
  | case1 directive tokens header _ =>
      intro start ordered
      obtain ⟨reached, ⟨forward, -⟩, left⟩ :=
        readHeader_stands places.expression directive ordered
      exact .failed (left.from_le forward)
  | case2 directive tokens header _ body reports isRest =>
      intro start ordered
      obtain ⟨reached, forward, left, -⟩ := readBranch_stands places directive ordered
      rw [show (nested.body.read _).rest = _ from isRest] at left
      exact .failed (left.from_le forward)
  | case3 directive tokens header _ body reports branch? closer rest isRest _ ih =>
      intro start ordered
      obtain ⟨reached, forward, left, follows⟩ := readBranch_stands places directive ordered
      rw [show (nested.body.read _).rest = _ from isRest] at left
      refine Reading.Stands.mapBoth (ih reached left.rest) forward ?_
      intro branch isBranch last chain stands
      obtain ⟨condition, isCondition, rfl⟩ := Option.map_eq_some_iff.mp isBranch
      exact ⟨follows condition isCondition stands.1, stands.2⟩
  | case4 directive tokens header _ body reports branch? closer rest isRest _ =>
      intro start ordered
      obtain ⟨reached, forward, left, follows⟩ := readBranch_stands places directive ordered
      rw [show (nested.body.read _).rest = _ from isRest] at left
      have closed := readClosedBody_stands places.body opener .ifBlock rest reached left.rest
      refine Reading.Stands.mapBoth closed forward ?_
      intro branch isBranch last closed stands
      obtain ⟨condition, isCondition, rfl⟩ := Option.map_eq_some_iff.mp isBranch
      exact ⟨follows condition isCondition (Standing.chain_some stands.1), stands.2⟩
  | case5 directive tokens header _ body reports branch? closer rest isRest _ =>
      intro start ordered
      obtain ⟨reached, forward, left, follows⟩ := readBranch_stands places directive ordered
      rw [show (nested.body.read _).rest = _ from isRest] at left
      refine ⟨closer.span.stop, ⟨Nat.le_trans forward left.le_stop, ?_⟩, left.tail⟩
      intro chain isChain
      obtain ⟨branch, isBranch, rfl⟩ := Option.map_eq_some_iff.mp isChain
      obtain ⟨condition, isCondition, rfl⟩ := Option.map_eq_some_iff.mp isBranch
      exact ⟨follows condition isCondition (Standing.chain_none left.le_stop), Nat.le_refl _⟩
  | case6 directive tokens header _ body reports closer rest isRest =>
      intro start ordered
      obtain ⟨reached, forward, left, -⟩ := readBranch_stands places directive ordered
      rw [show (nested.body.read _).rest = _ from isRest] at left
      exact .failed (left.from_le forward)

section Blocks

variable {limit : Nat} {nested? : Option NestedReaders} {opener : Token} {stop : Nat}
variable {tokens : List Token}

theorem rejectBlock_stands {start : Nat} (ordered : TokensInOrder start stop tokens) :
    (rejectBlock limit opener tokens).Stands Standing.body start stop :=
  ⟨start, Standing.body_nil (Nat.le_refl _), ordered.skipHeader.closeBlock 0⟩

/-- A block begins with its opener and is framed by what stands up to its end. -/
theorem Standing.body_block {node : Node} {start reached : Nat}
    (opens : node.span.start = start) (nonempty : start < opener.span.stop)
    (inside : SpansInOrder opener.span.stop node.span.stop node.insideSpans)
    (within : node.span.stop ≤ reached) {nodes : List Node} {expressions : List Expression}
    (framed : Framed nodes expressions) (parts : node.parts = node :: nodes)
    (isExpressions : node.expressions = expressions) :
    Standing.body.between start reached [node] := by
  have frames : node.span.Frames node.insideSpans := by
    refine ⟨?_, inside.from_le ?_⟩
    · rw [opens]
      exact Nat.lt_of_lt_of_le nonempty inside.le
    · rw [opens]
      exact Nat.le_of_lt nonempty
  refine Standing.body_single (Nat.le_of_eq opens.symm) frames within ?_
  rw [parts, isExpressions]
  exact framed.cons_node frames

theorem readConditional_stands
    (places : ∀ nested, nested? = some nested → nested.Place)
    (nonempty : opener.span.start < opener.span.stop)
    (ordered : TokensInOrder opener.span.stop stop tokens) :
    (readConditional limit nested? opener tokens).Stands Standing.body opener.span.start
      stop := by
  have behind := Nat.le_of_lt nonempty
  unfold readConditional
  split
  · exact rejectBlock_stands (ordered.from_le behind)
  · rename_i nested
    have branches := readBranches_stands (places nested rfl) opener opener tokens _ ordered
    refine branches.toNodes behind fun reached chain stands => ?_
    obtain ⟨⟨inOrder, framed⟩, within⟩ := stands
    exact Standing.body_block rfl nonempty inOrder within framed rfl rfl

theorem readLoop_stands (places : ∀ nested, nested? = some nested → nested.Place)
    (nonempty : opener.span.start < opener.span.stop)
    (ordered : TokensInOrder opener.span.stop stop tokens) :
    (readLoop limit nested? opener tokens).Stands Standing.body opener.span.start stop := by
  have behind := Nat.le_of_lt nonempty
  unfold readLoop
  split
  · exact rejectBlock_stands (ordered.from_le behind)
  · rename_i nested
    have placed := places nested rfl
    obtain ⟨reached, ⟨forward, between⟩, left⟩ :=
      readHeader_stands (loopHeaderReader_places placed.expression) opener ordered
    dsimp only
    split
    · exact ⟨reached, Standing.body_nil (Nat.le_trans behind forward), left⟩
    · obtain ⟨last, ⟨further, closes⟩, rest⟩ :=
        readClosedBody_stands placed.body opener .forBlock _ reached left
      refine ⟨last, ?_, rest⟩
      simp only [Reading.map, Reading.precededBy]
      split
      · rename_i loop headerStop closed isHeader isClosed
        obtain ⟨header, headerWithin⟩ := between _ isHeader
        obtain ⟨body, within⟩ := closes closed isClosed
        have guarded := Standing.body.widen headerWithin (Nat.le_refl _) body
        exact Standing.body_block rfl nonempty (header.1.append guarded.1) within
          (Framed.append header.2 guarded.2) rfl rfl
      · exact Standing.body_nil (Nat.le_trans behind (Nat.le_trans forward further))

theorem readBinding_stands {expression : TokenReader (Option Expression)}
    (places : expression.Places Standing.expression.optional)
    (nonempty : opener.span.start < opener.span.stop)
    (ordered : TokensInOrder opener.span.stop stop tokens) :
    (readBinding expression opener tokens).Stands Standing.body opener.span.start stop := by
  have header := readHeader_stands (bindingHeaderReader_places places) opener ordered
  refine header.toNodes (Nat.le_of_lt nonempty) fun reached binding stands => ?_
  obtain ⟨⟨inOrder, framed⟩, within⟩ := stands
  exact Standing.body_block rfl nonempty inOrder within framed rfl rfl

theorem readDirective_stands {expression : TokenReader (Option Expression)}
    (places : expression.Places Standing.expression.optional)
    (nestedPlaces : ∀ nested, nested? = some nested → nested.Place) (word : String)
    (nonempty : opener.span.start < opener.span.stop)
    (ordered : TokensInOrder opener.span.stop stop tokens) :
    (readDirective limit expression nested? word opener tokens).Stands Standing.body
      opener.span.start stop := by
  have behind := ordered.from_le (Nat.le_of_lt nonempty)
  have passedOver {rest : List Token} {reports : List Report}
      (left : TokensInOrder opener.span.start stop rest) :
      (Reading.mk [] reports rest).Stands Standing.body opener.span.start stop :=
    ⟨opener.span.start, Standing.body_nil (Nat.le_refl _), left⟩
  unfold readDirective
  split
  · exact readConditional_stands nestedPlaces nonempty ordered
  · exact readLoop_stands nestedPlaces nonempty ordered
  · exact readBinding_stands places nonempty ordered
  · exact passedOver behind.skipHeader
  · exact passedOver behind

end Blocks

section Bodies

variable {limit : Nat} {expression : TokenReader (Option Expression)}
variable {nested? : Option NestedReaders} {start stop : Nat} {tokens : List Token}

theorem Standing.body_output {written : Expression}
    (stands : Standing.expression.between start stop written) :
    Standing.body.between start stop [.output written] := by
  obtain ⟨inOrder, framed⟩ := stands
  obtain ⟨behind, nonempty, within⟩ := inOrder
  have frames : (Node.output written).span.Frames (Node.output written).insideSpans :=
    ⟨nonempty, .single (Nat.le_refl _) nonempty (Nat.le_refl _)⟩
  exact Standing.body_single behind frames within (framed.cons_node frames)

theorem readOutputCall_stands (nestedPlaces : ∀ nested, nested? = some nested → nested.Place)
    (name : String) {nameSpan : Span} (nonempty : nameSpan.start < nameSpan.stop)
    (ordered : TokensInOrder nameSpan.stop stop tokens) :
    (readOutputCall limit (nested?.map NestedReaders.expression) name nameSpan tokens).Stands
      Standing.body nameSpan.start stop := by
  have places : ∀ argument, nested?.map NestedReaders.expression = some argument →
      argument.Places Standing.expression.optional := by
    intro argument isArgument
    obtain ⟨nested, isNested, rfl⟩ := Option.map_eq_some_iff.mp isArgument
    exact (nestedPlaces nested isNested).expression
  unfold readOutputCall
  dsimp only
  split
  · rename_i call isCall
    obtain ⟨reached, ⟨-, between⟩, left⟩ := readCall_stands places name nonempty ordered
    exact ⟨reached, Standing.body_output (between call isCall), left⟩
  · refine ⟨nameSpan.start, Standing.body_nil (Nat.le_refl _), ?_⟩
    exact ordered.skipHeader.from_le (Nat.le_of_lt nonempty)

theorem readPiece_stands {token : Token} (places : expression.Places Standing.expression.optional)
    (nestedPlaces : ∀ nested, nested? = some nested → nested.Place)
    (proper : token.kind ≠ .endOfInput) (ordered : TokensInOrder start stop (token :: tokens)) :
    (readPiece limit expression nested? token tokens).Stands Standing.body start stop := by
  have nonempty := ordered.nonempty proper
  suffices stands : (readPiece limit expression nested? token tokens).Stands Standing.body
      token.span.start stop from stands.from_le ordered.1
  unfold readPiece
  split
  · rename_i content _
    have frames : (Node.text content token.span).span.Frames
        (Node.text content token.span).insideSpans := ⟨nonempty, Nat.le_of_lt nonempty⟩
    refine ⟨token.span.stop, ?_, ordered.tail⟩
    exact Standing.body_single (Nat.le_refl _) frames (Nat.le_refl _)
      (Framed.nil.cons_node frames)
  · have path := readPath_stands nonempty ordered.tail
    exact path.toNodes (Nat.le_refl _) fun reached written stands => Standing.body_output stands
  · exact readOutputCall_stands nestedPlaces _ nonempty ordered.tail
  · exact readDirective_stands places nestedPlaces _ nonempty ordered.tail
  · refine ⟨token.span.start, Standing.body_nil (Nat.le_refl _), ?_⟩
    exact ordered.tail.from_le (Nat.le_of_lt nonempty)

theorem readBody_stands (places : expression.Places Standing.expression.optional)
    (nestedPlaces : ∀ nested, nested? = some nested → nested.Place) (inBlock : Bool)
    (tokens : List Token) :
    ∀ start, TokensInOrder start stop tokens →
      (readBody limit expression nested? inBlock tokens).Stands Standing.body start stop := by
  fun_induction readBody limit expression nested? inBlock tokens with
  | case1 =>
      intro start ordered
      exact ⟨start, Standing.body_nil (Nat.le_refl _), ordered⟩
  | case2 token rest _ =>
      intro start ordered
      exact ⟨start, Standing.body_nil (Nat.le_refl _), ordered⟩
  | case3 token rest goesOn piece ih =>
      intro start ordered
      have proper : token.kind ≠ .endOfInput := by
        intro ended
        rw [ended] at goesOn
        exact goesOn rfl
      obtain ⟨reached, first, left⟩ := readPiece_stands places nestedPlaces proper ordered
      obtain ⟨last, others, further⟩ := ih reached left
      exact ⟨last, Standing.body_append first others, further⟩

end Bodies

theorem blockBodyReader_places (limit levels : Nat) :
    (blockBodyReader limit levels).Places Standing.body := by
  induction levels with
  | zero =>
      intro start stop tokens ordered
      refine readBody_stands (expressionReader_places limit 0) ?_ true tokens start ordered
      rintro nested ⟨⟩
  | succ levels ih =>
      intro start stop tokens ordered
      refine readBody_stands (expressionReader_places limit (levels + 1)) ?_ true tokens start
        ordered
      rintro nested ⟨⟩
      exact ⟨expressionReader_places limit levels, ih⟩

theorem nestedReaders?_place (limit levels : Nat) :
    ∀ nested, nestedReaders? limit levels = some nested → nested.Place := by
  intro nested isNested
  cases levels with
  | zero => cases isNested
  | succ levels =>
      obtain rfl := Option.some.inj isNested
      exact ⟨expressionReader_places limit levels, blockBodyReader_places limit levels⟩

/-- The spans in the tree of every template, be it malformed or not, nest in each other: the
program spans the whole text, its nodes stand in it in order, and every node and every
expression has characters of its own, among which stand in order what is directly inside it. -/
theorem parseTemplate_spans_nest (settings : Settings) (text : String) :
    let program := (parseTemplate settings text).program
    program.span = ⟨0, byteLength text.toList⟩ ∧
      SpansInOrder 0 (byteLength text.toList) (program.nodes.map Node.span) ∧
        (∀ node ∈ program.parts, node.span.start < node.span.stop ∧
          SpansInOrder node.span.start node.span.stop node.insideSpans) ∧
        ∀ expression ∈ program.expressions, expression.span.start < expression.span.stop ∧
          SpansInOrder expression.span.start expression.span.stop expression.insideSpans := by
  intro program
  have stands : TokensStand 0 text.toList (tokenize settings.trimLineBreaks text).1 :=
    scanBody_stands settings.trimLineBreaks 0 text.toList
  have ordered := stands.inOrder
  rw [Nat.zero_add] at ordered
  obtain ⟨front, split, -⟩ := scanBody_endsAt settings.trimLineBreaks 0 text.toList
  obtain ⟨reached, ⟨inOrder, framed⟩, left⟩ :=
    readBody_stands (expressionReader_places settings.maxDepth settings.maxDepth)
      (nestedReaders?_place settings.maxDepth settings.maxDepth) false _ 0 ordered
  refine ⟨?_, inOrder.to_le left.le, framed.1, framed.2⟩
  have last : lastStop (scanBody settings.trimLineBreaks 0 text.toList).tokens =
      byteLength text.toList := by
    rw [split, lastStop_append (List.cons_ne_nil _ _)]
    exact Nat.zero_add _
  exact congrArg (Span.mk 0) last

end Stencil
