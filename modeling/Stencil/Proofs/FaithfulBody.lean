import Stencil.Proofs.Faithful

/-!
# Faithful readings of bodies

Blocks, directives and whole bodies are read faithfully as well: whoever gives
back less than what was written has reported something.
-/

namespace Stencil

theorem kind_of_keyword? {kind : TokenKind} {keyword : Keyword}
    (found : kind.keyword? = some keyword) : kind = keyword.kind := by
  cases kind with
  | directive word =>
      have isWord := List.find?_some found
      simp only [decide_eq_true_eq] at isWord
      rw [← isWord]
      rfl
  | _ => simp [TokenKind.keyword?] at found

def TokenReader.FaithfulBodies (body : TokenReader (List Node)) : Prop :=
  ∀ tokens, WellLexed tokens → (body.read tokens).Faithful BodySpelledBy tokens

/-- The readers for what is nested one level deeper are faithful. -/
structure NestedReaders.Faithful (nested : NestedReaders) : Prop where
  expression : nested.expression.FaithfulInGroups Expression.SpelledBy
  body : nested.body.FaithfulBodies

def ClosedBody.SpelledBy (closed : ClosedBody) (tokens : List Token) : Prop :=
  ∃ inside span, tokens = inside ++ [⟨Keyword.endBlock.kind, span⟩] ∧
    closed.stop = span.stop ∧ BodySpelledBy closed.nodes inside

theorem readClosedBody_faithful {body : TokenReader (List Node)}
    (faithful : body.FaithfulBodies) (opener : Token) (keyword : Keyword)
    (tokens : List Token) (lexed : WellLexed tokens) :
    (readClosedBody body opener keyword tokens).Faithful (SpellsGiven ClosedBody.SpelledBy)
      tokens := by
  have bodyFaithful := faithful tokens lexed
  rw [readClosedBody_eq]
  generalize body.read tokens = reading at bodyFaithful
  rcases reading with ⟨nodes, reports, _ | ⟨⟨kind, span⟩, rest⟩⟩
  · exact .of_reports (by simp [Reading.failed])
  dsimp only
  have unclosed : (.failed (reports ++ [unclosedReport opener keyword])
      (⟨kind, span⟩ :: rest) : Reading (Option ClosedBody)).Faithful
        (SpellsGiven ClosedBody.SpelledBy) tokens :=
    .of_reports (by simp [Reading.failed])
  cases found : kind.keyword? with
  | none => exact unclosed
  | some word =>
      cases word with
      | endBlock =>
          intro clean
          obtain ⟨inside, rfl, spelled⟩ := bodyFaithful clean
          obtain rfl := kind_of_keyword? found
          exact ⟨inside ++ [⟨Keyword.endBlock.kind, span⟩], by simp, ⟨nodes, span.stop⟩,
            rfl, inside, span, rfl, rfl, spelled⟩
      | elifBranch => exact .of_reports (by simp [Reading.map, Reading.precededBy])
      | elseBranch => exact .of_reports (by simp [Reading.map, Reading.precededBy])
      | _ => exact unclosed

/-- Tokens spell the branches of a conditional after the first keyword, its last
body and the `#end` that closes it. -/
def BranchChain.SpelledBy (chain : BranchChain) (tokens : List Token) : Prop :=
  ∃ branch branches own others last span,
    chain.branches = branch :: branches ∧
      tokens = own ++ (others ++ (last ++ [⟨Keyword.endBlock.kind, span⟩])) ∧
        chain.stop = span.stop ∧ branch.SpelledBy own ∧
          BranchesSpelledBy .elifBranch branches others ∧
            OtherwiseSpelledBy chain.otherwise last

theorem branch_spelled {header : Header Expression} {nodes : List Node}
    {own inside : List Token} (headerSpelled : header.SpelledBy Expression.SpelledBy own)
    (bodySpelled : BodySpelledBy nodes inside) :
    (Branch.mk header.content nodes).SpelledBy (own ++ inside) := by
  obtain ⟨openSpan, expression, closeSpan, rfl, -, spelled⟩ := headerSpelled
  exact ⟨openSpan, expression, closeSpan, inside, by simp, spelled, bodySpelled⟩

section BranchChains

variable {branch : Branch} {own consumed : List Token} (branchSpelled : branch.SpelledBy own)
  (span : Span)

include branchSpelled

theorem BranchChain.spelled_single :
    BranchChain.SpelledBy ⟨[branch], none, span.stop⟩
      (own ++ [⟨Keyword.endBlock.kind, span⟩]) :=
  ⟨branch, [], own, [], [], span, rfl, rfl, rfl, branchSpelled, rfl, rfl⟩

theorem BranchChain.SpelledBy.prepend {chain : BranchChain}
    (spelled : chain.SpelledBy consumed) :
    (chain.prepend branch).SpelledBy
      (own ++ ⟨Keyword.elifBranch.kind, span⟩ :: consumed) := by
  obtain ⟨next, branches, ownNext, others, last, endSpan, same, rfl, stop, nextSpelled,
    othersSpelled, lastSpelled⟩ := spelled
  refine ⟨branch, chain.branches, own, ⟨Keyword.elifBranch.kind, span⟩ ::
    (ownNext ++ others), last, endSpan, rfl, by simp, stop, branchSpelled, ?_, lastSpelled⟩
  rw [same]
  exact ⟨span, ownNext, others, rfl, nextSpelled, othersSpelled⟩

theorem ClosedBody.SpelledBy.otherwise {closed : ClosedBody}
    (spelled : closed.SpelledBy consumed) :
    BranchChain.SpelledBy ⟨[branch], some closed.nodes, closed.stop⟩
      (own ++ ⟨Keyword.elseBranch.kind, span⟩ :: consumed) := by
  obtain ⟨inside, endSpan, rfl, stop, bodySpelled⟩ := spelled
  exact ⟨branch, [], own, [], ⟨Keyword.elseBranch.kind, span⟩ :: inside, endSpan, rfl, rfl,
    stop, branchSpelled, rfl, span, inside, rfl, bodySpelled⟩

end BranchChains

theorem readBranches_faithful {nested : NestedReaders} (faithful : nested.Faithful)
    (opener directive : Token) (tokens : List Token) (lexed : WellLexed tokens) :
    (readBranches nested opener directive tokens).Faithful
      (SpellsGiven BranchChain.SpelledBy) tokens := by
  induction shorter : tokens.length using Nat.strongRecOn
    generalizing directive tokens with
  | ind length ih =>
  subst shorter
  have headerShrinks := length_readHeader_le directive nested.expression tokens
  have headerFaithful := readHeader_faithful faithful.expression expression_neutral
    directive lexed
  have passedOn := header_reports_subset_readBranches nested opener directive tokens
  cases missing : (readHeader directive nested.expression tokens).value with
  | none =>
      apply Reading.Faithful.of_reports
      intro clean
      rw [clean] at passedOn
      exact headerFaithful.reports_ne_nil missing (List.subset_nil.mp passedOn)
  | some header =>
  clear passedOn
  rw [readBranches_eq]
  generalize readHeader directive nested.expression tokens = reading at *
  rcases reading with ⟨_, reports, rest⟩
  obtain rfl := missing
  simp only [Option.isNone_some, Bool.false_and, Bool.false_eq_true, if_false]
  have bodyShrinks := nested.body.shrinks rest
  have bodyFaithful := faithful.body rest
  generalize nested.body.read rest = body at *
  rcases body with ⟨nodes, bodyReports, _ | ⟨⟨kind, span⟩, after⟩⟩
  · exact .of_reports (by simp [Reading.failed])
  have fewer : after.length < tokens.length := by
    simp only [List.length_cons] at bodyShrinks headerShrinks
    omega
  have unclosed : (.failed (reports ++ bodyReports ++ [unclosedReport opener .ifBlock])
      (⟨kind, span⟩ :: after) : Reading (Option BranchChain)).Faithful
        (SpellsGiven BranchChain.SpelledBy) tokens :=
    .of_reports (by simp [Reading.failed])
  -- Where nothing is reported, the header and the body make up the first branch.
  have first : reports = [] → bodyReports = [] → ∃ own,
      tokens = own ++ ⟨kind, span⟩ :: after ∧
        (Branch.mk header.content nodes).SpelledBy own ∧ WellLexed after := by
    intro headerClean bodyClean
    obtain ⟨own, rfl, _, ⟨⟩, headerSpelled⟩ := headerFaithful headerClean
    obtain ⟨inside, rfl, bodySpelled⟩ := bodyFaithful lexed.of_append bodyClean
    exact ⟨own ++ inside, by simp, branch_spelled headerSpelled bodySpelled,
      lexed.of_append.of_append.of_cons⟩
  dsimp only
  cases found : kind.keyword? with
  | none => exact unclosed
  | some word =>
      cases word with
      | elifBranch =>
          intro clean
          simp only [Reading.map, Reading.precededBy, List.append_eq_nil_iff] at clean
          obtain ⟨⟨headerClean, bodyClean⟩, chainClean⟩ := clean
          obtain ⟨own, rfl, branchSpelled, afterLexed⟩ := first headerClean bodyClean
          obtain rfl := kind_of_keyword? found
          obtain ⟨consumed, split, chain, given, chainSpelled⟩ :=
            ih _ fewer ⟨Keyword.elifBranch.kind, span⟩ after afterLexed rfl chainClean
          refine ⟨own ++ ⟨Keyword.elifBranch.kind, span⟩ :: consumed, ?_,
            chain.prepend (.mk header.content nodes), ?_,
            chainSpelled.prepend branchSpelled span⟩
          · simpa [Reading.map, Reading.precededBy] using split
          · simp [Reading.map, Reading.precededBy, given]
      | elseBranch =>
          intro clean
          simp only [Reading.map, Reading.precededBy, List.append_eq_nil_iff] at clean
          obtain ⟨⟨headerClean, bodyClean⟩, closedClean⟩ := clean
          obtain ⟨own, rfl, branchSpelled, afterLexed⟩ := first headerClean bodyClean
          obtain rfl := kind_of_keyword? found
          obtain ⟨consumed, split, closed, given, closedSpelled⟩ :=
            readClosedBody_faithful faithful.body opener .ifBlock after afterLexed
              closedClean
          refine ⟨own ++ ⟨Keyword.elseBranch.kind, span⟩ :: consumed, ?_,
            ⟨[.mk header.content nodes], some closed.nodes, closed.stop⟩, ?_,
            closedSpelled.otherwise branchSpelled span⟩
          · simpa [Reading.map, Reading.precededBy] using split
          · simp [Reading.map, Reading.precededBy, given]
      | endBlock =>
          intro clean
          obtain ⟨headerClean, bodyClean⟩ := List.append_eq_nil_iff.mp clean
          obtain ⟨own, rfl, branchSpelled, -⟩ := first headerClean bodyClean
          obtain rfl := kind_of_keyword? found
          exact ⟨own ++ [⟨Keyword.endBlock.kind, span⟩], by simp,
            ⟨[.mk header.content nodes], none, span.stop⟩, rfl,
            BranchChain.spelled_single branchSpelled span⟩
      | _ => exact unclosed

section Pieces

variable {limit : Nat} {nested? : Option NestedReaders}
  (nestedFaithful : ∀ nested, nested? = some nested → nested.Faithful)

include nestedFaithful

/-- Tokens after `token` spell a single node together with it. -/
def PieceSpelledBy (token : Token) (nodes : List Node) (tokens : List Token) : Prop :=
  ∃ node, nodes = [node] ∧ node.SpelledBy (token :: tokens)

theorem readConditional_faithful (span : Span) {tokens : List Token}
    (lexed : WellLexed tokens) :
    (readConditional limit nested? ⟨Keyword.ifBlock.kind, span⟩ tokens).Faithful
      (PieceSpelledBy ⟨Keyword.ifBlock.kind, span⟩) tokens := by
  cases nested? with
  | none => exact .of_reports (by simp [readConditional, rejectBlock])
  | some nested =>
      refine (readBranches_faithful (nestedFaithful nested rfl) _
        ⟨Keyword.ifBlock.kind, span⟩ tokens lexed).map ?_
      rintro _ _ ⟨chain, rfl, branch, branches, own, others, last, endSpan, same, rfl,
        stop, branchSpelled, othersSpelled, lastSpelled⟩
      refine ⟨_, rfl, span, own ++ others, last, endSpan, by simp, ?_, ?_, ?_,
        lastSpelled⟩
      · rw [stop]
      · simp [same]
      · rw [same]
        exact ⟨span, own, others, rfl, branchSpelled, othersSpelled⟩

theorem readLoop_faithful (span : Span) {tokens : List Token}
    (lexed : WellLexed tokens) :
    (readLoop limit nested? ⟨Keyword.forBlock.kind, span⟩ tokens).Faithful
      (PieceSpelledBy ⟨Keyword.forBlock.kind, span⟩) tokens := by
  cases nested? with
  | none => exact .of_reports (by simp [readLoop, rejectBlock])
  | some nested =>
      have faithful := nestedFaithful nested rfl
      have headerFaithful := readHeader_faithful
        (loopHeaderReader_faithful faithful.expression) loopHeader_neutral
        ⟨Keyword.forBlock.kind, span⟩ lexed
      simp only [readLoop]
      generalize readHeader ⟨Keyword.forBlock.kind, span⟩
        (loopHeaderReader nested.expression) tokens = header at headerFaithful
      rcases header with ⟨_ | ⟨header, headerStop⟩, reports, rest⟩
      · have reported : reports ≠ [] := headerFaithful.reports_ne_nil rfl
        apply Reading.Faithful.of_reports
        split
        · exact reported
        · simp [Reading.map, Reading.precededBy, reported]
      simp only [Option.isNone_some, Bool.false_and, Bool.false_eq_true, if_false]
      intro clean
      simp only [Reading.map, Reading.precededBy, List.append_eq_nil_iff] at clean
      obtain ⟨headerClean, bodyClean⟩ := clean
      obtain ⟨_, rfl, _, ⟨⟩, parenSpan, _, closeSpan, rfl, -, names, wordSpan,
        expression, rfl, named, spelled⟩ := headerFaithful headerClean
      obtain ⟨_, split, closed, given, inside, endSpan, rfl, stop, bodySpelled⟩ :=
        readClosedBody_faithful faithful.body _ .forBlock rest lexed.of_append bodyClean
      refine ⟨⟨.leftParen, parenSpan⟩ ::
          (names ++ ⟨.name loopWord, wordSpan⟩ ::
            (expression ++ ⟨.rightParen, closeSpan⟩ ::
              (inside ++ [⟨Keyword.endBlock.kind, endSpan⟩]))), ?_,
        .loop header.key header.item header.iterable closed.nodes
          ⟨span.start, closed.stop⟩, ?_, span, parenSpan, names, wordSpan, expression,
        closeSpan, inside, endSpan, rfl, ?_, named, spelled, bodySpelled⟩
      · simpa [Reading.map, Reading.precededBy] using split
      · simp [Reading.map, Reading.precededBy, given]
      · rw [stop]

theorem readOutputCall_faithful (name : String) (nameSpan : Span) {tokens : List Token}
    (lexed : WellLexed tokens) :
    (readOutputCall limit (nested?.map NestedReaders.expression) name nameSpan
      tokens).Faithful (PieceSpelledBy ⟨.macroName name, nameSpan⟩) tokens := by
  have callFaithful : (readCall limit (nested?.map NestedReaders.expression) name
      nameSpan tokens).Faithful (SpellsGiven fun call consumed => call.standsInText ∧
        call.SpelledBy (⟨.macroName name, nameSpan⟩ :: consumed)) tokens := by
    refine readCall_faithful ?_ name nameSpan lexed
    intro argument given
    obtain ⟨nested, isNested, rfl⟩ := Option.map_eq_some_iff.mp given
    exact (nestedFaithful nested isNested).expression
  simp only [readOutputCall]
  generalize readCall limit (nested?.map NestedReaders.expression) name nameSpan tokens =
    reading at callFaithful
  rcases reading with ⟨_ | call, reports, rest⟩
  · exact .of_reports (callFaithful.reports_ne_nil rfl)
  · intro clean
    obtain ⟨consumed, split, _, ⟨⟩, inText, spelled⟩ := callFaithful clean
    exact ⟨consumed, split, .output call, rfl, inText, spelled⟩

end Pieces

theorem readBinding_faithful {expression : TokenReader (Option Expression)}
    (faithful : expression.FaithfulInGroups Expression.SpelledBy) (span : Span)
    {tokens : List Token} (lexed : WellLexed tokens) :
    (readBinding expression ⟨Keyword.letBinding.kind, span⟩ tokens).Faithful
      (PieceSpelledBy ⟨Keyword.letBinding.kind, span⟩) tokens := by
  refine (readHeader_faithful (bindingHeaderReader_faithful faithful)
    bindingHeader_neutral ⟨Keyword.letBinding.kind, span⟩ lexed).map ?_
  rintro _ _ ⟨header, rfl, parenSpan, _, closeSpan, rfl, stop, nameSpan, assignSpan,
    inside, rfl, proper, spelled⟩
  refine ⟨_, rfl, span, parenSpan, nameSpan, assignSpan, inside, closeSpan, rfl, ?_,
    proper, spelled⟩
  rw [stop]

section Bodies

variable {limit : Nat} {expression : TokenReader (Option Expression)}
  (faithful : expression.FaithfulInGroups Expression.SpelledBy)
  {nested? : Option NestedReaders}
  (nestedFaithful : ∀ nested, nested? = some nested → nested.Faithful)

include faithful nestedFaithful

theorem readDirective_faithful (word : String) (span : Span) {tokens : List Token}
    (lexed : WellLexed tokens) :
    (readDirective limit expression nested? word ⟨.directive word, span⟩
      tokens).Faithful (PieceSpelledBy ⟨.directive word, span⟩) tokens := by
  simp only [readDirective]
  cases found : Keyword.ofWord? word with
  | none => exact .of_reports (by simp)
  | some keyword =>
      have same : TokenKind.directive word = keyword.kind := kind_of_keyword? found
      rw [same]
      cases keyword with
      | ifBlock => exact readConditional_faithful nestedFaithful span lexed
      | forBlock => exact readLoop_faithful nestedFaithful span lexed
      | letBinding => exact readBinding_faithful faithful span lexed
      | _ => exact .of_reports (by simp)

/-- Whatever begins with a token, apart from the end of the input, is read
faithfully. -/
theorem readPiece_faithful {token : Token} (proper : token.kind ≠ .endOfInput)
    {tokens : List Token} (lexed : WellLexed (token :: tokens)) :
    (readPiece limit expression nested? token tokens).Faithful (PieceSpelledBy token)
      tokens := by
  have refused : ∀ expected, (⟨[], unexpectedNext expected (token :: tokens), tokens⟩ :
      Reading (List Node)).Faithful (PieceSpelledBy token) tokens :=
    fun expected => .of_reports
      (unexpectedNext_ne_nil (show nextKind (token :: tokens) ≠ _ from proper) expected)
  rcases token with ⟨kind, span⟩
  cases kind with
  | text content => exact fun _ => ⟨[], rfl, _, rfl, rfl⟩
  | dollar =>
      apply (readPath_faithful span lexed).map
      rintro _ consumed ⟨path, rfl, inText, spelled⟩
      exact ⟨.output path, rfl, inText, spelled⟩
  | macroName name => exact readOutputCall_faithful nestedFaithful name span lexed.of_cons
  | directive word =>
      exact readDirective_faithful faithful nestedFaithful word span lexed.of_cons
  | _ => exact refused _

theorem readBody_faithful (inBlock : Bool) (tokens : List Token)
    (lexed : WellLexed tokens) :
    (readBody limit expression nested? inBlock tokens).Faithful BodySpelledBy tokens := by
  induction shorter : tokens.length using Nat.strongRecOn generalizing tokens with
  | ind length ih =>
  subst shorter
  cases tokens with
  | nil =>
      rw [readBody]
      exact fun _ => ⟨[], rfl, rfl⟩
  | cons token rest =>
      rw [readBody]
      by_cases ended : endsBody inBlock token.kind
      · rw [if_pos ended]
        exact fun _ => ⟨[], rfl, rfl⟩
      rw [if_neg ended]
      have proper : token.kind ≠ .endOfInput := by
        intro atEnd
        simp [endsBody, atEnd] at ended
      have shrinks := length_readPiece_le limit expression nested? token rest
      have pieceFaithful : (readPiece limit expression nested? token rest).Faithful
          (PieceSpelledBy token) rest :=
        readPiece_faithful faithful nestedFaithful proper lexed
      dsimp only
      generalize readPiece limit expression nested? token rest = piece at *
      rcases piece with ⟨nodes, reports, after⟩
      intro clean
      obtain ⟨pieceClean, othersClean⟩ := List.append_eq_nil_iff.mp clean
      obtain ⟨own, rfl, node, rfl, spelled⟩ := pieceFaithful pieceClean
      obtain ⟨others, split, othersSpelled⟩ := ih after.length
        (Nat.lt_succ_of_le shrinks) after lexed.of_cons.of_append rfl othersClean
      refine ⟨token :: (own ++ others), ?_, token :: own, others, rfl, spelled,
        othersSpelled⟩
      simpa [Reading.map, Reading.precededBy] using split

end Bodies

theorem blockBodyReader_faithful (limit levels : Nat) :
    (blockBodyReader limit levels).FaithfulBodies := by
  induction levels with
  | zero =>
      intro tokens lexed
      exact readBody_faithful (expressionReader_faithful limit 0) (by simp) true tokens
        lexed
  | succ levels ih =>
      intro tokens lexed
      refine readBody_faithful (expressionReader_faithful limit (levels + 1)) ?_ true
        tokens lexed
      rintro _ ⟨⟩
      exact ⟨expressionReader_faithful limit levels, ih⟩

theorem nestedReaders?_faithful (limit levels : Nat) :
    ∀ nested, nestedReaders? limit levels = some nested → nested.Faithful := by
  cases levels with
  | zero => simp [nestedReaders?]
  | succ levels =>
      rintro _ ⟨⟩
      exact ⟨expressionReader_faithful limit levels,
        blockBodyReader_faithful limit levels⟩

end Stencil
