import Stencil.Proofs.FaithfulParse
import Stencil.Proofs.HeaderReports
import Stencil.Proofs.ReadBackBody

/-!
# Blocks that are left open

The blocks that a template leaves open are those whose openers no `#end` matches.  Each of
them is reported where it opens, unless the template ends with the header of the innermost
one and that header is malformed.
-/

namespace Stencil

/-- The openers of the blocks that are open after a token, the innermost one first. -/
def Token.nest (opened : List Token) (token : Token) : List Token :=
  match token.kind.keyword? with
  | some .ifBlock | some .forBlock => token :: opened
  | some .endBlock => opened.tail
  | _ => opened

/-- The openers of the blocks that are open after tokens, the innermost one first. -/
def openBlocks (opened tokens : List Token) : List Token :=
  tokens.foldl Token.nest opened

theorem openBlocks_append (opened first second : List Token) :
    openBlocks opened (first ++ second) = openBlocks (openBlocks opened first) second :=
  List.foldl_append

theorem nest_of_keyword?_none {token : Token} (plain : token.kind.keyword? = none)
    (opened : List Token) : Token.nest opened token = opened := by
  simp [Token.nest, plain]

/-- Items neither open nor close a block. -/
theorem openBlocks_items {tokens : List Token} (items : Items tokens) (opened : List Token) :
    openBlocks opened tokens = opened := by
  induction tokens with
  | nil => rfl
  | cons token tokens ih =>
      obtain ⟨isItem, others⟩ := List.forall_mem_cons.mp items
      rw [openBlocks, List.foldl_cons,
        nest_of_keyword?_none (TokenKind.keyword?_of_isItem isItem)]
      exact ih others

/-- Only tokens open blocks. -/
theorem openBlocks_subset (tokens : List Token) : openBlocks [] tokens ⊆ tokens := by
  have within (opened : List Token) : openBlocks opened tokens ⊆ opened ++ tokens := by
    induction tokens generalizing opened with
    | nil => simp [openBlocks]
    | cons token tokens ih =>
        have nested : Token.nest opened token ⊆ opened ++ [token] := by
          unfold Token.nest
          split
          · simp
          · simp
          · exact fun _ member => List.mem_append_left _ (List.mem_of_mem_tail member)
          · exact List.subset_append_left _ _
        intro opener member
        rcases List.mem_append.mp (ih (Token.nest opened token) member) with inner | further
        · exact (List.append_assoc opened [token] tokens) ▸
            List.mem_append_left tokens (nested inner)
        · exact List.mem_append_right _ (List.mem_cons_of_mem _ further)
  exact within []

def ReportedAt (reports : List Report) (token : Token) : Prop :=
  ∃ report ∈ reports, report.span.start = token.span.start

/-- The directives whose header belongs to a block. -/
def Keyword.headsBlock : Keyword → Bool
  | .ifBlock | .elifBranch | .forBlock => true
  | _ => false

/-- Tokens end with a directive of a block and its header, which is reported as malformed. -/
def EndsMalformed (tokens : List Token) (reports : List Report) : Prop :=
  ∃ front directive header, tokens = front ++ directive :: header ∧
    directive.kind.keyword?.any Keyword.headsBlock ∧ HeaderGroup header ∧
      ∃ report ∈ reports, ∃ token ∈ directive :: header, report.span = token.span

/-- Openers are reported, except for the innermost one when the tokens end with a malformed
header. -/
def UnclosedReported (unclosed tokens : List Token) (reports : List Report) : Prop :=
  (∀ opener ∈ unclosed.tail, ReportedAt reports opener) ∧
    ∀ opener ∈ unclosed.head?, ReportedAt reports opener ∨ EndsMalformed tokens reports

/-- Tokens up to a rest lead from some open blocks to others. -/
def Passes (before after tokens rest : List Token) : Prop :=
  ∃ consumed, tokens = consumed ++ rest ∧ openBlocks before consumed = after

/-- Tokens up to a rest lead from some open blocks to others, or else they end and the
blocks that are open beyond those are reported. -/
def Settles (before after tokens : List Token) (reports : List Report)
    (rest : List Token) : Prop :=
  ∃ consumed unclosed, tokens = consumed ++ rest ∧
    openBlocks before consumed = unclosed ++ after ∧ (unclosed ≠ [] → atEnd rest) ∧
      UnclosedReported unclosed consumed reports

section Settling

variable {before middle after opened tokens rest more : List Token}
  {reports others : List Report}

theorem ReportedAt.mono {token : Token} (reported : ReportedAt reports token)
    (within : reports ⊆ others) : ReportedAt others token := by
  obtain ⟨report, member, same⟩ := reported
  exact ⟨report, within member, same⟩

theorem EndsMalformed.mono (malformed : EndsMalformed tokens reports)
    (within : reports ⊆ others) : EndsMalformed tokens others := by
  obtain ⟨front, directive, header, split, heads, group, report, member, concerns⟩ := malformed
  exact ⟨front, directive, header, split, heads, group, report, within member, concerns⟩

theorem EndsMalformed.prepend (malformed : EndsMalformed tokens reports)
    (earlier : List Token) : EndsMalformed (earlier ++ tokens) reports := by
  obtain ⟨front, directive, header, rfl, further⟩ := malformed
  exact ⟨earlier ++ front, directive, header, by simp, further⟩

theorem Passes.items {consumed : List Token} (split : tokens = consumed ++ rest)
    (items : Items consumed) : Passes opened opened tokens rest :=
  ⟨consumed, split, openBlocks_items items opened⟩

theorem Passes.cons {token : Token} (nests : Token.nest before token = middle)
    (passes : Passes middle after tokens rest) : Passes before after (token :: tokens) rest := by
  obtain ⟨consumed, rfl, leads⟩ := passes
  refine ⟨token :: consumed, rfl, ?_⟩
  rw [← leads, ← nests]
  rfl

theorem Passes.trans (passes : Passes before middle tokens rest)
    (further : Passes middle after rest more) : Passes before after tokens more := by
  obtain ⟨consumed, rfl, rfl⟩ := passes
  obtain ⟨next, rfl, rfl⟩ := further
  exact ⟨consumed ++ next, by simp, openBlocks_append _ _ _⟩

theorem Passes.settles (passes : Passes before after tokens rest) (reports : List Report) :
    Settles before after tokens reports rest := by
  obtain ⟨consumed, split, leads⟩ := passes
  exact ⟨consumed, [], split, leads, fun open? => absurd rfl open?, by simp [UnclosedReported]⟩

/-- Where tokens go on, no block is left open. -/
theorem Settles.passes (settles : Settles before after tokens reports rest)
    (goesOn : atEnd rest = false) : Passes before after tokens rest := by
  obtain ⟨consumed, unclosed, split, leads, ended, -⟩ := settles
  cases unclosed with
  | nil => exact ⟨consumed, split, leads⟩
  | cons opener unclosed =>
      rw [ended (List.cons_ne_nil _ _)] at goesOn
      cases goesOn

theorem Settles.mono (settles : Settles before after tokens reports rest)
    (within : reports ⊆ others) : Settles before after tokens others rest := by
  obtain ⟨consumed, unclosed, split, leads, ended, outer, innermost⟩ := settles
  exact ⟨consumed, unclosed, split, leads, ended,
    fun opener member => (outer opener member).mono within, fun opener member =>
      (innermost opener member).imp (·.mono within) (·.mono within)⟩

theorem Settles.afterPassing (settles : Settles middle after rest reports more)
    (passes : Passes before middle tokens rest) : Settles before after tokens reports more := by
  obtain ⟨earlier, rfl, rfl⟩ := passes
  obtain ⟨consumed, unclosed, rfl, leads, ended, outer, innermost⟩ := settles
  refine ⟨earlier ++ consumed, unclosed, by simp, ?_, ended, outer, fun opener member =>
    (innermost opener member).imp_right (·.prepend earlier)⟩
  rw [openBlocks_append, leads]

/-- A block at the end of the input is reported as unclosed. -/
theorem Settles.unclosed {opener : Token}
    (settles : Settles before (opener :: opened) tokens reports rest) (ended : atEnd rest)
    (keyword : Keyword) :
    Settles before opened tokens (reports ++ [unclosedReport opener keyword]) rest := by
  obtain ⟨consumed, unclosed, split, leads, -, outer, innermost⟩ := settles
  have within : reports ⊆ reports ++ [unclosedReport opener keyword] :=
    List.subset_append_left _ _
  have own : ReportedAt (reports ++ [unclosedReport opener keyword]) opener :=
    ⟨unclosedReport opener keyword, by simp, rfl⟩
  refine ⟨consumed, unclosed ++ [opener], split, by simp [leads], fun _ => ended, ?_, ?_⟩
  · intro other member
    cases unclosed with
    | nil => cases member
    | cons first unclosed =>
        rcases List.mem_append.mp member with member | member
        · exact (outer other member).mono within
        · rwa [List.mem_singleton.mp member]
  · intro other member
    cases unclosed with
    | nil =>
        obtain rfl : opener = other := by simpa using member
        exact .inl own
    | cons first unclosed =>
        exact (innermost other member).imp (·.mono within) (·.mono within)

end Settling

/-- Nothing is nested too deeply. -/
def Shallow (reports : List Report) : Prop :=
  ∀ report ∈ reports, ∀ limit, report.fault ≠ .nestingTooDeep limit

theorem Shallow.of_subset {reports others : List Report} (shallow : Shallow others)
    (within : reports ⊆ others) : Shallow reports :=
  fun report member => shallow report (within member)

/-- A reader of bodies leaves no block open, except at the end of the input, and it stops
where a body inside a block ends. -/
structure TokenReader.SettlesBlocks (body : TokenReader (List Node)) : Prop where
  settles : ∀ opened tokens, WellGrouped tokens → Shallow (body.read tokens).reports →
      Settles opened opened tokens (body.read tokens).reports (body.read tokens).rest
  stops : ∀ tokens token rest, (body.read tokens).rest = token :: rest →
    endsBody true token.kind

theorem skipHeader_items {tokens : List Token} (grouped : WellGrouped tokens) :
    ∃ header, tokens = header ++ skipHeader tokens ∧ Items header := by
  by_cases opens : nextKind tokens = .leftParen
  · obtain ⟨openSpan, group, rfl⟩ := exists_of_nextKind (by simp) opens
    obtain ⟨inside, closeSpan, split, items, -⟩ := grouped.groups [] openSpan group rfl
    refine ⟨⟨.leftParen, openSpan⟩ :: (inside ++ [⟨.rightParen, closeSpan⟩]), ?_, ?_⟩
    · simpa [skipHeader] using split
    · exact Items.cons rfl (List.forall_mem_append.mpr ⟨items, Items.nil.cons rfl⟩)
  · refine ⟨[], ?_, .nil⟩
    cases tokens with
    | nil => rfl
    | cons token rest => exact (if_neg opens).symm

theorem nest_endBlock {token : Token} (ends : token.kind.keyword? = some .endBlock)
    (opener : Token) (opened : List Token) : Token.nest (opener :: opened) token = opened := by
  simp [Token.nest, ends]

/-- A body inside a block ends with the input or with a keyword. -/
theorem keyword_of_endsBody {kind : TokenKind} (ends : endsBody true kind) :
    kind = .endOfInput ∨ ∃ keyword, kind.keyword? = some keyword ∧ keyword.ends := by
  unfold endsBody at ends
  split at ends
  · exact .inl rfl
  · split at ends
    · exact .inr ⟨_, ‹_›, rfl⟩
    · exact .inr ⟨_, ‹_›, rfl⟩
    · exact .inr ⟨_, ‹_›, rfl⟩
    · cases ends

theorem atEnd_of_keyword? {token : Token} {keyword : Keyword}
    (found : token.kind.keyword? = some keyword) (rest : List Token) :
    atEnd (token :: rest) = false := by
  rw [atEnd, nextKind, kind_of_keyword? found]
  rfl

theorem readClosedBody_settles {body : TokenReader (List Node)} (settles : body.SettlesBlocks)
    (opener : Token) (keyword : Keyword) (opened tokens : List Token)
    (grouped : WellGrouped tokens)
    (shallow : Shallow (readClosedBody body opener keyword tokens).reports) :
    Settles (opener :: opened) opened tokens (readClosedBody body opener keyword tokens).reports
      (readClosedBody body opener keyword tokens).rest := by
  induction shorter : tokens.length using Nat.strongRecOn generalizing tokens with
  | ind length ih =>
  subst shorter
  have shrinks := body.shrinks tokens
  have stops := settles.stops tokens
  have passedOn := body_reports_subset_readClosedBody body opener keyword tokens
  have bodySettles := settles.settles (opener :: opened) tokens grouped
    (shallow.of_subset passedOn)
  rw [readClosedBody_eq] at shallow ⊢
  generalize body.read tokens = reading at *
  rcases reading with ⟨nodes, reports, _ | ⟨closer, rest⟩⟩
  · exact bodySettles.unclosed rfl keyword
  rcases keyword_of_endsBody (stops closer rest rfl) with ended | ⟨word, found, ends⟩
  · have isEnd : atEnd (closer :: rest) := by simp [atEnd, nextKind, ended]
    simp only [ended, TokenKind.keyword?] at shallow ⊢
    exact bodySettles.unclosed isEnd keyword
  have passes := bodySettles.passes (atEnd_of_keyword? found rest)
  -- A keyword that continues a conditional is stepped over together with its header.
  have goesOn (stray : Report) (keeps : ∀ opened, Token.nest opened closer = opened)
      (shallow : Shallow (readClosedBody body opener keyword (skipHeader rest)).reports) :
      Settles (opener :: opened) opened tokens
        (reports ++ [stray] ++ (readClosedBody body opener keyword (skipHeader rest)).reports)
        (readClosedBody body opener keyword (skipHeader rest)).rest := by
    obtain ⟨consumed, split, -⟩ := id passes
    rw [split] at grouped
    have groupedRest := grouped.of_append.of_cons
    obtain ⟨header, headerSplit, items⟩ := skipHeader_items groupedRest
    rw [headerSplit] at groupedRest
    have fewer : (skipHeader rest).length < tokens.length := by
      have := length_skipHeader_le rest
      simp only [List.length_cons] at shrinks
      omega
    have further := ih _ fewer _ groupedRest.of_append shallow rfl
    exact ((further.mono (List.subset_append_right _ _)).afterPassing
      ((Passes.items headerSplit items).cons (keeps _))).afterPassing passes
  cases word with
  | endBlock =>
      simp only [found] at shallow ⊢
      exact (passes.trans ⟨[closer], rfl, nest_endBlock found opener opened⟩).settles reports
  | elifBranch =>
      simp only [found] at shallow ⊢
      exact goesOn _ (fun opened => by simp [Token.nest, found])
        (shallow.of_subset (List.subset_append_right _ _))
  | elseBranch =>
      simp only [found] at shallow ⊢
      exact goesOn _ (fun opened => by simp [Token.nest, found])
        (shallow.of_subset (List.subset_append_right _ _))
  | _ => cases ends

/-- The readers for what is nested one level deeper report what they leave open. -/
structure NestedReaders.SettleBlocks (nested : NestedReaders) : Prop where
  blames : nested.expression.BlamesGroups
  faithful : nested.expression.FaithfulInGroups Expression.SpelledBy
  body : nested.body.SettlesBlocks

section Headers

variable {γ : Type} {before opened tokens header : List Token} {opener directive : Token}
  {reading : Reading (Option γ)} (consumed : HeaderConsumed directive tokens reading header)

include consumed

theorem HeaderConsumed.grouped (grouped : WellGrouped tokens) : WellGrouped reading.rest :=
  .of_append (consumed.split ▸ grouped)

/-- A directive is stepped over together with its header. -/
theorem HeaderConsumed.passes (nests : Token.nest before directive = opened) :
    Passes before opened (directive :: tokens) reading.rest :=
  (Passes.items consumed.split consumed.items).cons nests

/-- At the end of the input a block is left open whose last header is malformed. -/
theorem HeaderConsumed.settles (nests : Token.nest before directive = opener :: opened)
    (heads : directive.kind.keyword?.any Keyword.headsBlock)
    (fails : reading.value.isNone && atEnd reading.rest) :
    Settles before opened (directive :: tokens) reading.reports reading.rest := by
  obtain ⟨isNone, ended⟩ := Bool.and_eq_true_iff.mp fails
  have missing : reading.value = none := Option.isNone_iff_eq_none.mp isNone
  refine ⟨directive :: header, [opener], ?_, ?_, fun _ => ended, by simp, ?_⟩
  · exact congrArg (directive :: ·) consumed.split
  · rw [openBlocks, List.foldl_cons, nests]
    exact openBlocks_items consumed.items _
  · exact fun _ _ => .inr ⟨[], directive, header, rfl, heads, consumed.group missing,
      consumed.reported missing⟩

end Headers

theorem readBranches_settles {nested : NestedReaders} (settle : nested.SettleBlocks)
    (opener : Token) (opened : List Token) (directive : Token) (before tokens : List Token)
    (nests : Token.nest before directive = opener :: opened)
    (heads : directive.kind.keyword?.any Keyword.headsBlock) (grouped : WellGrouped tokens)
    (shallow : Shallow (readBranches nested opener directive tokens).reports) :
    Settles before opened (directive :: tokens)
      (readBranches nested opener directive tokens).reports
      (readBranches nested opener directive tokens).rest := by
  induction shorter : tokens.length using Nat.strongRecOn
    generalizing directive before tokens with
  | ind length ih =>
  subst shorter
  have headerShrinks := length_readHeader_le directive nested.expression tokens
  obtain ⟨header, consumed⟩ := readHeader_consumed settle.blames settle.faithful
    expression_neutral expression_items directive grouped
  have bodyShallow {header? : Option (Header Expression)} {reports : List Report}
      {rest : List Token}
      (same : readHeader directive nested.expression tokens = ⟨header?, reports, rest⟩)
      (goesOn : ¬(header?.isNone && atEnd rest)) : Shallow (nested.body.read rest).reports :=
    shallow.of_subset (body_reports_subset_readBranches nested opener directive same goesOn)
  rw [readBranches_eq] at shallow ⊢
  have malformed := consumed.settles nests heads
  have groupedRest := consumed.grouped grouped
  have headed := consumed.passes nests
  generalize readHeader directive nested.expression tokens = headerReading at *
  rcases headerReading with ⟨header?, headerReports, rest⟩
  dsimp only at *
  by_cases fails : header?.isNone && atEnd rest
  · rw [if_pos fails]
    exact malformed fails
  have bodyShrinks := nested.body.shrinks rest
  have stops := settle.body.stops rest
  have bodySettles := settle.body.settles (opener :: opened) rest groupedRest
    (bodyShallow rfl fails)
  rw [if_neg fails] at shallow ⊢
  generalize nested.body.read rest = reading at *
  rcases reading with ⟨nodes, reports, bodyRest⟩
  obtain ⟨inside, -, bodySplit, -⟩ := id bodySettles
  have groupedBody : WellGrouped bodyRest := .of_append (bodySplit ▸ groupedRest)
  replace bodySettles : Settles before (opener :: opened) (directive :: tokens)
      (headerReports ++ reports) bodyRest :=
    (bodySettles.mono (List.subset_append_right _ _)).afterPassing headed
  rcases bodyRest with _ | ⟨closer, bodyRest⟩
  · exact bodySettles.unclosed rfl .ifBlock
  rcases keyword_of_endsBody (stops closer bodyRest rfl) with ended | ⟨word, found, ends⟩
  · have isEnd : atEnd (closer :: bodyRest) := by simp [atEnd, nextKind, ended]
    simp only [ended, TokenKind.keyword?] at shallow ⊢
    exact bodySettles.unclosed isEnd .ifBlock
  have passes := bodySettles.passes (atEnd_of_keyword? found bodyRest)
  cases word with
  | endBlock =>
      simp only [found] at shallow ⊢
      exact (passes.trans ⟨[closer], rfl, nest_endBlock found opener opened⟩).settles _
  | elifBranch =>
      simp only [found] at shallow ⊢
      have fewer : bodyRest.length < tokens.length := by
        simp only [List.length_cons] at bodyShrinks
        omega
      have further := ih _ fewer closer (opener :: opened) bodyRest
        (by simp [Token.nest, found]) (by rw [found]; rfl) groupedBody.of_cons
        (shallow.of_subset (List.subset_append_right _ _)) rfl
      exact (further.mono (List.subset_append_right _ _)).afterPassing passes
  | elseBranch =>
      simp only [found] at shallow ⊢
      have further := readClosedBody_settles settle.body opener .ifBlock opened bodyRest
        groupedBody.of_cons (shallow.of_subset (List.subset_append_right _ _))
      have stepped : Passes (opener :: opened) (opener :: opened) (closer :: bodyRest) bodyRest :=
        ⟨[closer], rfl, by simp [openBlocks, Token.nest, found]⟩
      exact ((further.mono (List.subset_append_right _ _)).afterPassing stepped).afterPassing
        passes
  | _ => cases ends

theorem readConditional_settles {nested : NestedReaders} (settle : nested.SettleBlocks)
    (limit : Nat) {opener : Token} (opens : opener.kind.keyword? = some .ifBlock)
    (opened tokens : List Token) (grouped : WellGrouped tokens)
    (shallow : Shallow (readConditional limit (some nested) opener tokens).reports) :
    Settles opened opened (opener :: tokens)
      (readConditional limit (some nested) opener tokens).reports
      (readConditional limit (some nested) opener tokens).rest :=
  readBranches_settles settle opener opened opener opened tokens (by simp [Token.nest, opens])
    (by rw [opens]; rfl) grouped shallow

theorem readLoop_settles {nested : NestedReaders} (settle : nested.SettleBlocks)
    (limit : Nat) {opener : Token} (opens : opener.kind.keyword? = some .forBlock)
    (opened tokens : List Token) (grouped : WellGrouped tokens)
    (shallow : Shallow (readLoop limit (some nested) opener tokens).reports) :
    Settles opened opened (opener :: tokens)
      (readLoop limit (some nested) opener tokens).reports
      (readLoop limit (some nested) opener tokens).rest := by
  have nests : Token.nest opened opener = opener :: opened := by simp [Token.nest, opens]
  obtain ⟨header, consumed⟩ := readHeader_consumed (loopHeaderReader_blames settle.blames)
    (loopHeaderReader_faithful settle.faithful) loopHeader_neutral loopHeader_items opener grouped
  have malformed := consumed.settles nests (by rw [opens]; rfl)
  have groupedRest := consumed.grouped grouped
  have headed := consumed.passes nests
  simp only [readLoop] at shallow ⊢
  generalize readHeader opener (loopHeaderReader nested.expression) tokens = headerReading at *
  rcases headerReading with ⟨header?, headerReports, rest⟩
  dsimp only at *
  by_cases fails : header?.isNone && atEnd rest
  · rw [if_pos fails]
    exact malformed fails
  rw [if_neg fails] at shallow ⊢
  have body := readClosedBody_settles settle.body opener .forBlock opened rest groupedRest
    (shallow.of_subset (List.subset_append_right _ _))
  exact (body.mono (List.subset_append_right _ _)).afterPassing headed

section Pieces

variable {opened tokens : List Token} {token : Token}

/-- A token and the header after it are stepped over. -/
theorem passes_skipHeader (keeps : Token.nest opened token = opened)
    (grouped : WellGrouped tokens) :
    Passes opened opened (token :: tokens) (skipHeader tokens) := by
  obtain ⟨header, split, items⟩ := skipHeader_items grouped
  exact (Passes.items split items).cons keeps

theorem readPath_passes (span : Span) (grouped : WellGrouped (⟨.dollar, span⟩ :: tokens)) :
    Passes opened opened (⟨.dollar, span⟩ :: tokens) (readPath span.start tokens).rest := by
  have faithful := readPath_faithful span grouped.lexed
  obtain ⟨name, next⟩ := grouped.lexed.sigils [] span tokens rfl
  obtain ⟨nameSpan, rest, rfl⟩ := exists_of_nextKind (by simp) next
  obtain ⟨consumed, split, path, -, -, spelled⟩ := faithful rfl
  exact .items (congrArg (⟨.dollar, span⟩ :: ·) split) (expression_items path _ spelled)

variable {limit : Nat} {expression : TokenReader (Option Expression)}
  {nested? : Option NestedReaders}
  (settle : ∀ nested, nested? = some nested → nested.SettleBlocks)

include settle

theorem readOutputCall_passes (name : String) (span : Span) (grouped : WellGrouped tokens) :
    Passes opened opened (⟨.macroName name, span⟩ :: tokens)
      (readOutputCall limit (nested?.map NestedReaders.expression) name span tokens).rest := by
  have blames : ∀ argument, nested?.map NestedReaders.expression = some argument →
      argument.BlamesGroups := by
    intro argument found
    obtain ⟨nested, isNested, rfl⟩ := Option.map_eq_some_iff.mp found
    exact (settle nested isNested).blames
  have reads : ∀ argument, nested?.map NestedReaders.expression = some argument →
      argument.FaithfulInGroups Expression.SpelledBy := by
    intro argument found
    obtain ⟨nested, isNested, rfl⟩ := Option.map_eq_some_iff.mp found
    exact (settle nested isNested).faithful
  simp only [readOutputCall]
  cases given : (readCall limit (nested?.map NestedReaders.expression) name span tokens).value with
  | none => exact passes_skipHeader rfl grouped
  | some call =>
      obtain ⟨consumed, split, call, -, -, spelled⟩ :=
        readCall_faithful reads name span grouped.lexed (readCall_silent blames name span _ given)
      exact .items (congrArg (⟨.macroName name, span⟩ :: ·) split)
        (expression_items call _ spelled)

variable (blames : expression.BlamesGroups)
  (faithful : expression.FaithfulInGroups Expression.SpelledBy)

include blames faithful

theorem readDirective_settles (word : String) (span : Span) (grouped : WellGrouped tokens)
    (matched : Keyword.ofWord? word = some .endBlock → opened = [])
    (shallow : Shallow
      (readDirective limit expression nested? word ⟨.directive word, span⟩ tokens).reports) :
    Settles opened opened (⟨.directive word, span⟩ :: tokens)
      (readDirective limit expression nested? word ⟨.directive word, span⟩ tokens).reports
      (readDirective limit expression nested? word ⟨.directive word, span⟩ tokens).rest := by
  have plain (keeps : Token.nest opened ⟨.directive word, span⟩ = opened)
      (reports : List Report) : Settles opened opened (⟨.directive word, span⟩ :: tokens)
        reports (skipHeader tokens) :=
    (passes_skipHeader keeps grouped).settles reports
  cases known : Keyword.ofWord? word with
  | none =>
      simp only [readDirective, known]
      have keeps : Token.nest opened ⟨.directive word, span⟩ = opened :=
        nest_of_keyword?_none (show (TokenKind.directive word).keyword? = none from known) opened
      exact Passes.settles ⟨[⟨.directive word, span⟩], rfl, keeps⟩ _
  | some keyword =>
      have found : (⟨.directive word, span⟩ : Token).kind.keyword? = some keyword := known
      cases keyword with
      | ifBlock =>
          simp only [readDirective, known] at shallow ⊢
          cases nested? with
          | none => exact absurd rfl (shallow _ (List.mem_singleton_self _) limit)
          | some nested =>
              exact readConditional_settles (settle nested rfl) limit found opened tokens grouped
                shallow
      | forBlock =>
          simp only [readDirective, known] at shallow ⊢
          cases nested? with
          | none => exact absurd rfl (shallow _ (List.mem_singleton_self _) limit)
          | some nested =>
              exact readLoop_settles (settle nested rfl) limit found opened tokens grouped shallow
      | letBinding =>
          simp only [readDirective, known]
          obtain ⟨header, consumed⟩ := readHeader_consumed (bindingHeaderReader_blames blames)
            (bindingHeaderReader_faithful faithful) bindingHeader_neutral bindingHeader_items
            ⟨.directive word, span⟩ grouped
          exact (consumed.passes (by simp [Token.nest, found])).settles _
      | elifBranch =>
          simp only [readDirective, known]
          exact plain (by simp [Token.nest, found]) _
      | elseBranch =>
          simp only [readDirective, known]
          exact plain (by simp [Token.nest, found]) _
      | endBlock =>
          simp only [readDirective, known]
          exact plain (by simp [Token.nest, found, matched known]) _

theorem readPiece_settles (grouped : WellGrouped (token :: tokens))
    (matched : token.kind.keyword? = some .endBlock → opened = [])
    (shallow : Shallow (readPiece limit expression nested? token tokens).reports) :
    Settles opened opened (token :: tokens)
      (readPiece limit expression nested? token tokens).reports
      (readPiece limit expression nested? token tokens).rest := by
  rcases token with ⟨kind, span⟩
  cases kind with
  | dollar => exact (readPath_passes span grouped).settles _
  | macroName name => exact (readOutputCall_passes settle name span grouped.of_cons).settles _
  | directive word =>
      exact readDirective_settles settle blames faithful word span grouped.of_cons matched shallow
  | _ => exact Passes.settles ⟨[_], rfl, rfl⟩ _

end Pieces

theorem readBody_atEnd (limit : Nat) (expression : TokenReader (Option Expression))
    (nested? : Option NestedReaders) (inBlock : Bool) {tokens : List Token}
    (ended : atEnd tokens) :
    readBody limit expression nested? inBlock tokens = ⟨[], [], tokens⟩ := by
  cases tokens with
  | nil => rw [readBody]
  | cons token rest =>
      have isEnd : token.kind = .endOfInput := by simpa [atEnd, nextKind] using ended
      rw [readBody, if_pos (by rw [isEnd]; rfl)]

theorem endsBody_endBlock {kind : TokenKind} (found : kind.keyword? = some .endBlock)
    (inBlock : Bool) : endsBody inBlock kind = inBlock := by
  rw [kind_of_keyword? found]
  rfl

/-- Reading a body leaves no block open, except at the end of the input. -/
theorem readBody_settles {limit : Nat} {expression : TokenReader (Option Expression)}
    {nested? : Option NestedReaders} (blames : expression.BlamesGroups)
    (faithful : expression.FaithfulInGroups Expression.SpelledBy)
    (settle : ∀ nested, nested? = some nested → nested.SettleBlocks) (inBlock : Bool)
    {opened : List Token} (top : inBlock = false → opened = []) (tokens : List Token)
    (grouped : WellGrouped tokens)
    (shallow : Shallow (readBody limit expression nested? inBlock tokens).reports) :
    Settles opened opened tokens (readBody limit expression nested? inBlock tokens).reports
      (readBody limit expression nested? inBlock tokens).rest := by
  fun_induction readBody limit expression nested? inBlock tokens with
  | case1 => exact Passes.settles ⟨[], rfl, rfl⟩ _
  | case2 => exact Passes.settles ⟨[], rfl, rfl⟩ _
  | case3 token rest continues piece ih =>
      have matched : token.kind.keyword? = some .endBlock → opened = [] := by
        intro found
        rw [endsBody_endBlock found] at continues
        exact top (Bool.eq_false_iff.mpr continues)
      have pieceSettles := readPiece_settles settle blames faithful grouped matched
        (shallow.of_subset (List.subset_append_left _ _))
      simp only [Reading.map, Reading.precededBy] at shallow ⊢
      by_cases ended : atEnd piece.rest
      · rw [readBody_atEnd limit expression nested? inBlock ended, List.append_nil]
        exact pieceSettles
      · have passes := pieceSettles.passes (Bool.eq_false_iff.mpr ended)
        obtain ⟨consumed, split, -⟩ := id passes
        have further := ih (.of_append (split ▸ grouped))
          (shallow.of_subset (List.subset_append_right _ _))
        exact (further.mono (List.subset_append_right _ _)).afterPassing passes

theorem nestedReaders_settleBlocks (limit levels : Nat) :
    ∀ nested, nestedReaders? limit levels = some nested → nested.SettleBlocks := by
  induction levels with
  | zero => nofun
  | succ levels ih =>
      rintro _ ⟨⟩
      refine ⟨expressionReader_blames limit levels, expressionReader_faithful limit levels,
        ⟨fun opened tokens grouped shallow => ?_, fun tokens token rest left => ?_⟩⟩
      · rw [blockBodyReader_read] at shallow ⊢
        exact readBody_settles (expressionReader_blames limit levels)
          (expressionReader_faithful limit levels) ih true nofun tokens grouped shallow
      · rw [blockBodyReader_read] at left
        exact readBody_stops limit _ _ true tokens token rest left

end Stencil
