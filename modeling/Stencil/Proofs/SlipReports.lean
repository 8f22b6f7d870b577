import Stencil.Proofs.Slips

/-!
# What is reported about slips

A template made of slips with literal text after each of them is reported slip by slip:
there is one diagnostic for each, with its code, in the order of the text.
-/

namespace Stencil

theorem Literal.kind_ne_of_ofKind? {kind other : TokenKind} {literal : Literal}
    (constant : Literal.ofKind? kind = some literal) (none : Literal.ofKind? other = none) :
    kind ≠ other := by
  rintro rfl
  rw [none] at constant
  cases constant

/-- A report says that a token was not expected. -/
def Report.Rejects (report : Report) (token : Token) : Prop :=
  ∃ expected, report = ⟨.unexpected token.kind.description expected, token.span⟩

theorem unexpectedNext_of_isInner {token : Token} (inner : token.kind.isInner)
    (expected : List String) (rest : List Token) :
    unexpectedNext expected (token :: rest) =
      [⟨.unexpected token.kind.description expected, token.span⟩] := by
  rw [unexpectedNext, if_neg]
  rintro ended
  rw [ended] at inner
  cases inner

/-- A header with two tokens is not read: one of the two is reported, and reading goes on
after the closing parenthesis. -/
def RejectsPair {α : Type} (inside : TokenReader (Option α)) (first second : Token) :
    Prop :=
  ∃ report : Report, (report.Rejects first ∨ report.Rejects second) ∧
    ∀ directive openSpan closeSpan tail,
      readHeader directive inside
        (⟨.leftParen, openSpan⟩ :: first :: second :: ⟨.rightParen, closeSpan⟩ :: tail) =
          .failed [report] tail

section Pairs

variable {α : Type} {first second : Token} {inside : TokenReader (Option α)}

theorem RejectsPair.of_failed (firstInner : first.kind.isInner)
    (secondInner : second.kind.isInner) {report : Report}
    (rejects : report.Rejects first ∨ report.Rejects second)
    (fails : ∀ rest, ∃ left, inside.read (first :: second :: rest) = .failed [report] left) :
    RejectsPair inside first second := by
  refine ⟨report, rejects, fun directive openSpan closeSpan tail => ?_⟩
  obtain ⟨left, failed⟩ := fails (⟨.rightParen, closeSpan⟩ :: tail)
  rw [readHeader_of_group, failed, closeGroup_of_isInner firstInner,
    closeGroup_of_isInner secondInner]
  rfl

theorem expressionReader_constant (limit levels : Nat) {literal : Literal}
    (constant : Literal.ofKind? first.kind = some literal) (rest : List Token) :
    (expressionReader limit levels).read (first :: rest) =
      ⟨some (.literal literal first.span), [], rest⟩ := by
  have read (argument? : Option (TokenReader (Option Expression))) :
      readExpression limit argument? (first :: rest) =
        ⟨some (.literal literal first.span), [], rest⟩ := by
    rcases first with ⟨kind, span⟩
    cases kind <;> cases constant <;> rfl
  cases levels <;> exact read _

/-- A condition is one constant, not two. -/
theorem rejectsPair_condition (limit levels : Nat) {literal other : Literal}
    (constant : Literal.ofKind? first.kind = some literal)
    (further : Literal.ofKind? second.kind = some other) :
    RejectsPair (expressionReader limit levels) first second := by
  have secondInner := Literal.isInner_of_ofKind? further
  have noCloser : second.kind ≠ .rightParen := Literal.kind_ne_of_ofKind? further rfl
  refine ⟨_, .inr ⟨["')'"], rfl⟩, fun directive openSpan closeSpan tail => ?_⟩
  rw [readHeader_of_group, expressionReader_constant limit levels constant,
    closeGroup_of_isInner (Literal.isInner_of_ofKind? constant),
    closeGroup_of_isInner secondInner]
  simp [noCloser, unexpectedNext_of_isInner secondInner, closeGroup]

theorem nameReader_read (expected : String) (token : Token) :
    (∃ name, ∀ rest, (nameReader expected).read (token :: rest) = ⟨some name, [], rest⟩) ∨
      ∀ rest, (nameReader expected).read (token :: rest) =
        .failed (unexpectedNext [expected] (token :: rest)) (token :: rest) := by
  simp only [nameReader, TokenReader.next]
  split
  · exact .inl ⟨_, fun _ => rfl⟩
  · exact .inr fun _ => rfl

/-- After the name with which a header begins, something else is expected than what
comes. -/
theorem rejectsPair_named {name : String} {next : String → TokenReader (Option α)}
    (expected : List String) (firstInner : first.kind.isInner)
    (secondInner : second.kind.isInner)
    (fails : ∀ found rest, ∃ left, (next found).read (second :: rest) =
      .failed (unexpectedNext expected (second :: rest)) left) :
    RejectsPair ((nameReader name).andThen next) first second := by
  rcases nameReader_read name first with ⟨found, reads⟩ | reads
  · refine .of_failed firstInner secondInner (.inr ⟨expected, rfl⟩) fun rest => ?_
    obtain ⟨left, failed⟩ := fails found rest
    rw [unexpectedNext_of_isInner secondInner] at failed
    refine ⟨left, ?_⟩
    simp only [TokenReader.andThen, reads, failed]
    rfl
  · refine .of_failed firstInner secondInner (.inl ⟨[name], rfl⟩) fun rest => ?_
    refine ⟨first :: second :: rest, ?_⟩
    simp only [TokenReader.andThen, reads, unexpectedNext_of_isInner firstInner]
    rfl

theorem exactly_failed {kind : TokenKind} (other : first.kind ≠ kind)
    (expected : List String) (rest : List Token) :
    (TokenReader.exactly kind expected).read (first :: rest) =
      .failed (unexpectedNext expected (first :: rest)) (first :: rest) := by
  simp only [TokenReader.exactly, TokenReader.next, if_neg other]

/-- After its name, a loop goes on with a comma or with the word before what it runs
over. -/
theorem rejectsPair_loop (expression : TokenReader (Option Expression)) {literal : Literal}
    (firstInner : first.kind.isInner) (constant : Literal.ofKind? second.kind = some literal) :
    RejectsPair (loopHeaderReader expression) first second := by
  have noComma : second.kind ≠ .comma := Literal.kind_ne_of_ofKind? constant rfl
  have noWord : second.kind ≠ .name loopWord := Literal.kind_ne_of_ofKind? constant rfl
  refine rejectsPair_named ["','", "'in'"] firstInner (Literal.isInner_of_ofKind? constant)
    fun found rest => ⟨second :: rest, ?_⟩
  simp only [TokenReader.ifNext, if_neg noComma, TokenReader.map, iterableReader,
    TokenReader.andThen, exactly_failed noWord]
  rfl

/-- After its name, a binding goes on with the sign before its value. -/
theorem rejectsPair_binding (expression : TokenReader (Option Expression))
    {literal : Literal} (firstInner : first.kind.isInner)
    (constant : Literal.ofKind? second.kind = some literal) :
    RejectsPair (bindingHeaderReader expression) first second := by
  have noAssign : second.kind ≠ .assign := Literal.kind_ne_of_ofKind? constant rfl
  refine rejectsPair_named ["'='"] firstInner (Literal.isInner_of_ofKind? constant)
    fun found rest => ⟨second :: rest, ?_⟩
  simp only [TokenReader.andThen, exactly_failed noAssign]
  rfl

end Pairs

/-- A slip before a space is cut into tokens with nothing to report.  From these tokens
one report is made, which concerns the slip, and reading goes on after them. -/
structure ReportedAs (trim : Bool) (limit : Nat) (own : List Char) (code : String)
    (offset : Nat) (following : List Char) (token : Token) (others : List Token)
    (report : Report) : Prop where
  scans : ScansInto (scanAfterText trim) (scanBody trim) offset own (' ' :: following)
    (token :: others)
  continues : token.kind ≠ .endOfInput
  sameCode : report.fault.code = code
  inside : offset ≤ report.span.start ∧ report.span.start < offset + byteLength own
  reads : ∀ tail, nextKind tail ≠ .leftParen →
    readPiece limit (expressionReader limit limit) (nestedReaders? limit limit) token
      (others ++ tail) = ⟨[], [report], tail⟩

/-- Wherever a slip stands before a space, there is one report about it. -/
def ReportedOnce (trim : Bool) (limit : Nat) (own : List Char) (code : String) : Prop :=
  ∀ offset following, ∃ token others report,
    ReportedAs trim limit own code offset following token others report

section Single

variable {trim : Bool} {limit : Nat}

theorem inside_of_first (offset : Nat) (first : Char) (others : List Char) :
    offset ≤ offset ∧ offset < offset + byteLength (first :: others) := by
  have positive := first.utf8Size_pos
  simp only [byteLength_cons]
  omega

/-- A name before a space is taken whole. -/
theorem takeName_before_space {name : String} (proper : isName name)
    (following : List Char) :
    takeName (name.toList ++ ' ' :: following) = name.toList ∧
      dropName (name.toList ++ ' ' :: following) = ' ' :: following := by
  obtain ⟨first, rest, split, -, all⟩ := exists_of_isName proper
  exact takeName_append_of_stops (split ▸ all) rfl

theorem reportedOnce_unknownDirective {word : String} (proper : isName word)
    (unknown : Keyword.ofWord? word = none) :
    ReportedOnce trim limit ('#' :: word.toList) "E0010" := by
  intro offset following
  obtain ⟨taken, dropped⟩ := takeName_before_space proper following
  let span : Span := ⟨offset, offset + 1 + byteLength word.toList⟩
  refine ⟨⟨.directive word, span⟩, [], ⟨.unknownDirective word, span⟩, ?_, ?_, rfl, ?_, ?_⟩
  · apply scansInto_of_scanSigil
    rw [scanSigil_directive, scanDirective_of_unknown trim offset
      (by rw [taken, String.ofList_toList, unknown]), directiveToken, taken, dropped]
    simp [span, show '#'.utf8Size = 1 by decide, Nat.add_assoc]
  · simp
  · exact inside_of_first offset _ _
  · intro tail _
    simp only [List.nil_append, readPiece, readDirective, unknown]

theorem reportedOnce_orphanKeyword {keyword : Keyword}
    (orphan : keyword = .endBlock ∨ keyword = .elseBranch) :
    ReportedOnce trim limit keyword.written "E0015" := by
  intro offset following
  have plain : keyword.takesHeader = false := by rcases orphan with rfl | rfl <;> rfl
  have untrimmed : trimLineBreak trim (offset + byteLength keyword.written)
      (' ' :: following) = (offset + byteLength keyword.written, ' ' :: following) := by
    cases trim <;> rfl
  refine ⟨keyword.token offset, [],
    ⟨.orphanKeyword keyword.word, (keyword.token offset).span⟩, ?_, ?_, rfl, ?_, ?_⟩
  · have scan := scanAfterText_keyword trim plain offset
      (show wordEndsBefore (' ' :: following) from rfl)
    rwa [untrimmed] at scan
  · simp [Keyword.token, Keyword.kind]
  · exact inside_of_first offset _ _
  · intro tail noHeader
    rcases orphan with rfl | rfl <;>
      simp [readPiece, Keyword.token, Keyword.kind, readDirective, Keyword.ofWord?_word,
        skipHeader_of_ne noHeader]

theorem reportedOnce_missingArguments {name : String} (proper : isName name) :
    ReportedOnce trim limit ('@' :: name.toList) "E0013" := by
  intro offset following
  obtain ⟨taken, dropped⟩ := takeName_before_space proper following
  let span : Span := ⟨offset, offset + 1 + byteLength name.toList⟩
  refine ⟨⟨.macroName name, span⟩, [], ⟨.missingArguments name, span⟩, ?_, ?_, rfl, ?_, ?_⟩
  · apply scansInto_of_scanSigil
    rw [scanSigil_macroCall, scanMacroCall, scanMacroName, taken, dropped]
    simp [scanOptionalHeader, Scan.idle, Scan.prepend, span,
      show '@'.utf8Size = 1 by decide, Nat.add_assoc]
  · simp
  · exact inside_of_first offset _ _
  · intro tail noGroup
    have reads : readCall limit ((nestedReaders? limit limit).map NestedReaders.expression)
        name span tail = .failed [⟨.missingArguments name, span⟩] tail := by
      rcases tail with _ | ⟨⟨kind, tailSpan⟩, rest⟩
      · rfl
      · cases kind <;> first | rfl | exact absurd rfl noGroup
    simp [readPiece, readOutputCall, reads, Reading.failed, skipHeader_of_ne noGroup]

/-- Two items of a header are scanned as two tokens, each where its item begins. -/
structure PairScans (offset : Nat) (first second following : List Char)
    (token other : Token) : Prop where
  scans : HeaderScans offset (first ++ ' ' :: second) (')' :: following) [token, other]
  tokenStart : token.span.start = offset
  otherStart : other.span.start = offset + byteLength first + 1

theorem PairScans.starts {offset : Nat} {first second following : List Char}
    {token other : Token} (pair : PairScans offset first second following token other)
    {report : Report} (rejects : report.Rejects token ∨ report.Rejects other) :
    offset ≤ report.span.start ∧
      report.span.start ≤ offset + byteLength (first ++ ' ' :: second) := by
  have space : ' '.utf8Size = 1 := by decide
  rcases rejects with ⟨expected, rfl⟩ | ⟨expected, rfl⟩
  · rw [pair.tokenStart]
    omega
  · rw [pair.otherStart, byteLength_append, byteLength_cons, space]
    omega

theorem Report.code_of_rejects {report : Report} {first second : Token}
    (rejects : report.Rejects first ∨ report.Rejects second) :
    report.fault.code = "E0001" := by
  rcases rejects with ⟨expected, rfl⟩ | ⟨expected, rfl⟩ <;> rfl

theorem WritesConstant.scans_pair {first second : List Char}
    (writesFirst : WritesConstant first) (writesSecond : WritesConstant second)
    (offset : Nat) (following : List Char) :
    ∃ token other literal further, PairScans offset first second following token other ∧
      Literal.ofKind? token.kind = some literal ∧
        Literal.ofKind? other.kind = some further := by
  obtain ⟨kind, literal, constant, scans⟩ := writesFirst.scans offset
    (show startsWith endsItem (' ' :: second ++ ')' :: following) from rfl)
  obtain ⟨otherKind, further, otherConstant, otherScans⟩ :=
    writesSecond.scans (offset + byteLength first + 1)
      (show startsWith endsItem (')' :: following) from rfl)
  exact ⟨_, _, literal, further, ⟨headerScans_pair scans otherScans, rfl, rfl⟩, constant,
    otherConstant⟩

theorem WritesConstant.scans_after_name {name : String} {value : List Char}
    (proper : isName name) (writes : WritesConstant value) (offset : Nat)
    (following : List Char) :
    ∃ token other literal, PairScans offset name.toList value following token other ∧
      token.kind.isInner ∧ Literal.ofKind? other.kind = some literal := by
  have scans := HeaderScans.word proper offset
    (show startsWith endsItem (' ' :: value ++ ')' :: following) from rfl)
  obtain ⟨kind, literal, constant, otherScans⟩ :=
    writes.scans (offset + byteLength name.toList + 1)
      (show startsWith endsItem (')' :: following) from rfl)
  exact ⟨_, _, literal, ⟨headerScans_pair scans otherScans, rfl, rfl⟩, (isInner_wordKind name).1,
    constant⟩

/-- The second of two arguments without a comma is reported, and the arguments are stepped
over. -/
theorem readOutputCall_rejects {levels : Nat} {first second : Token}
    {literal further : Literal} (constant : Literal.ofKind? first.kind = some literal)
    (otherConstant : Literal.ofKind? second.kind = some further) (name : String)
    (nameSpan openSpan closeSpan : Span) (tail : List Token) :
    readOutputCall limit (some (expressionReader limit levels)) name nameSpan
      (⟨.leftParen, openSpan⟩ :: first :: second :: ⟨.rightParen, closeSpan⟩ :: tail) =
        ⟨[], [⟨.unexpected second.kind.description ["','", "')'"], second.span⟩], tail⟩ := by
  have firstInner := Literal.isInner_of_ofKind? constant
  have secondInner := Literal.isInner_of_ofKind? otherConstant
  have noComma : second.kind ≠ .comma := Literal.kind_ne_of_ofKind? otherConstant rfl
  have noCloser : second.kind ≠ .rightParen := Literal.kind_ne_of_ofKind? otherConstant rfl
  have begins (rest : List Token) : nextKind (first :: rest) ≠ .rightParen :=
    Literal.kind_ne_of_ofKind? constant rfl
  have arguments (rest : List Token) :
      readArgumentList (expressionReader limit levels) (first :: second :: rest) =
        .failed (unexpectedNext ["','", "')'"] (second :: rest)) (second :: rest) := by
    rw [readArgumentList_of_ne (begins _), readArguments_eq,
      expressionReader_constant limit levels constant]
    simp [noComma, noCloser]
  simp only [readOutputCall, readCall, arguments, Reading.map, Reading.failed,
    Option.map_none, skipHeader, if_true, closeGroup_of_isInner firstInner,
    closeGroup_of_isInner secondInner, unexpectedNext_of_isInner secondInner]
  rfl

theorem reportedOnce_missingComma {name : String} (proper : isName name)
    {first second : List Char} (writesFirst : WritesConstant first)
    (writesSecond : WritesConstant second) (positive : 1 ≤ limit) :
    ReportedOnce trim limit
      ('@' :: (name.toList ++ '(' :: (first ++ ' ' :: second ++ [')']))) "E0001" := by
  intro offset following
  obtain ⟨levels, rfl⟩ := Nat.exists_eq_add_of_le' positive
  obtain ⟨token, other, literal, further, pair, constant, otherConstant⟩ :=
    writesFirst.scans_pair writesSecond (offset + 1 + byteLength name.toList + 1)
      (' ' :: following)
  obtain ⟨nameSpan, openSpan, closeSpan, scan⟩ := scansInto_call trim proper offset pair.scans
  let report : Report := ⟨.unexpected other.kind.description ["','", "')'"], other.span⟩
  refine ⟨_, _, report, scan, by simp, rfl, ?_, ?_⟩
  · have concerns : report.Rejects token ∨ report.Rejects other := .inr ⟨_, rfl⟩
    have bounds := pair.starts concerns
    simp [show '@'.utf8Size = 1 by decide, show '('.utf8Size = 1 by decide,
      show ')'.utf8Size = 1 by decide] at bounds ⊢
    omega
  · intro tail _
    exact readOutputCall_rejects constant otherConstant name nameSpan openSpan closeSpan tail

/-- A header with a pair of tokens, of which one is reported; the body of the block is read
nevertheless, up to its `#end`. -/
def BlockRejectsPair (limit levels : Nat) (keyword : Keyword) (first second : Token) : Prop :=
  ∃ report : Report, (report.Rejects first ∨ report.Rejects second) ∧
    ∀ span openSpan closeSpan nodes own endSpan tail,
      (blockBodyReader limit levels).ReadsBackBody nodes own →
      atEnd (own ++ ⟨Keyword.endBlock.kind, endSpan⟩ :: tail) = false →
        readPiece limit (expressionReader limit (levels + 1))
          (nestedReaders? limit (levels + 1)) ⟨keyword.kind, span⟩
          (⟨.leftParen, openSpan⟩ :: first :: second :: ⟨.rightParen, closeSpan⟩ ::
            (own ++ ⟨Keyword.endBlock.kind, endSpan⟩ :: tail)) = ⟨[], [report], tail⟩

theorem RejectsPair.conditional {levels : Nat} {first second : Token}
    (rejects : RejectsPair (expressionReader limit levels) first second) :
    BlockRejectsPair limit levels .ifBlock first second := by
  obtain ⟨report, concerns, header⟩ := rejects
  refine ⟨report, concerns, ?_⟩
  intro span openSpan closeSpan nodes own endSpan tail readsBody goesOn
  have body := readsBody .endBlock endSpan tail rfl
  rw [readPiece_ifBlock, nestedReaders?]
  simp only [readConditional, readBranches_eq, header, Reading.failed, goesOn, body,
    keyword?_kind]
  rfl

theorem RejectsPair.loop {levels : Nat} {first second : Token}
    (rejects : RejectsPair (loopHeaderReader (expressionReader limit levels)) first second) :
    BlockRejectsPair limit levels .forBlock first second := by
  obtain ⟨report, concerns, header⟩ := rejects
  refine ⟨report, concerns, ?_⟩
  intro span openSpan closeSpan nodes own endSpan tail readsBody goesOn
  have body := readsBody .endBlock endSpan tail rfl
  rw [readPiece_forBlock, nestedReaders?]
  simp only [readLoop, header, Reading.failed, goesOn, readClosedBody_eq, body,
    keyword?_kind]
  rfl

theorem atEnd_text_append (run : TextRun) (offset : Nat) (span : Span) (tail : List Token) :
    atEnd (run.tokens offset ++ ⟨Keyword.endBlock.kind, span⟩ :: tail) = false := by
  unfold TextRun.tokens
  split <;> rfl

theorem trimLineBreak_space (trim : Bool) (offset : Nat) (following : List Char) :
    trimLineBreak trim offset (' ' :: following) = (offset, ' ' :: following) := by
  cases trim <;> rfl

/-- The body of a block without sigils, up to the `#end` before a space. -/
theorem scansInto_toEnd (trim : Bool) {body : List Char} (free : SigilFree body) (start : Nat)
    (following : List Char) :
    ScansInto (scanBody trim) (scanBody trim) start (body ++ Keyword.endBlock.written)
      (' ' :: following)
      (TextRun.tokens ⟨body, body, Keyword.endBlock.written ++ ' ' :: following⟩ start ++
        [Keyword.endBlock.token (start + byteLength body)]) := by
  have ended : ScansInto (scanAfterText trim) (scanBody trim) (start + byteLength body)
      Keyword.endBlock.written (' ' :: following)
      [Keyword.endBlock.token (start + byteLength body)] := by
    have scan := scanAfterText_keyword trim (show Keyword.endBlock.takesHeader = false from rfl)
      (start + byteLength body) (show wordEndsBefore (' ' :: following) from rfl)
    rwa [trimLineBreak_space] at scan
  exact (scansInto_sigilFree trim free start (Keyword.endBlock.beginsPiece _)).append ended

theorem reportedOnce_block {levels : Nat} {keyword : Keyword} (takes : keyword.takesHeader)
    {first second body : List Char} (free : SigilFree body)
    (rejects : ∀ offset following, ∃ token other,
      PairScans offset first second following token other ∧
        BlockRejectsPair (levels + 1) levels keyword token other) :
    ReportedOnce trim (levels + 1)
      (keyword.headed (first ++ ' ' :: second) ++ (body ++ Keyword.endBlock.written))
      "E0001" := by
  intro offset following
  let ended := Keyword.endBlock.written ++ ' ' :: following
  obtain ⟨token, other, pair, report, concerns, reads⟩ :=
    rejects (offset + byteLength keyword.written + 2) (body ++ ended)
  obtain ⟨openSpan, closeSpan, scan⟩ := scanAfterText_header trim takes
    (show HeaderPrintedAs keyword (first ++ ' ' :: second) (keyword.headed _) from rfl)
    pair.scans
  -- The line break at the front of the body may be trimmed; the rest of it is one text.
  obtain ⟨skipped, kept, rfl, trimmed⟩ := trimLineBreak_before trim
    (offset + byteLength (keyword.headed (first ++ ' ' :: second))) body
    (Keyword.endBlock.word.toList ++ ' ' :: following)
  let start := offset + byteLength (keyword.headed (first ++ ' ' :: second)) +
    byteLength skipped
  have keptFree : SigilFree kept :=
    fun character member => free character (List.mem_append_right _ member)
  let run : TextRun := ⟨kept, kept, ended⟩
  let stop := start + byteLength kept
  have bodyScan := scansInto_toEnd trim keptFree start following
  have body : (blockBodyReader (levels + 1) levels).ReadsBackBody
      (run.nodes ⟨start, stop⟩) (run.tokens start) :=
    (readBack_body (levels + 1) _ (run.nodes_spelled start)
      (by simp [run.nodes_nesting])).inBlock
  refine ⟨keyword.token offset, ⟨.leftParen, openSpan⟩ :: token :: other ::
    ⟨.rightParen, closeSpan⟩ :: (run.tokens start ++ [Keyword.endBlock.token stop]),
    report, ?_, by simp [Keyword.token, Keyword.kind],
    Report.code_of_rejects concerns, ?_, ?_⟩
  · have text : keyword.headed (first ++ ' ' :: second) ++
        (skipped ++ kept ++ Keyword.endBlock.written) ++ ' ' :: following =
          keyword.headed (first ++ ' ' :: second) ++ (skipped ++ kept ++ ended) := by
      simp [ended]
    have bytes : offset + byteLength (keyword.headed (first ++ ' ' :: second) ++
        (skipped ++ kept ++ Keyword.endBlock.written)) =
          start + byteLength (kept ++ Keyword.endBlock.written) := by
      simp [start, Nat.add_assoc]
    have trimmed : trimLineBreak trim (offset + byteLength (keyword.headed
        (first ++ ' ' :: second))) (skipped ++ kept ++ ended) = (start, kept ++ ended) :=
      trimmed
    rw [ScansInto, List.append_assoc] at bodyScan
    rw [ScansInto, text, bytes, scan, trimmed]
    simp [ended, bodyScan, Scan.prepend, run, stop]
  · have bounds := pair.starts concerns
    simp [Keyword.headed, show '('.utf8Size = 1 by decide,
      show ' '.utf8Size = 1 by decide, show ')'.utf8Size = 1 by decide] at bounds ⊢
    omega
  · intro tail _
    have goesOn := atEnd_text_append run start (Keyword.endBlock.token stop).span tail
    have read := reads (keyword.token offset).span openSpan closeSpan _ _ _ tail body goesOn
    simpa [nestedReaders?, Keyword.token] using read

theorem reportedOnce_missingAssign {name : String} (proper : isName name)
    {value : List Char} (writes : WritesConstant value) :
    ReportedOnce trim limit (Keyword.letBinding.headed (name.toList ++ ' ' :: value))
      "E0001" := by
  intro offset following
  obtain ⟨token, other, literal, pair, inner, constant⟩ :=
    writes.scans_after_name proper (offset + byteLength Keyword.letBinding.written + 2)
      (' ' :: following)
  obtain ⟨openSpan, closeSpan, scan⟩ := scanAfterText_header trim
    (show Keyword.letBinding.takesHeader from rfl)
    (show HeaderPrintedAs .letBinding (name.toList ++ ' ' :: value)
      (Keyword.letBinding.headed _) from rfl) pair.scans
  obtain ⟨report, concerns, header⟩ :=
    rejectsPair_binding (expressionReader limit limit) inner constant
  rw [trimLineBreak_space] at scan
  refine ⟨_, _, report, scan, by simp [Keyword.token, Keyword.kind],
    Report.code_of_rejects concerns, ?_, ?_⟩
  · have bounds := pair.starts concerns
    simp [Keyword.headed, show '('.utf8Size = 1 by decide,
      show ' '.utf8Size = 1 by decide, show ')'.utf8Size = 1 by decide] at bounds ⊢
    omega
  · intro tail _
    have read := header (Keyword.letBinding.token offset) openSpan closeSpan tail
    simp only [Keyword.token] at read ⊢
    simp [readPiece_letBinding, readBinding, read, Reading.failed, Reading.map]

end Single

/-- Every slip is reported once, wherever it stands before a space. -/
theorem Slip.WellFormed.reportedOnce {slip : Slip} (wellFormed : slip.WellFormed) (trim : Bool)
    {limit : Nat} (positive : 1 ≤ limit) :
    ReportedOnce trim limit slip.written slip.code := by
  obtain ⟨levels, rfl⟩ := Nat.exists_eq_add_of_le' positive
  cases slip with
  | unknownDirective word =>
      obtain ⟨proper, -, unknown⟩ := wellFormed
      exact reportedOnce_unknownDirective proper unknown
  | orphanKeyword keyword => exact reportedOnce_orphanKeyword wellFormed
  | missingArguments name => exact reportedOnce_missingArguments wellFormed
  | missingComma name first second =>
      obtain ⟨proper, writesFirst, writesSecond⟩ := wellFormed
      exact reportedOnce_missingComma proper writesFirst writesSecond positive
  | secondCondition first second body =>
      obtain ⟨writesFirst, writesSecond, free⟩ := wellFormed
      refine reportedOnce_block rfl free fun offset following => ?_
      obtain ⟨token, other, literal, further, pair, constant, otherConstant⟩ :=
        writesFirst.scans_pair writesSecond offset following
      exact ⟨token, other, pair,
        (rejectsPair_condition (levels + 1) levels constant otherConstant).conditional⟩
  | missingLoopWord item iterable body =>
      obtain ⟨proper, writes, free⟩ := wellFormed
      refine reportedOnce_block rfl free fun offset following => ?_
      obtain ⟨token, other, literal, pair, inner, constant⟩ :=
        writes.scans_after_name proper offset following
      exact ⟨token, other, pair, (rejectsPair_loop _ inner constant).loop⟩
  | missingAssign name value =>
      obtain ⟨proper, writes⟩ := wellFormed
      exact reportedOnce_missingAssign proper writes

end Stencil
