import Stencil.Proofs.VisibleSpans

/-!
# Numbers in headers

Wherever a number stands in a header in place of the next token, the longest number that is
written there is scanned as one: as an integer if it has neither a fraction nor an exponent and
fits into sixty-four bits, as the nearest floating-point number if it has one of them, and as
nothing but one report otherwise.  The step lemmas say what the scan of a header does between
two tokens; they are put together along the way to the number.
-/

namespace Stencil

/-- The scan of a header goes on from one place at which a token is looked for to the next
one. -/
inductive HeaderStep : (depth offset : Nat) → List Char → (nextDepth next : Nat) → List Char → Prop
  | opening {depth offset : Nat} {characters rest : List Char} {character : Char} :
      characters.dropWhile isBlank = character :: rest → headerLead character rest = .opening →
        HeaderStep depth offset characters (depth + 1)
          (offset + byteLength (characters.takeWhile isBlank) + 1) rest
  | closing {depth offset : Nat} {characters rest : List Char} {character : Char} :
      characters.dropWhile isBlank = character :: rest → headerLead character rest = .closing →
        HeaderStep (depth + 1) offset characters depth
          (offset + byteLength (characters.takeWhile isBlank) + 1) rest
  | string {depth offset : Nat} {characters rest : List Char} {character : Char}
      {body : StringBody} :
      characters.dropWhile isBlank = character :: rest → headerLead character rest = .quote →
        readString? character rest = some body →
          HeaderStep depth offset characters depth
            (offset + byteLength (characters.takeWhile isBlank) + 1 + byteLength body.written)
            body.rest
  | item {depth offset start : Nat} {characters rest : List Char} {character : Char}
      {lead : ItemLead} :
      characters.dropWhile isBlank = character :: rest → headerLead character rest = .item lead →
        start = offset + byteLength (characters.takeWhile isBlank) →
          HeaderStep depth offset characters depth (scanItem lead start character rest).offset
            (scanItem lead start character rest).rest

/-- The scan of a header meets a number at `place`, which begins with `first` and goes on in
`rest`. -/
inductive HeaderMeets :
    (depth offset : Nat) → List Char → (place : Nat) → (first : Char) → (rest : List Char) → Prop
  | here {depth offset : Nat} {characters rest : List Char} {first : Char} :
      characters.dropWhile isBlank = first :: rest → headerLead first rest = .item .number →
        HeaderMeets depth offset characters
          (offset + byteLength (characters.takeWhile isBlank)) first rest
  | later {depth offset nextDepth next place : Nat} {characters others rest : List Char}
      {first : Char} :
      HeaderStep depth offset characters nextDepth next others →
        HeaderMeets nextDepth next others place first rest →
          HeaderMeets depth offset characters place first rest

/-- Behind its sigil, which stands at `offset`, a macro call or a directive has a header that is
opened at `opener`. -/
inductive OpensHeader :
    (sigil : Char) → (offset : Nat) → List Char → (opener : Nat) → List Char → Prop
  | macroCall {offset : Nat} {characters inside : List Char} :
      dropName characters = '(' :: inside →
        OpensHeader '@' offset characters (offset + 1 + byteLength (takeName characters)) inside
  | directive {offset : Nat} {characters inside : List Char} {keyword : Keyword} :
      Keyword.ofWord? (String.ofList (takeName characters)) = some keyword →
        keyword.takesHeader → (dropName characters).dropWhile isPadding = '(' :: inside →
          OpensHeader '#' offset characters
            (offset + 1 + byteLength (takeName characters) +
              byteLength ((dropName characters).takeWhile isPadding)) inside

/-- The scan of a template meets a number in a header. -/
inductive MeetsNumber (trim : Bool) :
    (offset : Nat) → List Char → (place : Nat) → (first : Char) → (rest : List Char) → Prop
  | inHeader {offset start opener place : Nat} {characters after inside rest : List Char}
      {sigil first : Char} :
      (TextRun.ofFront characters).rest = sigil :: after →
        start = offset + byteLength (TextRun.ofFront characters).written →
          OpensHeader sigil start after opener inside →
            HeaderMeets 0 (opener + 1) inside place first rest →
              MeetsNumber trim offset characters place first rest
  | later {offset start place : Nat} {characters after rest : List Char} {sigil first : Char} :
      (TextRun.ofFront characters).rest = sigil :: after →
        start = offset + byteLength (TextRun.ofFront characters).written →
          MeetsNumber trim (scanSigil trim sigil start after).offset
            (scanSigil trim sigil start after).rest place first rest →
            MeetsNumber trim offset characters place first rest

/-- The tokens and reports that a written number gives. -/
structure WrittenNumber.Gives (number : WrittenNumber) (span : Span) (tokens : List Token)
    (reports : List Report) : Prop where
  integer : number.isInteger →
    -9223372036854775808 ≤ number.integer ∧ number.integer < 9223372036854775808 →
      (∃ value : Int64, value.toInt = number.integer ∧ tokens = [⟨.integer value, span⟩]) ∧
        reports = []
  beyond : number.isInteger →
    ¬(-9223372036854775808 ≤ number.integer ∧ number.integer < 9223372036854775808) →
      tokens = [] ∧ ∃ report, reports = [report] ∧ report.span = span ∧
        report.fault.code = "E0001"
  float : number.isInteger = false →
    (∃ rounded, tokens = [⟨.float rounded, span⟩] ∧
      Binary64.RoundedWithSign number.negative number.magnitude rounded) ∧ reports = []

theorem scanNumber_gives {number : WrittenNumber} {first : Char} {rest : List Char}
    (taken : NumberLiteral.IsTaken number first rest) (offset : Nat) :
    number.Gives ⟨offset, offset + byteLength number.characters⟩
      (scanNumber offset first rest).tokens (scanNumber offset first rest).reports := by
  have kind (isInteger : number.isInteger) : (NumberLiteral.ofFront first rest).kind? =
      (if fitsWord 64 number.integer then some (Int64.ofInt number.integer) else none).map
        .integer := by
    rw [NumberLiteral.kind?, taken.isInteger, isInteger, taken.characters, readWord?,
      number.readInteger?_characters isInteger]
    rfl
  unfold scanNumber
  dsimp only
  rw [taken.characters]
  refine ⟨fun isInteger inRange => ?_, fun isInteger beyond => ?_, fun notInteger => ?_⟩
  · rw [kind isInteger, if_pos ((fitsWord_64 _).mpr inRange)]
    exact ⟨⟨_, Int64.toInt_ofInt_of_le inRange.1 inRange.2, rfl⟩, rfl⟩
  · rw [kind isInteger, if_neg (mt (fitsWord_64 _).mp beyond)]
    exact ⟨rfl, _, rfl, rfl, rfl⟩
  · obtain ⟨rounded, reads, isRounded⟩ := number.readDecimal?_characters
    have kind : (NumberLiteral.ofFront first rest).kind? = some (.float rounded) := by
      rw [NumberLiteral.kind?, taken.isInteger, notInteger, taken.characters, reads]
      rfl
    rw [kind]
    exact ⟨⟨rounded, rfl, isRounded⟩, rfl⟩

/-- A span ends before another one starts, or starts after it has ended. -/
def Span.Apart (span other : Span) : Prop :=
  span.stop ≤ other.start ∨ other.stop ≤ span.start

/-- Of everything that a scan marks, these tokens and reports lie at a span, and everything else
lies apart from it. -/
def Scan.GivesAt (scan : Scan) (span : Span) (tokens : List Token) (reports : List Report) : Prop :=
  ∃ tokensBefore tokensAfter reportsBefore reportsAfter,
    scan.tokens = tokensBefore ++ (tokens ++ tokensAfter) ∧
    scan.reports = reportsBefore ++ (reports ++ reportsAfter) ∧
    (∀ token ∈ tokensBefore ++ tokensAfter, token.span.Apart span) ∧
    ∀ report ∈ reportsBefore ++ reportsAfter, report.span.Apart span

namespace Scan.GivesAt

variable {scan : Scan} {span : Span} {tokens : List Token} {reports : List Report}

theorem self (scan : Scan) (span : Span) : scan.GivesAt span scan.tokens scan.reports :=
  ⟨[], [], [], [], by simp, by simp, by simp, by simp⟩

theorem prepend (gives : scan.GivesAt span tokens reports) {front : List Token}
    {reported : List Report} (ofTokens : ∀ token ∈ front, token.span.Apart span)
    (ofReports : ∀ report ∈ reported, report.span.Apart span) :
    (scan.prepend front reported).GivesAt span tokens reports := by
  obtain ⟨before, after, reportsBefore, reportsAfter, split, reportsSplit, apart, reportsApart⟩ :=
    gives
  refine ⟨front ++ before, after, reported ++ reportsBefore, reportsAfter, ?_, ?_, ?_, ?_⟩
  · simp [Scan.prepend, split]
  · simp [Scan.prepend, reportsSplit]
  · rw [List.append_assoc]
    exact List.forall_mem_append.mpr ⟨ofTokens, apart⟩
  · rw [List.append_assoc]
    exact List.forall_mem_append.mpr ⟨ofReports, reportsApart⟩

theorem append (gives : scan.GivesAt span tokens reports) {further : Scan}
    (ofTokens : ∀ token ∈ further.tokens, token.span.Apart span)
    (ofReports : ∀ report ∈ further.reports, report.span.Apart span) :
    (further.prepend scan.tokens scan.reports).GivesAt span tokens reports := by
  obtain ⟨before, after, reportsBefore, reportsAfter, split, reportsSplit, apart, reportsApart⟩ :=
    gives
  refine ⟨before, after ++ further.tokens, reportsBefore, reportsAfter ++ further.reports,
    ?_, ?_, ?_, ?_⟩
  · simp [Scan.prepend, split]
  · simp [Scan.prepend, reportsSplit]
  · rw [← List.append_assoc]
    exact List.forall_mem_append.mpr ⟨apart, ofTokens⟩
  · rw [← List.append_assoc]
    exact List.forall_mem_append.mpr ⟨reportsApart, ofReports⟩

end Scan.GivesAt

/-- What is visible lies within the text. -/
theorem Span.VisibleIn.bounds {span : Span} {offset : Nat} {text : List Char}
    (visible : span.VisibleIn offset text) :
    offset ≤ span.start ∧ span.stop ≤ offset + byteLength text := by
  obtain ⟨gap, slice, rest, rfl, rfl, -⟩ := visible
  simp only [byteLength_append]
  omega

/-- Between two places of a header, the scan passes over a part of the text, and marks only what
lies in it. -/
theorem HeaderStep.scan {depth offset nextDepth next : Nat} {characters others : List Char}
    (step : HeaderStep depth offset characters nextDepth next others) (opener : Nat) :
    ∃ scan : Scan, scanHeader opener depth offset characters =
        (scanHeader opener nextDepth next others).prepend scan.tokens scan.reports ∧
      scan.offset = next ∧ scan.rest = others ∧
      scan.Visible (fun _ => False) offset characters := by
  have whole {start : Nat} {scan : Scan} {character : Char} {rest : List Char}
      (dropped : characters.dropWhile isBlank = character :: rest)
      (begins : start = offset + byteLength (characters.takeWhile isBlank))
      (visible : scan.Visible (fun _ => False) start (character :: rest)) :
      scan.Visible (fun _ => False) offset characters := by
    rw [← List.takeWhile_append_dropWhile (p := isBlank) (l := characters), dropped]
    exact visible.behind begins
  cases step with
  | opening dropped announced =>
      have visible := isLineEnd_of_not_isBlank (isBlank_of_dropWhile dropped)
      refine ⟨⟨[punctuationToken .leftParen _], [], _, _⟩, ?_, rfl, rfl,
        whole dropped rfl (.punctuation visible (utf8Size_opening announced))⟩
      rw [scanHeader_eq, dropped]
      simp only [scanHeaderFrom, announced]
  | closing dropped announced =>
      have visible := isLineEnd_of_not_isBlank (isBlank_of_dropWhile dropped)
      have ascii : Char.utf8Size _ = 1 :=
        (congrArg Char.utf8Size (headerLead_closing announced)).trans (by decide)
      refine ⟨⟨[punctuationToken .rightParen _], [], _, _⟩, ?_, rfl, rfl,
        whole dropped rfl (.punctuation visible ascii)⟩
      rw [scanHeader_eq, dropped]
      simp only [scanHeaderFrom, announced]
  | string dropped announced read =>
      have visible := isLineEnd_of_not_isBlank (isBlank_of_dropWhile dropped)
      refine ⟨⟨[⟨.string _, ⟨_, _⟩⟩], [], _, _⟩, ?_, rfl, rfl,
        whole dropped rfl (.string visible (utf8Size_quote announced) read)⟩
      rw [scanHeader_eq, dropped]
      simp only [scanHeaderFrom, announced, read]
  | item dropped announced begins =>
      refine ⟨scanItem _ _ _ _, ?_, rfl, rfl, whole dropped begins
        (scanItem_visible_of_headerLead _ (isBlank_of_dropWhile dropped) announced)⟩
      rw [scanHeader_eq, dropped]
      simp only [scanHeaderFrom, announced, begins]

/-- What is visible in a text before a place, or behind a span, lies apart from a span there. -/
theorem Scan.EverySpan.apart {scan : Scan} {span : Span} {offset : Nat} {text : List Char}
    (every : scan.EverySpan fun marked => marked.VisibleIn offset text ∨ marked.Apart span)
    (beside : offset + byteLength text ≤ span.start ∨ span.stop ≤ offset) :
    scan.EverySpan (·.Apart span) := by
  refine every.imp fun marked holds => holds.elim (fun visible => ?_) id
  obtain ⟨begins, ends⟩ := visible.bounds
  rcases beside with before | behind
  · exact .inl (ends.trans before)
  · exact .inr (behind.trans begins)

theorem HeaderMeets.passes {depth offset place : Nat} {characters rest : List Char} {first : Char}
    (meets : HeaderMeets depth offset characters place first rest) :
    itemLead first rest = .number ∧
      ∃ passed, characters = passed ++ first :: rest ∧ place = offset + byteLength passed := by
  induction meets with
  | @here depth offset characters rest first dropped announced =>
      refine ⟨(headerLead_item announced).symm, characters.takeWhile isBlank, ?_, rfl⟩
      rw [← dropped, List.takeWhile_append_dropWhile]
  | later step _ ih =>
      obtain ⟨announced, passed, rfl, rfl⟩ := ih
      obtain ⟨scan, -, next, left, others, split, reached, -⟩ := step.scan 0
      refine ⟨announced, others ++ passed, ?_, ?_⟩
      · rw [split, left, List.append_assoc]
      · rw [← next, reached, byteLength_append, Nat.add_assoc]

/-- The scan of a header that meets a number gives what the scan of the number gives, and marks
nothing else there. -/
theorem HeaderMeets.gives {depth offset place : Nat} {characters rest : List Char} {first : Char}
    (meets : HeaderMeets depth offset characters place first rest) {opener : Nat}
    (opened : opener + 1 ≤ offset) :
    (scanHeader opener depth offset characters).GivesAt
        ⟨place, (scanNumber place first rest).offset⟩ (scanNumber place first rest).tokens
        (scanNumber place first rest).reports ∧
      (scanNumber place first rest).offset ≤
        (scanHeader opener depth offset characters).offset := by
  induction meets with
  | @here depth offset characters rest first dropped announced =>
      generalize begins : offset + byteLength (characters.takeWhile isBlank) = start
      have same : scanHeader opener depth offset characters =
          (scanHeader opener depth (scanNumber start first rest).offset
            (scanNumber start first rest).rest).prepend (scanNumber start first rest).tokens
              (scanNumber start first rest).reports := by
        rw [scanHeader_eq, dropped, begins]
        simp only [scanHeaderFrom, announced]
        rfl
      obtain ⟨-, -, ahead, -⟩ := @scanNumber_visible (fun _ => False) start first rest
        (headerLead_item announced).symm
      obtain ⟨passed, -, reached, every⟩ := scanHeader_visible opener depth
        (scanNumber start first rest).offset (scanNumber start first rest).rest
      have apart : (scanHeader opener depth (scanNumber start first rest).offset
          (scanNumber start first rest).rest).EverySpan
            (·.Apart ⟨start, (scanNumber start first rest).offset⟩) := by
        refine Scan.EverySpan.apart (every.imp fun span holds => holds.imp_right ?_) (.inr le_rfl)
        rintro rfl
        exact .inl (show opener + 1 ≤ start by omega)
      rw [same]
      refine ⟨(Scan.GivesAt.self _ _).append apart.tokens apart.reports, ?_⟩
      exact (Nat.le_add_right _ _).trans_eq reached.symm
  | @later depth offset nextDepth next place characters others rest first step meets ih =>
      obtain ⟨scan, same, rfl, rfl, passed, -, reached, every⟩ := step.scan opener
      obtain ⟨-, front, -, begins⟩ := meets.passes
      obtain ⟨gives, ahead⟩ := ih (by omega)
      have apart : scan.EverySpan (·.Apart ⟨place, (scanNumber place first rest).offset⟩) :=
        .apart (every.imp fun span holds => holds.imp_right False.elim)
          (.inl (show offset + byteLength passed ≤ place by omega))
      rw [same]
      exact ⟨gives.prepend apart.tokens apart.reports, ahead⟩

theorem OpensHeader.passes {sigil : Char} {offset opener : Nat} {characters inside : List Char}
    (opens : OpensHeader sigil offset characters opener inside) :
    ∃ passed, sigil :: characters = passed ++ inside ∧
      opener + 1 = offset + byteLength passed := by
  have ascii : '('.utf8Size = 1 ∧ '@'.utf8Size = 1 ∧ '#'.utf8Size = 1 := by decide
  have split := takeName_append_dropName characters
  cases opens with
  | macroCall dropped =>
      refine ⟨'@' :: (takeName characters ++ ['(']), ?_, ?_⟩
      · rw [List.cons_append, List.append_assoc, List.singleton_append, ← dropped, split]
      · simp only [byteLength_cons, byteLength_append, byteLength_nil, ascii]
        omega
  | directive known takes dropped =>
      have padded := List.takeWhile_append_dropWhile (p := isPadding) (l := dropName characters)
      rw [dropped] at padded
      refine ⟨'#' :: (takeName characters ++ ((dropName characters).takeWhile isPadding ++ ['('])),
        ?_, ?_⟩
      · rw [List.cons_append, List.append_assoc, List.append_assoc, List.singleton_append, padded,
          split]
      · simp only [byteLength_cons, byteLength_append, byteLength_nil, ascii]
        omega

/-- A scan ends with that of a header, and marks only what is in front of it besides. -/
def Scan.HasHeader (scan : Scan) (opener : Nat) (inside : List Char) : Prop :=
  ∃ front : List Token,
    scan.tokens = front ++ (scanHeader opener 0 (opener + 1) inside).tokens ∧
    scan.reports = (scanHeader opener 0 (opener + 1) inside).reports ∧
    (scanHeader opener 0 (opener + 1) inside).offset ≤ scan.offset ∧
    ∀ token ∈ front, token.span.stop ≤ opener + 1

namespace Scan.HasHeader

variable {scan : Scan} {opener : Nat} {inside : List Char}

theorem optional (opener : Nat) (inside : List Char) :
    (scanOptionalHeader opener ('(' :: inside)).HasHeader opener inside :=
  ⟨[punctuationToken .leftParen opener], rfl, rfl, le_rfl, by simp [punctuationToken]⟩

theorem prepend (header : scan.HasHeader opener inside) {tokens : List Token}
    (before : ∀ token ∈ tokens, token.span.stop ≤ opener + 1) :
    (scan.prepend tokens []).HasHeader opener inside := by
  obtain ⟨front, split, reports, ahead, ends⟩ := header
  refine ⟨tokens ++ front, ?_, reports, ahead, List.forall_mem_append.mpr ⟨before, ends⟩⟩
  rw [List.append_assoc, ← split]
  rfl

theorem goOn (header : scan.HasHeader opener inside) {offset : Nat} (further : scan.offset ≤ offset)
    (rest : List Char) :
    (Scan.mk scan.tokens scan.reports offset rest).HasHeader opener inside := by
  obtain ⟨front, split, reports, ahead, ends⟩ := header
  exact ⟨front, split, reports, ahead.trans further, ends⟩

end Scan.HasHeader

/-- The scan of a macro call or a directive scans its header. -/
theorem OpensHeader.hasHeader {sigil : Char} {offset opener : Nat} {characters inside : List Char}
    (opens : OpensHeader sigil offset characters opener inside) (trim : Bool) :
    (scanSigil trim sigil offset characters).HasHeader opener inside := by
  cases opens with
  | macroCall dropped =>
      have header := Scan.HasHeader.optional (offset + 1 + byteLength (takeName characters)) inside
      rw [← dropped] at header
      exact header.prepend (by simp [scanMacroName])
  | @directive _ _ _ keyword known takes dropped =>
      have header := Scan.HasHeader.optional (offset + 1 + byteLength (takeName characters) +
        byteLength ((dropName characters).takeWhile isPadding)) inside
      have padded : scanKeywordHeader keyword (offset + 1 + byteLength (takeName characters))
          (dropName characters) = scanOptionalHeader (offset + 1 +
            byteLength (takeName characters) +
              byteLength ((dropName characters).takeWhile isPadding)) ('(' :: inside) := by
        rw [scanKeywordHeader, if_pos takes, scanPaddedHeader, dropped]
        rfl
      rw [← padded] at header
      obtain ⟨gap, -, trimmed⟩ := trimLineBreak_passes trim
        (scanKeywordHeader keyword (offset + 1 + byteLength (takeName characters))
          (dropName characters)).offset
        (scanKeywordHeader keyword (offset + 1 + byteLength (takeName characters))
          (dropName characters)).rest
      have same : scanSigil trim '#' offset characters = _ :=
        scanDirective_of_keyword trim offset known
      have word : ∀ token ∈ [directiveToken offset characters], token.span.stop ≤ offset + 1 +
          byteLength (takeName characters) +
            byteLength ((dropName characters).takeWhile isPadding) + 1 := by
        simp only [List.mem_singleton, forall_eq, directiveToken]
        omega
      rw [same]
      exact (header.prepend word).goOn ((Nat.le_add_right _ _).trans_eq trimmed.symm) _

theorem Scan.HasHeader.givesAt {scan : Scan} {opener : Nat} {inside : List Char}
    (header : scan.HasHeader opener inside) {span : Span} {tokens : List Token}
    {reports : List Report}
    (gives : (scanHeader opener 0 (opener + 1) inside).GivesAt span tokens reports)
    (opened : opener + 1 ≤ span.start) : scan.GivesAt span tokens reports := by
  obtain ⟨front, split, same, -, ends⟩ := header
  have whole := gives.prepend (fun token member => .inl ((ends token member).trans opened))
    (show ∀ report ∈ ([] : List Report), report.span.Apart span from by simp)
  unfold Scan.GivesAt
  rw [split, same]
  exact whole

theorem TextRun.stop_of_mem_tokens {run : TextRun} {offset : Nat} :
    ∀ token ∈ run.tokens offset, token.span.stop = offset + byteLength run.written := by
  unfold tokens
  split
  · simp
  · exact List.forall_mem_singleton.mpr rfl

/-- Behind literal text, the rest of a template is scanned from a macro call, a directive or a
path on. -/
theorem scanBody_of_rest (trim : Bool) (offset : Nat) {characters after : List Char} {sigil : Char}
    (runRest : (TextRun.ofFront characters).rest = sigil :: after) {start : Nat}
    (begins : start = offset + byteLength (TextRun.ofFront characters).written) :
    scanBody trim offset characters =
      ((scanBody trim (scanSigil trim sigil start after).offset
          (scanSigil trim sigil start after).rest).prepend
          (scanSigil trim sigil start after).tokens
          (scanSigil trim sigil start after).reports).prepend
        ((TextRun.ofFront characters).tokens offset) [] := by
  rw [scanBody_eq, runRest, begins]
  rfl

/-- Everything in a template stands behind its beginning. -/
theorem scanBody_apart (trim : Bool) {offset : Nat} (characters : List Char) {span : Span}
    (behind : span.stop ≤ offset) : (scanBody trim offset characters).EverySpan (·.Apart span) where
  tokens token member :=
    .inr (behind.trans ((scanBody_stands trim offset characters).offset_le token member).1)
  reports report member :=
    .inr (behind.trans ((scanBody_visible trim offset characters).2 report member).bounds.1)

/-- The scan of a template that meets a number gives what the scan of the number gives, and marks
nothing else there. -/
theorem MeetsNumber.gives {trim : Bool} {offset place : Nat} {characters rest : List Char}
    {first : Char} (meets : MeetsNumber trim offset characters place first rest) :
    (itemLead first rest = .number ∧
        ∃ passed, characters = passed ++ first :: rest ∧ place = offset + byteLength passed) ∧
      (scanBody trim offset characters).GivesAt ⟨place, (scanNumber place first rest).offset⟩
        (scanNumber place first rest).tokens (scanNumber place first rest).reports := by
  induction meets with
  | @inHeader offset start opener place characters after inside rest sigil first runRest begins
      opens meets =>
      have split := TextRun.written_append_rest characters
      rw [runRest] at split
      obtain ⟨announced, gap, isInside, isPlace⟩ := meets.passes
      obtain ⟨front, isFront, isOpener⟩ := opens.passes
      obtain ⟨gives, ahead⟩ := meets.gives le_rfl
      have header := opens.hasHeader trim
      have further : (scanHeader opener 0 (opener + 1) inside).offset ≤
          (scanSigil trim sigil start after).offset := by
        obtain ⟨-, -, -, further, -⟩ := header
        exact further
      refine ⟨⟨announced, (TextRun.ofFront characters).written ++ (front ++ gap), ?_, ?_⟩, ?_⟩
      · exact split.symm.trans (by rw [isFront, isInside]; simp)
      · rw [isPlace, isOpener, begins, byteLength_append, byteLength_append]
        omega
      · have behind : (scanBody trim (scanSigil trim sigil start after).offset
            (scanSigil trim sigil start after).rest).EverySpan
              (·.Apart ⟨place, (scanNumber place first rest).offset⟩) :=
          scanBody_apart trim _ (ahead.trans further)
        rw [scanBody_of_rest trim offset runRest begins]
        refine ((header.givesAt gives (show opener + 1 ≤ place by omega)).append behind.tokens
          behind.reports).prepend (fun token member => .inl ?_) (by simp)
        rw [TextRun.stop_of_mem_tokens token member, ← begins]
        exact show start ≤ place by omega
  | @later offset start place characters after rest sigil first runRest begins meets ih =>
      have split := TextRun.written_append_rest characters
      rw [runRest] at split
      obtain ⟨⟨announced, gap, isRest, isPlace⟩, gives⟩ := ih
      obtain ⟨passed, isPassed, reached, every⟩ := @scanSigil_visible (fun _ => False) trim sigil
        (TextRun.isSigil_of_rest runRest) start after (TextRun.startsWith_of_rest runRest)
      have before : (scanSigil trim sigil start after).EverySpan
          (·.Apart ⟨place, (scanNumber place first rest).offset⟩) :=
        .apart (every.imp fun span holds => holds.imp_right False.elim)
          (.inl (show start + byteLength passed ≤ place by omega))
      refine ⟨⟨announced, (TextRun.ofFront characters).written ++ (passed ++ gap), ?_, ?_⟩, ?_⟩
      · exact split.symm.trans (by rw [isPassed, isRest]; simp)
      · rw [isPlace, reached, begins, byteLength_append, byteLength_append]
        omega
      · rw [scanBody_of_rest trim offset runRest begins]
        refine (gives.prepend before.tokens before.reports).prepend
          (fun token member => .inl ?_) (by simp)
        rw [TextRun.stop_of_mem_tokens token member, ← begins]
        exact show start ≤ place by omega

/-- Wherever a number is met in a header of a template, the longest number that is written there
becomes what it denotes: one integer if it has neither a fraction nor an exponent and fits into
sixty-four bits, nothing but one report if it does not fit, and one floating-point number if it
has a fraction or an exponent, the nearest one or, where that is too large, infinity.  All other
tokens and reports lie apart from it. -/
theorem tokenize_number {trim : Bool} {text : String} {place : Nat} {first : Char}
    {rest : List Char} (meets : MeetsNumber trim 0 text.toList place first rest) :
    ∃ (number : WrittenNumber) (before following : List Char) (scan : Scan)
        (tokens : List Token) (reports : List Report),
      text.toList = before ++ (number.characters ++ following) ∧ byteLength before = place ∧
      number.characters ++ following = first :: rest ∧
      (∀ other : WrittenNumber, other.characters <+: number.characters ++ following →
        other.characters.length ≤ number.characters.length) ∧
      tokenize trim text = (scan.tokens, scan.reports) ∧
      scan.GivesAt ⟨place, place + byteLength number.characters⟩ tokens reports ∧
      number.Gives ⟨place, place + byteLength number.characters⟩ tokens reports := by
  obtain ⟨⟨announced, before, split, begins⟩, gives⟩ := meets.gives
  obtain ⟨number, taken⟩ := NumberLiteral.exists_isTaken (itemLead_begins announced)
  have whole := NumberLiteral.characters_append_rest first rest
  rw [taken.characters] at whole
  have stop : (scanNumber place first rest).offset = place + byteLength number.characters := by
    rw [← taken.characters]
    unfold scanNumber
    dsimp only
    split <;> rfl
  rw [stop] at gives
  refine ⟨number, before, _, _, _, _, ?_, ?_, whole, ?_, rfl, gives,
    scanNumber_gives taken place⟩
  · rw [split, whole]
  · rw [begins, Nat.zero_add]
  · rw [whole]
    exact taken.longest

/-- Twelve is met as the argument of a call. -/
theorem tokenize_number_twelve : MeetsNumber true 0 "@f(12)".toList 3 '1' ['2', ')'] ∧
    ∃ (number : WrittenNumber) (following : List Char) (tokens : List Token)
        (reports : List Report), number.characters ++ following = ['1', '2', ')'] ∧
      number.Gives ⟨3, 3 + byteLength number.characters⟩ tokens reports := by
  have header : HeaderMeets 0 3 ['1', '2', ')'] 3 '1' ['2', ')'] := .here (by decide) (by decide)
  have opens : OpensHeader '@' 0 ['f', '(', '1', '2', ')'] 2 ['1', '2', ')'] :=
    .macroCall (by decide)
  have meets : MeetsNumber true 0 "@f(12)".toList 3 '1' ['2', ')'] :=
    .inHeader (by decide) (by decide) opens header
  obtain ⟨number, _, following, _, tokens, reports, -, -, whole, -, -, -, gives⟩ :=
    tokenize_number meets
  exact ⟨meets, number, following, tokens, reports, whole, gives⟩

/-- Ten to the power 999 is infinity, and nothing is reported. -/
theorem infinite_number_unreported :
    tokenize true "@f(1e999)" =
      ([⟨.macroName "f", ⟨0, 2⟩⟩, ⟨.leftParen, ⟨2, 3⟩⟩,
        ⟨.float (Binary64.infinity false), ⟨3, 8⟩⟩, ⟨.rightParen, ⟨8, 9⟩⟩,
        ⟨.endOfInput, ⟨9, 9⟩⟩], []) ∧
      (Binary64.infinity false).isFinite = false := by
  decide +kernel

end Stencil
