import Stencil.Proofs.OrderedTokens
import Stencil.Proofs.WrittenNumbers

/-!
# Spans with visible ends

Whatever a scan marks in a template, as a token or in a report, has characters of its own in
what it has passed over, and neither the first nor the last of them ends a line.  Only strings
go on over line breaks, between their quotes; a parenthesis that is never closed is reported at
the place where it was opened.
-/

namespace Stencil

/-- Whether a character is part of the end of a line. -/
def isLineEnd (character : Char) : Bool :=
  character == '\n' || character == '\r'

/-- There are characters, and neither the first nor the last one ends a line. -/
structure VisibleEnds (slice : List Char) : Prop where
  first : ∃ character rest, slice = character :: rest ∧ isLineEnd character = false
  last : ∃ front character, slice = front ++ [character] ∧ isLineEnd character = false

theorem VisibleEnds.of_all {slice : List Char} (nonempty : slice ≠ [])
    (all : ∀ character ∈ slice, isLineEnd character = false) : VisibleEnds slice where
  first := by
    obtain ⟨character, rest, rfl⟩ := List.exists_cons_of_ne_nil nonempty
    exact ⟨character, rest, rfl, all character List.mem_cons_self⟩
  last :=
    ⟨slice.dropLast, slice.getLast nonempty, (List.dropLast_append_getLast nonempty).symm,
      all _ (List.getLast_mem nonempty)⟩

theorem isLineEnd_of_not_isBlank {character : Char} (visible : isBlank character = false) :
    isLineEnd character = false := by
  simp only [isBlank, Bool.or_eq_false_iff] at visible
  simp [isLineEnd, visible]

theorem isLineEnd_of_isNameCharacter {character : Char} (isName : isNameCharacter character) :
    isLineEnd character = false := by
  refine Bool.eq_false_iff.mpr fun ends => ?_
  rcases (by simpa [isLineEnd] using ends : character = '\n' ∨ character = '\r') with rfl | rfl <;>
    cases isName

theorem isLineEnd_of_isDigit {character : Char} (isDigit : character.isDigit) :
    isLineEnd character = false := by
  refine isLineEnd_of_isNameCharacter ?_
  simp [isNameCharacter, Char.isAlphanum, isDigit]

theorem isLineEnd_of_mem_takeName {characters : List Char} :
    ∀ character ∈ takeName characters, isLineEnd character = false :=
  fun _ member => isLineEnd_of_isNameCharacter (List.all_eq_true.mp List.all_takeWhile _ member)

theorem VisibleEnds.single {character : Char} (visible : isLineEnd character = false) :
    VisibleEnds [character] :=
  .of_all (List.cons_ne_nil _ _) (List.forall_mem_singleton.mpr visible)

theorem VisibleEnds.sigilName {sigil : Char} (visible : isLineEnd sigil = false)
    (characters : List Char) : VisibleEnds (sigil :: takeName characters) :=
  .of_all (List.cons_ne_nil _ _) (List.forall_mem_cons.mpr ⟨visible, isLineEnd_of_mem_takeName⟩)

/-- In a text that begins at `offset`, a span covers characters with visible ends. -/
def Span.VisibleIn (span : Span) (offset : Nat) (text : List Char) : Prop :=
  ∃ gap slice rest, text = gap ++ (slice ++ rest) ∧
    span = ⟨offset + byteLength gap, offset + byteLength gap + byteLength slice⟩ ∧
    VisibleEnds slice

namespace Span.VisibleIn

variable {span : Span} {offset start : Nat} {text : List Char}

theorem whole {slice : List Char} (ends : VisibleEnds slice)
    (bytes : start = offset + byteLength slice) : (Span.mk offset start).VisibleIn offset slice :=
  ⟨[], slice, [], by simp, by simp [bytes], ends⟩

theorem append (visible : span.VisibleIn offset text) (more : List Char) :
    span.VisibleIn offset (text ++ more) := by
  obtain ⟨gap, slice, rest, rfl, place, ends⟩ := visible
  exact ⟨gap, slice, rest ++ more, by simp, place, ends⟩

theorem behind (visible : span.VisibleIn start text) {passed : List Char}
    (bytes : start = offset + byteLength passed) : span.VisibleIn offset (passed ++ text) := by
  obtain ⟨gap, slice, rest, rfl, place, ends⟩ := visible
  refine ⟨passed ++ gap, slice, rest, by simp, ?_, ends⟩
  rw [place, bytes, byteLength_append, Nat.add_assoc offset]

end Span.VisibleIn

/-- What holds of the spans of all tokens and of all reports. -/
structure Scan.EverySpan (scan : Scan) (holds : Span → Prop) : Prop where
  tokens : ∀ token ∈ scan.tokens, holds token.span
  reports : ∀ report ∈ scan.reports, holds report.span

theorem Scan.EverySpan.imp {scan : Scan} {holds implied : Span → Prop}
    (every : scan.EverySpan holds) (implies : ∀ span, holds span → implied span) :
    scan.EverySpan implied :=
  ⟨fun token member => implies _ (every.tokens token member),
    fun report member => implies _ (every.reports report member)⟩

/-- A scan marks only what is visible in the text that it has passed over, or places that were
`opened` earlier. -/
def Scan.Visible (opened : Span → Prop) (scan : Scan) (offset : Nat) (characters : List Char) :
    Prop :=
  ∃ passed, characters = passed ++ scan.rest ∧ scan.offset = offset + byteLength passed ∧
    scan.EverySpan fun span => span.VisibleIn offset passed ∨ opened span

namespace Scan.Visible

variable {opened : Span → Prop} {scan : Scan} {offset start : Nat} {characters : List Char}

theorem idle : (Scan.idle offset characters).Visible opened offset characters :=
  ⟨[], rfl, rfl, by simp [Scan.idle], by simp [Scan.idle]⟩

/-- What a scan marks are the characters that it passes over. -/
theorem single {slice rest : List Char} (ends : VisibleEnds slice)
    (split : slice ++ rest = characters) (bytes : start = offset + byteLength slice)
    {tokens : List Token} (ofTokens : ∀ token ∈ tokens, token.span = ⟨offset, start⟩)
    {reports : List Report} (ofReports : ∀ report ∈ reports, report.span = ⟨offset, start⟩) :
    (Scan.mk tokens reports start rest).Visible opened offset characters := by
  have visible := Span.VisibleIn.whole ends bytes
  refine ⟨slice, split.symm, bytes, fun token member => .inl ?_, fun report member => .inl ?_⟩
  · rwa [ofTokens token member]
  · rwa [ofReports report member]

theorem token {kind : TokenKind} {slice rest : List Char} (ends : VisibleEnds slice)
    (split : slice ++ rest = characters) (bytes : start = offset + byteLength slice) :
    (Scan.mk [⟨kind, ⟨offset, start⟩⟩] [] start rest).Visible opened offset characters :=
  .single ends split bytes (by simp) (by simp)

theorem punctuation {kind : TokenKind} {character : Char} {rest : List Char}
    (visible : isLineEnd character = false) (ascii : character.utf8Size = 1) :
    (Scan.mk [punctuationToken kind offset] [] (offset + 1) rest).Visible opened offset
      (character :: rest) :=
  .token (.single visible) rfl (by simp [ascii])

/-- A scan goes on where another one has ended. -/
theorem andThen {further : Scan} (visible : scan.Visible opened offset characters)
    (later : further.Visible opened scan.offset scan.rest) :
    (further.prepend scan.tokens scan.reports).Visible opened offset characters := by
  obtain ⟨passed, split, place, here⟩ := visible
  obtain ⟨others, rest, reached, there⟩ := later
  have here := here.imp fun span holds => holds.imp_left (·.append others)
  have there := there.imp fun span holds => holds.imp_left (·.behind place)
  refine ⟨passed ++ others, ?_, ?_, ?_, ?_⟩
  · rw [List.append_assoc, prepend_rest, ← rest, split]
  · rw [byteLength_append, ← Nat.add_assoc, ← place]
    exact reached
  · exact List.forall_mem_append.mpr ⟨here.tokens, there.tokens⟩
  · exact List.forall_mem_append.mpr ⟨here.reports, there.reports⟩

theorem behind {passed rest : List Char} (visible : scan.Visible opened start rest)
    (bytes : start = offset + byteLength passed) :
    scan.Visible opened offset (passed ++ rest) := by
  obtain ⟨others, rfl, reached, every⟩ := visible
  refine ⟨passed ++ others, by simp, ?_, every.imp fun span holds =>
    holds.imp_left (·.behind bytes)⟩
  rw [reached, bytes, byteLength_append, Nat.add_assoc]

/-- What a scan leaves can be passed over. -/
theorem skip {gap left : List Char} (visible : scan.Visible opened offset characters)
    (split : scan.rest = gap ++ left) (bytes : start = scan.offset + byteLength gap) :
    (Scan.mk scan.tokens scan.reports start left).Visible opened offset characters := by
  obtain ⟨passed, rfl, reached, every⟩ := visible
  refine ⟨passed ++ gap, by simp [split], ?_, fun token member => ?_, fun report member => ?_⟩
  · rw [bytes, reached, byteLength_append, Nat.add_assoc]
  · exact (every.tokens token member).imp_left (·.append gap)
  · exact (every.reports report member).imp_left (·.append gap)

end Scan.Visible

section Items

variable {opened : Span → Prop}

theorem readPathPiece?_visible {characters rest : List Char} {piece : PathPiece}
    (read : readPathPiece? characters = some (piece, rest)) : VisibleEnds piece.inside := by
  refine .of_all (readPathPiece?_inside read) ?_
  cases piece with
  | field name =>
      unfold readPathPiece? at read
      split at read
      · split at read
        · obtain ⟨rfl, -⟩ := by simpa using read
          exact isLineEnd_of_mem_takeName
        · cases read
      · split at read <;> cases read
      · cases read
  | index digits =>
      exact fun digit member => isLineEnd_of_isDigit (readPathPiece?_isDigit read digit member)

theorem PathPiece.scan_visible {piece : PathPiece} (ends : VisibleEnds piece.inside)
    (offset : Nat) (rest : List Char) :
    (Scan.mk (piece.scan offset).1 (piece.scan offset).2 (offset + piece.byteSize)
      rest).Visible opened offset (piece.written ++ rest) := by
  cases piece with
  | field name =>
      have dot : (Scan.mk [punctuationToken .dot offset] [] (offset + 1) (name ++ rest)).Visible
          opened offset ('.' :: (name ++ rest)) := .punctuation rfl (by decide)
      have bytes : offset + (1 + byteLength name) = offset + 1 + byteLength name := by omega
      rw [byteSize, bytes]
      exact dot.andThen (.token ends rfl rfl)
  | index digits =>
      have bracket : (Scan.mk [punctuationToken .leftBracket offset] [] (offset + 1)
          (digits ++ (']' :: rest))).Visible opened offset ('[' :: (digits ++ (']' :: rest))) :=
        .punctuation rfl (by decide)
      have index : (Scan.mk
          [⟨.integer ((readWord? 64 digits).getD greatestIndex),
            ⟨offset + 1, offset + 1 + byteLength digits⟩⟩] (scan (.index digits) offset).2
          (offset + 1 + byteLength digits) (']' :: rest)).Visible opened (offset + 1)
            (digits ++ (']' :: rest)) := by
        refine .single ends rfl rfl (List.forall_mem_singleton.mpr rfl) fun report member => ?_
        unfold scan at member
        dsimp only at member
        split at member
        · cases member
        · exact congrArg Report.span (List.mem_singleton.mp member)
      have closer : (Scan.mk [punctuationToken .rightBracket (offset + 1 + byteLength digits)] []
          (offset + 1 + byteLength digits + 1) rest).Visible opened
            (offset + 1 + byteLength digits) (']' :: rest) := .punctuation rfl (by decide)
      have bytes : offset + (2 + byteLength digits) = offset + 1 + byteLength digits + 1 := by
        omega
      have whole := (bracket.andThen index).andThen closer
      rw [byteSize, bytes]
      simpa [Scan.prepend, written, scan] using whole

theorem scanPathPieces_visible (offset : Nat) (characters : List Char) :
    (scanPathPieces offset characters).Visible opened offset characters := by
  fun_induction scanPathPieces offset characters with
  | case1 => exact .idle
  | case2 offset characters piece rest read scanned ih =>
      have own : (Scan.mk (piece.scan offset).1 (piece.scan offset).2 (offset + piece.byteSize)
          rest).Visible opened offset characters := by
        rw [readPathPiece?_eq_written read]
        exact piece.scan_visible (readPathPiece?_visible read) offset rest
      exact own.andThen ih

theorem scanPath_visible (offset : Nat) {characters : List Char}
    (starts : startsWith isNameStart characters) :
    (scanPath offset characters).Visible opened offset ('$' :: characters) := by
  have sigil : (Scan.mk [punctuationToken .dollar offset] [] (offset + 1) characters).Visible
      opened offset ('$' :: characters) := .punctuation rfl (by decide)
  have name : (Scan.mk [⟨.name (String.ofList (takeName characters)),
      ⟨offset + 1, offset + 1 + byteLength (takeName characters)⟩⟩] []
      (offset + 1 + byteLength (takeName characters)) (dropName characters)).Visible opened
        (offset + 1) characters :=
    .token (.of_all (takeName_ne_nil starts) isLineEnd_of_mem_takeName)
      (takeName_append_dropName characters) rfl
  exact (sigil.andThen name).andThen (scanPathPieces_visible _ _)

/-- A token shows its sigil and the name directly after it. -/
theorem Scan.Visible.sigilName {kind : TokenKind} {sigil : Char} {offset : Nat}
    {characters : List Char} (visible : isLineEnd sigil = false) (ascii : sigil.utf8Size = 1) :
    (Scan.mk [⟨kind, ⟨offset, offset + 1 + byteLength (takeName characters)⟩⟩] []
      (offset + 1 + byteLength (takeName characters)) (dropName characters)).Visible opened offset
        (sigil :: characters) := by
  have split : (sigil :: takeName characters) ++ dropName characters = sigil :: characters :=
    congrArg (sigil :: ·) (takeName_append_dropName characters)
  refine .token (.sigilName visible characters) split ?_
  rw [byteLength_cons, ascii, Nat.add_assoc]

theorem scanMacroName_visible (offset : Nat) (characters : List Char) :
    (scanMacroName offset characters).Visible opened offset ('@' :: characters) :=
  .sigilName rfl (by decide)

theorem WrittenNumber.visibleEnds (number : WrittenNumber) : VisibleEnds number.characters := by
  have ofDigits {digits : List Char} (isDigits : IsDigits digits) :
      ∀ digit ∈ digits, isLineEnd digit = false :=
    fun digit member => isLineEnd_of_isDigit (isDigits.2 digit member)
  have ofSign : ∀ sign ∈ minusSign number.negative, isLineEnd sign = false := by
    cases number.negative with
    | false => exact fun _ member => absurd member List.not_mem_nil
    | true => exact List.forall_mem_singleton.mpr rfl
  have ofFraction :
      ∀ character ∈ writtenFraction number.fraction?, isLineEnd character = false := by
    cases isFraction : number.fraction? with
    | none => exact fun _ member => absurd member List.not_mem_nil
    | some digits =>
        exact List.forall_mem_cons.mpr ⟨rfl, ofDigits (number.isFraction digits isFraction)⟩
  have ofExponent :
      ∀ character ∈ writtenExponent number.exponent?, isLineEnd character = false := by
    rcases number.exponent? with _ | ⟨mark, sign, digits, isMark, isSign, isDigits⟩
    · exact fun _ member => absurd member List.not_mem_nil
    · refine List.forall_mem_cons.mpr ⟨by rcases isMark with rfl | rfl <;> rfl, ?_⟩
      refine List.forall_mem_append.mpr ⟨?_, ofDigits isDigits⟩
      rcases isSign with rfl | ⟨sign, isSign, rfl⟩
      · exact fun _ member => absurd member List.not_mem_nil
      · have isSign : sign = '+' ∨ sign = '-' := by simpa using isSign
        rcases isSign with rfl | rfl <;> exact List.forall_mem_singleton.mpr rfl
  refine .of_all ?_ ?_
  · simp [characters, unsigned, number.isWhole.1]
  · simp only [characters, unsigned, List.forall_mem_append]
    exact ⟨ofSign, ofDigits number.isWhole, ofFraction, ofExponent⟩

theorem itemLead_begins {character : Char} {rest : List Char}
    (announced : itemLead character rest = .number) :
    character.isDigit ∨ character = '-' ∧ startsWith Char.isDigit rest := by
  unfold itemLead at announced
  split at announced
  · cases announced
  · repeat' split at announced
    all_goals first | cases announced; done | skip
    assumption

theorem scanNumber_visible (offset : Nat) {first : Char} {rest : List Char}
    (announced : itemLead first rest = .number) :
    (scanNumber offset first rest).Visible opened offset (first :: rest) := by
  obtain ⟨number, taken⟩ := NumberLiteral.exists_isTaken (itemLead_begins announced)
  have ends := number.visibleEnds
  rw [← taken.characters] at ends
  have split := NumberLiteral.characters_append_rest first rest
  unfold scanNumber
  dsimp only
  split
  · exact .token ends split rfl
  · exact .single ends split rfl (by simp) (by simp)

theorem isLineEnd_of_headerPunctuation? {character : Char} {kind : TokenKind}
    (found : headerPunctuation? character = some kind) : isLineEnd character = false := by
  unfold headerPunctuation? at found
  repeat' split at found
  all_goals first | cases found; done | (subst_vars; rfl)

/-- An item that begins with a character that is no blank is visible. -/
theorem scanItem_visible (offset : Nat) {character : Char} (notBlank : isBlank character = false)
    (rest : List Char) :
    (scanItem (itemLead character rest) offset character rest).Visible opened offset
      (character :: rest) := by
  cases announced : itemLead character rest with
  | punctuation kind =>
      have found := headerPunctuation?_of_itemLead announced
      exact .punctuation (isLineEnd_of_headerPunctuation? found)
        (utf8Size_of_headerPunctuation? found)
  | path =>
      rw [itemLead_path announced]
      exact scanPath_visible offset (itemLead_starts announced)
  | macroCall =>
      rw [itemLead_macroCall announced]
      exact scanMacroName_visible offset rest
  | number => exact scanNumber_visible offset announced
  | word =>
      have split : (character :: takeName rest) ++ dropName rest = character :: rest :=
        congrArg (character :: ·) (takeName_append_dropName rest)
      exact .token (.sigilName (isLineEnd_of_not_isBlank notBlank) rest) split rfl
  | stray =>
      exact .single (.single (isLineEnd_of_not_isBlank notBlank)) rfl rfl (by simp) (by simp)

end Items

theorem isBlank_of_dropWhile {characters rest : List Char} {character : Char}
    (dropped : characters.dropWhile isBlank = character :: rest) : isBlank character = false := by
  have := List.head?_dropWhile_not isBlank characters
  rw [dropped] at this
  simpa using this

/-- A string ends with the quote with which it begins. -/
theorem Scan.Visible.string {opened : Span → Prop} {start : Nat} {quote : Char}
    {rest : List Char} {body : StringBody} (visible : isLineEnd quote = false)
    (ascii : quote.utf8Size = 1) (read : readString? quote rest = some body) :
    (Scan.mk [⟨.string (String.ofList body.content), ⟨start, start + 1 + byteLength body.written⟩⟩]
      [] (start + 1 + byteLength body.written) body.rest).Visible opened start
        (quote :: rest) := by
  obtain ⟨written, isWritten, -⟩ := readString?_quotedAs read
  have ends : VisibleEnds (quote :: body.written) :=
    ⟨⟨quote, body.written, rfl, visible⟩,
      ⟨quote :: written, quote, by rw [isWritten]; rfl, visible⟩⟩
  refine .token ends ?_ ?_
  · rw [List.cons_append, ← readString?_written read]
  · rw [byteLength_cons, ascii, Nat.add_assoc]

theorem scanItem_visible_of_headerLead {opened : Span → Prop} (start : Nat) {character : Char}
    {rest : List Char} {lead : ItemLead} (notBlank : isBlank character = false)
    (announced : headerLead character rest = .item lead) :
    (scanItem lead start character rest).Visible opened start (character :: rest) := by
  rw [headerLead_item announced]
  exact scanItem_visible start notBlank rest

/-- What the scan of a header marks, apart from the place where the header was opened. -/
theorem scanHeader_visible (opener depth offset : Nat) (characters : List Char) :
    (scanHeader opener depth offset characters).Visible (· = ⟨opener, opener + 1⟩) offset
      characters := by
  fun_induction scanHeader opener depth offset characters with
  | case1 depth offset characters start dropped =>
      have split := List.takeWhile_append_dropWhile (p := isBlank) (l := characters)
      rw [dropped] at split
      exact ⟨characters.takeWhile isBlank, split.symm, rfl, by simp, by simp⟩
  | case2 depth offset characters start character rest dropped announced ih =>
      have visible := isLineEnd_of_not_isBlank (isBlank_of_dropWhile dropped)
      rw [← List.takeWhile_append_dropWhile (p := isBlank) (l := characters), dropped]
      exact ((Scan.Visible.punctuation visible (utf8Size_opening announced)).andThen ih).behind rfl
  | case3 offset characters start character rest dropped announced =>
      have isCloser := headerLead_closing announced
      rw [← List.takeWhile_append_dropWhile (p := isBlank) (l := characters), dropped, isCloser]
      exact (Scan.Visible.punctuation rfl (by decide)).behind rfl
  | case4 offset characters start character rest dropped announced depth ih =>
      have isCloser := headerLead_closing announced
      rw [← List.takeWhile_append_dropWhile (p := isBlank) (l := characters), dropped, isCloser]
      exact ((Scan.Visible.punctuation rfl (by decide)).andThen ih).behind rfl
  | case5 depth offset characters start character rest dropped announced read =>
      -- the quote is reported, and the rest of the text is passed over
      have visible := isLineEnd_of_not_isBlank (isBlank_of_dropWhile dropped)
      have ascii := utf8Size_quote announced
      rw [← List.takeWhile_append_dropWhile (p := isBlank) (l := characters), dropped]
      have quote : (Scan.mk [] [⟨.unterminatedString character, ⟨start, start + 1⟩⟩] (start + 1)
          rest).Visible (· = ⟨opener, opener + 1⟩) start (character :: rest) :=
        .single (.single visible) rfl (by simp [ascii]) (by simp) (by simp)
      have bytes : start + byteLength (character :: rest) = start + 1 + byteLength rest := by
        rw [byteLength_cons, ascii]
        omega
      exact (quote.skip (List.append_nil rest).symm bytes).behind rfl
  | case6 depth offset characters start character rest dropped announced body read stop ih =>
      have visible := isLineEnd_of_not_isBlank (isBlank_of_dropWhile dropped)
      have ascii := utf8Size_quote announced
      rw [← List.takeWhile_append_dropWhile (p := isBlank) (l := characters), dropped]
      exact ((Scan.Visible.string visible ascii read).andThen ih).behind rfl
  | case7 depth offset characters start character rest dropped lead announced scan ih =>
      have item : scan.Visible (· = ⟨opener, opener + 1⟩) start (character :: rest) :=
        scanItem_visible_of_headerLead start (isBlank_of_dropWhile dropped) announced
      rw [← List.takeWhile_append_dropWhile (p := isBlank) (l := characters), dropped]
      exact (item.andThen ih).behind rfl

variable {opened : Span → Prop}

/-- A header is opened by a parenthesis in front of it, which is visible. -/
theorem scanOptionalHeader_visible (offset : Nat) (characters : List Char) :
    (scanOptionalHeader offset characters).Visible opened offset characters := by
  unfold scanOptionalHeader
  split
  · rename_i rest
    obtain ⟨passed, split, reached, every⟩ := scanHeader_visible offset 0 (offset + 1) rest
    have ascii : '('.utf8Size = 1 := by decide
    have bytes : offset + 1 = offset + byteLength ['('] := by simp [ascii]
    have isOpener : (Span.mk offset (offset + 1)).VisibleIn offset ['('] :=
      .whole (.single rfl) bytes
    have seen (span : Span) (holds : span.VisibleIn (offset + 1) passed ∨
        span = ⟨offset, offset + 1⟩) : span.VisibleIn offset (['('] ++ passed) ∨ opened span := by
      rcases holds with visible | rfl
      · exact .inl (visible.behind bytes)
      · exact .inl (isOpener.append passed)
    have every := every.imp seen
    refine ⟨'(' :: passed, congrArg ('(' :: ·) split, ?_, ?_, every.reports⟩
    · rw [byteLength_cons, ascii, ← Nat.add_assoc]
      exact reached
    · exact List.forall_mem_cons.mpr ⟨.inl (isOpener.append passed), every.tokens⟩
  · exact .idle

theorem scanKeywordHeader_visible (keyword : Keyword) (offset : Nat) (characters : List Char) :
    (scanKeywordHeader keyword offset characters).Visible opened offset characters := by
  unfold scanKeywordHeader
  split
  · unfold scanPaddedHeader
    dsimp only
    split
    · have header := @scanOptionalHeader_visible opened
        (offset + byteLength (characters.takeWhile isPadding)) (characters.dropWhile isPadding)
      have bytes : offset + byteLength (characters.takeWhile isPadding) =
          offset + byteLength (characters.takeWhile isPadding) := rfl
      have padded := header.behind bytes
      rwa [List.takeWhile_append_dropWhile] at padded
    · exact .idle
  · exact .idle

theorem scanDirective_visible (trim : Bool) (offset : Nat) (characters : List Char) :
    (scanDirective trim offset characters).Visible opened offset ('#' :: characters) := by
  cases known : Keyword.ofWord? (String.ofList (takeName characters)) with
  | none =>
      rw [scanDirective_of_unknown trim offset known]
      exact .sigilName rfl (by decide)
  | some keyword =>
      rw [scanDirective_of_keyword trim offset known]
      have word : (Scan.mk [directiveToken offset characters] []
          (offset + 1 + byteLength (takeName characters)) (dropName characters)).Visible opened
            offset ('#' :: characters) := .sigilName rfl (by decide)
      have header := word.andThen (scanKeywordHeader_visible keyword _ _)
      obtain ⟨gap, split, bytes⟩ := trimLineBreak_passes trim
        (scanKeywordHeader keyword (offset + 1 + byteLength (takeName characters))
          (dropName characters)).offset
        (scanKeywordHeader keyword (offset + 1 + byteLength (takeName characters))
          (dropName characters)).rest
      exact header.skip split bytes

theorem scanSigil_visible (trim : Bool) {sigil : Char} (isSigil : isSigil sigil) (offset : Nat)
    {characters : List Char} (starts : startsWith isNameStart characters) :
    (scanSigil trim sigil offset characters).Visible opened offset (sigil :: characters) := by
  rcases eq_of_isSigil isSigil with rfl | rfl | rfl
  · exact scanPath_visible offset starts
  · exact (scanMacroName_visible offset characters).andThen (scanOptionalHeader_visible _ _)
  · exact scanDirective_visible trim offset characters

/-- In every template, all markup and everything that is reported is visible. -/
theorem scanBody_visible (trim : Bool) (offset : Nat) (characters : List Char) :
    (∀ token ∈ (scanBody trim offset characters).tokens, token.kind.isMarkup →
        token.span.VisibleIn offset characters) ∧
      ∀ report ∈ (scanBody trim offset characters).reports,
        report.span.VisibleIn offset characters := by
  have ofRun (offset : Nat) (run : TextRun) :
      ∀ token ∈ run.tokens offset, token.kind.isMarkup = false := by
    unfold TextRun.tokens
    split
    · simp
    · exact List.forall_mem_singleton.mpr rfl
  fun_induction scanBody trim offset characters with
  | case1 offset characters run start runRest =>
      refine ⟨List.forall_mem_append.mpr ⟨fun token member isMarkup => ?_, ?_⟩, by simp⟩
      · rw [ofRun offset run token member] at isMarkup
        cases isMarkup
      · exact List.forall_mem_singleton.mpr fun isMarkup => absurd isMarkup Bool.false_ne_true
  | case2 offset characters run start sigil rest runRest scan ih =>
      have split := TextRun.written_append_rest characters
      rw [show (TextRun.ofFront characters).rest = sigil :: rest from runRest] at split
      have scanned : scan.Visible (fun _ => False) start (sigil :: rest) :=
        scanSigil_visible trim (TextRun.isSigil_of_rest runRest) start
          (TextRun.startsWith_of_rest runRest)
      obtain ⟨passed, left, reached, every⟩ := scanned.behind (show start = _ from rfl)
      have here := every.imp fun span holds =>
        (holds.resolve_right id).append scan.rest
      rw [← left, split] at here
      have there (span : Span) (visible : span.VisibleIn scan.offset scan.rest) :
          span.VisibleIn offset characters := by
        rw [← split, left]
        exact visible.behind reached
      refine ⟨?_, ?_⟩
      · refine List.forall_mem_append.mpr ⟨List.forall_mem_append.mpr ⟨?_, ?_⟩, ?_⟩
        · intro token member isMarkup
          rw [ofRun offset run token member] at isMarkup
          cases isMarkup
        · exact fun token member _ => here.tokens token member
        · exact fun token member isMarkup => there _ (ih.1 token member isMarkup)
      · exact List.forall_mem_append.mpr
          ⟨here.reports, fun report member => there _ (ih.2 report member)⟩

end Stencil
