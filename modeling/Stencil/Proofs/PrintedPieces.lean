import Stencil.Proofs.PrintedExpressions
import Stencil.Proofs.TextRuns

/-!
# Scanning printed pieces

Outside headers, printed text, paths, calls and directives are scanned one by one, as
long as none of them goes on with what stands after it.
-/

namespace Stencil

/-- A text that is empty or begins with a path, a call or a directive. -/
def BeginsPiece (characters : List Char) : Prop :=
  characters = [] ∨ ∃ sigil next rest, characters = sigil :: next :: rest ∧
    startsDirective sigil next

theorem startsDirective_sigil {sigil next : Char} (starts : startsDirective sigil next) :
    isSigil sigil ∧ next ≠ sigil := by
  unfold startsDirective at starts
  by_cases directive : sigil = '#'
  · rw [if_pos directive] at starts
    subst directive
    exact ⟨by decide, ne_of_class starts '#' (by decide)⟩
  · rw [if_neg directive, Bool.and_eq_true] at starts
    refine ⟨starts.1, ?_⟩
    rintro rfl
    have noStart := ne_of_class starts.2
    simp [isSigil, noStart '$' (by decide), noStart '@' (by decide), directive] at starts

theorem ofFront_of_beginsPiece {characters : List Char} (begins : BeginsPiece characters) :
    TextRun.ofFront characters = ⟨[], [], characters⟩ := by
  rcases begins with rfl | ⟨sigil, next, rest, rfl, starts⟩
  · rfl
  · obtain ⟨-, different⟩ := startsDirective_sigil starts
    simp [TextRun.ofFront, different, starts]

/-- Literal text is read back from its written form. -/
theorem ofFront_writtenText (content : List Char) {following : List Char}
    (begins : BeginsPiece following) :
    TextRun.ofFront (writtenText content ++ following) =
      ⟨content, writtenText content, following⟩ := by
  induction content with
  | nil => exact ofFront_of_beginsPiece begins
  | cons character content ih =>
      by_cases sigil : isSigil character
      · rw [writtenText_sigil sigil, List.cons_append, List.cons_append, TextRun.ofFront,
          if_pos ⟨sigil, rfl⟩, ih]
        rfl
      · have plain : isSigil character = false := Bool.eq_false_iff.mpr sigil
        rw [writtenText_plain plain, List.cons_append, TextRun.ofFront_cons plain, ih]
        rfl

theorem scanBody_of_beginsPiece (trim : Bool) (offset : Nat) {characters : List Char}
    (begins : BeginsPiece characters) :
    scanBody trim offset characters = scanAfterText trim offset characters := by
  rw [scanBody_eq, ofFront_of_beginsPiece begins]
  simp [TextRun.tokens, Scan.prepend]

/-- Literal text is one token. -/
theorem scansInto_text {content : List Char} (nonempty : content ≠ []) (offset : Nat)
    {following : List Char} (begins : BeginsPiece following) :
    ScansInto (scanBody false) (scanAfterText false) offset (writtenText content)
      following [⟨.text (String.ofList content),
        ⟨offset, offset + byteLength (writtenText content)⟩⟩] := by
  rw [ScansInto, scanBody_eq, ofFront_writtenText content begins]
  simp [TextRun.tokens, nonempty]

/-- The scan of a text outside headers reads a piece, and goes on after it. -/
def PieceScans (offset : Nat) (own following : List Char) (tokens : List Token) : Prop :=
  ScansInto (scanAfterText false) (scanBody false) offset own following tokens

theorem scanSigil_macroCall (trim : Bool) (offset : Nat) (characters : List Char) :
    scanSigil trim '@' offset characters = scanMacroCall offset characters := by
  rw [scanSigil, if_neg (by decide), if_pos rfl]

theorem scanSigil_directive (trim : Bool) (offset : Nat) (characters : List Char) :
    scanSigil trim '#' offset characters = scanDirective trim offset characters := by
  rw [scanSigil, if_neg (by decide), if_neg (by decide)]

theorem scansInto_of_scanSigil {trim : Bool} {sigil : Char} {offset : Nat}
    {own following : List Char} {tokens : List Token}
    (scan : scanSigil trim sigil offset (own ++ following) =
      ⟨tokens, [], offset + byteLength (sigil :: own), following⟩) :
    ScansInto (scanAfterText trim) (scanBody trim) offset (sigil :: own) following
      tokens := by
  rw [ScansInto, List.cons_append, scanAfterText, scan]

theorem PieceScans.path {path : VariablePath} (wellFormed : path.wellFormed)
    (offset : Nat) {following : List Char} (ends : path.endsBefore following) :
    ∃ tokens, PieceScans offset path.text.toList following tokens ∧
      (Expression.path path ⟨offset, offset + byteLength path.text.toList⟩).SpelledBy
        tokens := by
  obtain ⟨tokens, scan, spelled⟩ := scanPath_printed wellFormed ends offset
  refine ⟨tokens, ?_, spelled⟩
  rw [VariablePath.text_toList] at scan ⊢
  apply scansInto_of_scanSigil
  rw [List.append_assoc]
  exact scan

/-- A header that directly follows is scanned up to its closing parenthesis. -/
theorem scanOptionalHeader_of_headerScans {offset : Nat} {inside following : List Char}
    {tokens : List Token}
    (scans : HeaderScans (offset + 1) inside (')' :: following) tokens) :
    scanOptionalHeader offset ('(' :: (inside ++ ')' :: following)) =
      ⟨punctuationToken .leftParen offset :: (tokens ++
        [punctuationToken .rightParen (offset + 1 + byteLength inside)]), [],
        offset + 1 + byteLength inside + 1, following⟩ := by
  rw [scanOptionalHeader, scans, scanHeader_closesHeader]
  simp [Scan.prepend]

theorem scansInto_call (trim : Bool) {name : String} (proper : isName name) (offset : Nat)
    {inside following : List Char} {tokens : List Token}
    (scans : HeaderScans (offset + 1 + byteLength name.toList + 1) inside
      (')' :: following) tokens) :
    ∃ nameSpan openSpan closeSpan,
      ScansInto (scanAfterText trim) (scanBody trim) offset
        ('@' :: (name.toList ++ '(' :: (inside ++ [')']))) following
        (⟨.macroName name, nameSpan⟩ :: ⟨.leftParen, openSpan⟩ ::
          (tokens ++ [⟨.rightParen, closeSpan⟩])) := by
  obtain ⟨first, rest, split, starts, all⟩ := exists_of_isName proper
  obtain ⟨taken, dropped⟩ := takeName_append_of_stops (split ▸ all)
    (show startsWith isNameCharacter ('(' :: (inside ++ ')' :: following)) = false from rfl)
  let stop := offset + 1 + byteLength name.toList
  let close := stop + 1 + byteLength inside
  have text : name.toList ++ '(' :: (inside ++ [')']) ++ following =
      name.toList ++ '(' :: (inside ++ ')' :: following) := by
    simp
  have bytes : offset + byteLength ('@' :: (name.toList ++ '(' :: (inside ++ [')']))) =
      close + 1 := by
    simp [close, stop, show '@'.utf8Size = 1 by decide, show '('.utf8Size = 1 by decide,
      show ')'.utf8Size = 1 by decide]
    omega
  refine ⟨⟨offset, stop⟩, ⟨stop, stop + 1⟩, ⟨close, close + 1⟩, scansInto_of_scanSigil ?_⟩
  rw [text, bytes, scanSigil_macroCall, scanMacroCall, scanMacroName, taken, dropped,
    scanOptionalHeader_of_headerScans scans]
  simp [Scan.prepend, punctuationToken, stop, close]

theorem Keyword.word_isName (keyword : Keyword) :
    ∀ character ∈ keyword.word.toList, isNameCharacter character := by
  apply List.all_eq_true.mp
  cases keyword <;> decide

theorem Keyword.ofWord?_word (keyword : Keyword) :
    Keyword.ofWord? keyword.word = some keyword := by
  cases keyword <;> rfl

def Keyword.token (keyword : Keyword) (offset : Nat) : Token :=
  ⟨keyword.kind, ⟨offset, offset + byteLength keyword.written⟩⟩

/-- A directive is scanned together with its header, and a line break may be trimmed. -/
theorem scanDirective_keyword (trim : Bool) (keyword : Keyword) (offset : Nat)
    {following : List Char} (ends : wordEndsBefore following) :
    scanDirective trim offset (keyword.word.toList ++ following) =
      let header :=
        scanKeywordHeader keyword (offset + byteLength keyword.written) following
      let trimmed := trimLineBreak trim header.offset header.rest
      ⟨keyword.token offset :: header.tokens, header.reports, trimmed.1, trimmed.2⟩ := by
  have stops : startsWith isNameCharacter following = false := by
    simpa [wordEndsBefore] using ends
  obtain ⟨taken, dropped⟩ := takeName_append_of_stops keyword.word_isName stops
  have known : Keyword.ofWord? (String.ofList
      (takeName (keyword.word.toList ++ following))) = some keyword := by
    rw [taken, String.ofList_toList, keyword.ofWord?_word]
  have bytes : offset + 1 + byteLength keyword.word.toList =
      offset + byteLength keyword.written := by
    simp [Keyword.written, show '#'.utf8Size = 1 by decide, Nat.add_assoc]
  rw [scanDirective_of_keyword trim offset known, directiveToken, taken, dropped, bytes]
  simp [Keyword.token, Keyword.kind, ← bytes]

/-- A directive without a header. -/
theorem scanAfterText_keyword (trim : Bool) {keyword : Keyword}
    (plain : keyword.takesHeader = false) (offset : Nat) {following : List Char}
    (ends : wordEndsBefore following) :
    scanAfterText trim offset (keyword.written ++ following) =
      let trimmed := trimLineBreak trim (offset + byteLength keyword.written) following
      (scanBody trim trimmed.1 trimmed.2).prepend [keyword.token offset] [] := by
  rw [Keyword.written, List.cons_append, scanAfterText, scanSigil_directive,
    scanDirective_keyword trim keyword offset ends, scanKeywordHeader, plain]
  rfl

theorem PieceScans.keyword {keyword : Keyword} (plain : keyword.takesHeader = false)
    (offset : Nat) {following : List Char} (ends : wordEndsBefore following) :
    PieceScans offset keyword.written following [keyword.token offset] :=
  scanAfterText_keyword false plain offset ends

/-- A directive with its header. -/
theorem scanAfterText_header (trim : Bool) {keyword : Keyword} (takes : keyword.takesHeader)
    {offset : Nat} {inside own following : List Char} {tokens : List Token}
    (prints : HeaderPrintedAs keyword inside own)
    (scans : HeaderScans (offset + byteLength keyword.written + 2) inside
      (')' :: following) tokens) :
    ∃ openSpan closeSpan,
      scanAfterText trim offset (own ++ following) =
        let trimmed := trimLineBreak trim (offset + byteLength own) following
        (scanBody trim trimmed.1 trimmed.2).prepend
          (keyword.token offset :: ⟨.leftParen, openSpan⟩ ::
            (tokens ++ [⟨.rightParen, closeSpan⟩])) [] := by
  obtain rfl : own = '#' :: (keyword.word.toList ++ ' ' :: '(' :: (inside ++ [')'])) :=
    prints
  let start := offset + byteLength keyword.written + 1
  let close := start + 1 + byteLength inside
  have bytes : offset + byteLength ('#' :: (keyword.word.toList ++
      ' ' :: '(' :: (inside ++ [')']))) = close + 1 := by
    simp [close, start, Keyword.written, show ' '.utf8Size = 1 by decide,
      show '('.utf8Size = 1 by decide, show ')'.utf8Size = 1 by decide]
    omega
  have text : keyword.word.toList ++ ' ' :: '(' :: (inside ++ [')']) ++ following =
      keyword.word.toList ++ (' ' :: '(' :: (inside ++ ')' :: following)) := by
    simp
  have header : scanPaddedHeader (offset + byteLength keyword.written)
      (' ' :: '(' :: (inside ++ ')' :: following)) =
        scanOptionalHeader start ('(' :: (inside ++ ')' :: following)) :=
    rfl
  refine ⟨⟨start, start + 1⟩, ⟨close, close + 1⟩, ?_⟩
  rw [bytes, List.cons_append, scanAfterText, scanSigil_directive, text,
    scanDirective_keyword trim keyword offset rfl, scanKeywordHeader, if_pos takes, header,
    scanOptionalHeader_of_headerScans scans]
  simp [punctuationToken, start, close]

theorem PieceScans.header {keyword : Keyword} (takes : keyword.takesHeader)
    {offset : Nat} {inside own following : List Char} {tokens : List Token}
    (prints : HeaderPrintedAs keyword inside own)
    (scans : HeaderScans (offset + byteLength keyword.written + 2) inside
      (')' :: following) tokens) :
    ∃ openSpan closeSpan,
      PieceScans offset own following (keyword.token offset :: ⟨.leftParen, openSpan⟩ ::
        (tokens ++ [⟨.rightParen, closeSpan⟩])) :=
  scanAfterText_header false takes prints scans

end Stencil
