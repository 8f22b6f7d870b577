import Stencil.Proofs.Moving
import Stencil.Proofs.ScanningSteps

/-!
# Scanning does not depend on where a text begins

A text that begins a distance further on has the same tokens and reports, that
distance further on.
-/

namespace Stencil

def Scan.moved (distance : Nat) (scan : Scan) : Scan :=
  ⟨scan.tokens.map (Token.moved distance), scan.reports.map (Report.moved distance),
    scan.offset + distance, scan.rest⟩

section Moved

variable (distance : Nat)

@[simp]
theorem Scan.moved_offset (scan : Scan) :
    (scan.moved distance).offset = scan.offset + distance :=
  rfl

@[simp]
theorem Scan.moved_rest (scan : Scan) : (scan.moved distance).rest = scan.rest :=
  rfl

@[simp]
theorem Scan.moved_tokens (scan : Scan) :
    (scan.moved distance).tokens = scan.tokens.map (Token.moved distance) :=
  rfl

@[simp]
theorem Scan.moved_reports (scan : Scan) :
    (scan.moved distance).reports = scan.reports.map (Report.moved distance) :=
  rfl

theorem Scan.prepend_moved (tokens : List Token) (reports : List Report)
    (scan : Scan) :
    (scan.moved distance).prepend (tokens.map (Token.moved distance))
      (reports.map (Report.moved distance)) =
        (scan.prepend tokens reports).moved distance := by
  simp [Scan.prepend, Scan.moved]

theorem punctuationToken_moved (kind : TokenKind) (offset : Nat) :
    punctuationToken kind (offset + distance) =
      (punctuationToken kind offset).moved distance := by
  simp only [punctuationToken, Token.moved, Span.moved, Token.mk.injEq, Span.mk.injEq,
    true_and]
  omega

theorem PathPiece.scan_moved (piece : PathPiece) (offset : Nat) :
    piece.scan (offset + distance) =
      ((piece.scan offset).1.map (Token.moved distance),
        (piece.scan offset).2.map (Report.moved distance)) := by
  have later : offset + distance + 1 = offset + 1 + distance := by omega
  cases piece with
  | field name =>
      simp [PathPiece.scan, punctuationToken_moved, Token.moved, Span.moved, later]
      omega
  | index digits =>
      have stop : offset + 1 + distance + byteLength digits =
          offset + 1 + byteLength digits + distance := by omega
      simp only [PathPiece.scan, punctuationToken_moved, later, stop]
      cases readWord? 64 digits <;>
        simp [Token.moved, Span.moved, Report.moved]

theorem scanPathPieces_moved (offset : Nat) (characters : List Char) :
    scanPathPieces (offset + distance) characters =
      (scanPathPieces offset characters).moved distance := by
  fun_induction scanPathPieces offset characters with
  | case1 offset characters read =>
      rw [scanPathPieces_eq, read]
      rfl
  | case2 offset characters piece rest read scanned ih =>
      have later : offset + distance + piece.byteSize =
          offset + piece.byteSize + distance := by omega
      rw [scanPathPieces_eq, read]
      dsimp only
      rw [later, ih, piece.scan_moved]
      exact Scan.prepend_moved distance _ _ _

theorem scanPath_moved (offset : Nat) (characters : List Char) :
    scanPath (offset + distance) characters =
      (scanPath offset characters).moved distance := by
  have later : offset + distance + 1 = offset + 1 + distance := by omega
  have stop : offset + 1 + distance + byteLength (takeName characters) =
      offset + 1 + byteLength (takeName characters) + distance := by omega
  simp only [scanPath, punctuationToken_moved, later, stop,
    scanPathPieces_moved distance]
  exact Scan.prepend_moved distance
    [punctuationToken .dollar offset,
      ⟨.name (String.ofList (takeName characters)),
        ⟨offset + 1, offset + 1 + byteLength (takeName characters)⟩⟩] [] _

theorem scanMacroName_moved (offset : Nat) (characters : List Char) :
    scanMacroName (offset + distance) characters =
      (scanMacroName offset characters).moved distance := by
  simp only [scanMacroName, Scan.moved, Token.moved, Span.moved, List.map_cons,
    List.map_nil, Scan.mk.injEq, List.cons.injEq, Token.mk.injEq, Span.mk.injEq,
    true_and, and_true]
  omega

theorem scanNumber_moved (offset : Nat) (first : Char) (rest : List Char) :
    scanNumber (offset + distance) first rest =
      (scanNumber offset first rest).moved distance := by
  have stop : offset + distance +
      byteLength (NumberLiteral.ofFront first rest).characters =
        offset + byteLength (NumberLiteral.ofFront first rest).characters +
          distance := by omega
  simp only [scanNumber, stop]
  cases (NumberLiteral.ofFront first rest).kind? <;>
    simp [Scan.moved, Token.moved, Span.moved, Report.moved]

theorem scanItem_moved (lead : ItemLead) (offset : Nat) (character : Char)
    (rest : List Char) :
    scanItem lead (offset + distance) character rest =
      (scanItem lead offset character rest).moved distance := by
  cases lead with
  | punctuation kind =>
      simp only [scanItem, punctuationToken_moved, Scan.moved, List.map_cons,
        List.map_nil, Scan.mk.injEq, true_and, and_true]
      omega
  | path => exact scanPath_moved distance offset rest
  | macroCall => exact scanMacroName_moved distance offset rest
  | number => exact scanNumber_moved distance offset character rest
  | word =>
      simp only [scanItem, scanWord, Scan.moved, Token.moved, Span.moved, List.map_cons,
        List.map_nil, Scan.mk.injEq, List.cons.injEq, Token.mk.injEq, Span.mk.injEq,
        true_and, and_true]
      omega
  | stray =>
      simp only [scanItem, scanStray, Scan.moved, Report.moved, Span.moved,
        List.map_cons, List.map_nil, Scan.mk.injEq, List.cons.injEq, Report.mk.injEq,
        Span.mk.injEq, true_and, and_true]
      omega

theorem scanHeader_moved (opener depth offset : Nat) (characters : List Char) :
    scanHeader (opener + distance) depth (offset + distance) characters =
      (scanHeader opener depth offset characters).moved distance := by
  have later : ∀ offset skipped : Nat,
      offset + distance + skipped = offset + skipped + distance := by
    intro offset skipped
    omega
  fun_induction scanHeader opener depth offset characters with
  | case1 depth offset characters start dropped =>
      rw [scanHeader_eq, dropped, later offset]
      simp [scanHeaderFrom, Scan.moved, Report.moved, Span.moved, start, later opener]
  | case2 depth offset characters start character rest dropped announced ih =>
      rw [scanHeader_eq, dropped, later offset, ← Scan.prepend_moved, ← ih]
      simp only [scanHeaderFrom, announced, List.map_cons, List.map_nil,
        ← punctuationToken_moved, later]
      rfl
  | case3 offset characters start character rest dropped announced =>
      rw [scanHeader_eq, dropped, later offset]
      simp [scanHeaderFrom, announced, Scan.moved, punctuationToken_moved, start, later]
  | case4 offset characters start character rest dropped announced depth ih =>
      rw [scanHeader_eq, dropped, later offset, ← Scan.prepend_moved, ← ih]
      simp only [scanHeaderFrom, announced, List.map_cons, List.map_nil,
        ← punctuationToken_moved, later]
      rfl
  | case5 depth offset characters start character rest dropped announced read =>
      rw [scanHeader_eq, dropped, later offset]
      simp [scanHeaderFrom, announced, read, Scan.moved, Report.moved, Span.moved, start,
        later]
  | case6 depth offset characters start character rest dropped announced body read stop
      ih =>
      rw [scanHeader_eq, dropped, later offset, ← Scan.prepend_moved, ← ih]
      simp only [scanHeaderFrom, announced, read, List.map_cons, List.map_nil,
        Token.moved, Span.moved, later]
      simp only [start, stop]
  | case7 depth offset characters start character rest dropped lead announced scan ih =>
      rw [scanHeader_eq, dropped, later offset, ← Scan.prepend_moved, ← ih]
      simp only [scanHeaderFrom, announced, scanItem_moved distance]
      rfl

theorem scanOptionalHeader_moved (offset : Nat) (characters : List Char) :
    scanOptionalHeader (offset + distance) characters =
      (scanOptionalHeader offset characters).moved distance := by
  have later : offset + distance + 1 = offset + 1 + distance := by omega
  unfold scanOptionalHeader
  split
  · rw [later, scanHeader_moved, punctuationToken_moved]
    exact Scan.prepend_moved distance [punctuationToken .leftParen offset] [] _
  · rfl

theorem scanMacroCall_moved (offset : Nat) (characters : List Char) :
    scanMacroCall (offset + distance) characters =
      (scanMacroCall offset characters).moved distance := by
  simp only [scanMacroCall, scanMacroName_moved, Scan.moved_offset, Scan.moved_rest,
    scanOptionalHeader_moved distance, Scan.moved_tokens, Scan.moved_reports,
    Scan.prepend_moved]

theorem scanPaddedHeader_moved (offset : Nat) (characters : List Char) :
    scanPaddedHeader (offset + distance) characters =
      (scanPaddedHeader offset characters).moved distance := by
  have later : offset + distance + byteLength (characters.takeWhile isPadding) =
      offset + byteLength (characters.takeWhile isPadding) + distance := by omega
  simp only [scanPaddedHeader, later, scanOptionalHeader_moved distance]
  split <;> rfl

theorem skipLineBreak_moved (offset : Nat) (characters : List Char) :
    skipLineBreak (offset + distance) characters =
      ((skipLineBreak offset characters).1 + distance,
        (skipLineBreak offset characters).2) := by
  unfold skipLineBreak
  split <;> simp only [Prod.mk.injEq, and_true] <;> omega

theorem scanKeywordHeader_moved (keyword : Keyword) (offset : Nat)
    (characters : List Char) :
    scanKeywordHeader keyword (offset + distance) characters =
      (scanKeywordHeader keyword offset characters).moved distance := by
  unfold scanKeywordHeader
  split
  · exact scanPaddedHeader_moved distance offset characters
  · rfl

theorem trimLineBreak_moved (trim : Bool) (offset : Nat) (characters : List Char) :
    trimLineBreak trim (offset + distance) characters =
      ((trimLineBreak trim offset characters).1 + distance,
        (trimLineBreak trim offset characters).2) := by
  cases trim with
  | false => rfl
  | true => exact skipLineBreak_moved distance offset characters

theorem scanDirective_moved (trim : Bool) (offset : Nat) (characters : List Char) :
    scanDirective trim (offset + distance) characters =
      (scanDirective trim offset characters).moved distance := by
  have stop : offset + distance + 1 + byteLength (takeName characters) =
      offset + 1 + byteLength (takeName characters) + distance := by omega
  have token : directiveToken (offset + distance) characters =
      (directiveToken offset characters).moved distance := by
    simp only [directiveToken, Token.moved, Span.moved, stop]
  cases known : Keyword.ofWord? (String.ofList (takeName characters)) with
  | none =>
      rw [scanDirective_of_unknown trim _ known, scanDirective_of_unknown trim _ known,
        token, stop]
      rfl
  | some keyword =>
      rw [scanDirective_of_keyword trim _ known, scanDirective_of_keyword trim _ known,
        token, stop]
      simp only [scanKeywordHeader_moved, Scan.moved_offset, Scan.moved_rest,
        trimLineBreak_moved]
      rfl

theorem scanSigil_moved (trim : Bool) (sigil : Char) (offset : Nat)
    (characters : List Char) :
    scanSigil trim sigil (offset + distance) characters =
      (scanSigil trim sigil offset characters).moved distance := by
  unfold scanSigil
  split
  · exact scanPath_moved distance offset characters
  · split
    · exact scanMacroCall_moved distance offset characters
    · exact scanDirective_moved distance trim offset characters

theorem TextRun.tokens_moved (run : TextRun) (offset : Nat) :
    run.tokens (offset + distance) = (run.tokens offset).map (Token.moved distance) := by
  unfold TextRun.tokens
  split
  · rfl
  · simp only [Token.moved, Span.moved, List.map_cons, List.map_nil, List.cons.injEq,
      Token.mk.injEq, Span.mk.injEq, true_and, and_true]
    omega

/-- A template that begins a distance further on has the same tokens and reports,
that distance further on. -/
theorem scanBody_moved (trim : Bool) (offset : Nat) (characters : List Char) :
    scanBody trim (offset + distance) characters =
      (scanBody trim offset characters).moved distance := by
  fun_induction scanBody trim offset characters with
  | case1 offset characters run start runRest =>
      have later : offset + distance + byteLength run.written = start + distance := by
        omega
      rw [scanBody_eq, later, runRest, TextRun.tokens_moved]
      simp [scanAfterText, Scan.prepend, Scan.moved, Token.moved, Span.moved, run]
  | case2 offset characters run start sigil rest runRest scan ih =>
      have later : offset + distance + byteLength run.written = start + distance := by
        omega
      rw [scanBody_eq, later, runRest, TextRun.tokens_moved, scanAfterText,
        scanSigil_moved]
      simp only [Scan.moved_offset, Scan.moved_rest, ← Scan.prepend_moved, ← ih]
      simp [Scan.prepend, scan, run]

theorem scanAfterText_moved (trim : Bool) (start : Nat) (characters : List Char) :
    scanAfterText trim (start + distance) characters =
      (scanAfterText trim start characters).moved distance := by
  cases characters with
  | nil => rfl
  | cons sigil rest =>
      simp only [scanAfterText, scanSigil_moved distance, Scan.moved_offset,
        Scan.moved_rest, scanBody_moved distance, Scan.moved_tokens, Scan.moved_reports,
        Scan.prepend_moved]

end Moved

end Stencil
