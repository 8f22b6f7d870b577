import Stencil.Token.Scan

/-!
# Equations for scanning

What one step of each scanning loop does.  Nothing here says more than the
definitions do; the loops are unrolled once, so that they can be rewritten with.
-/

namespace Stencil

theorem scanPathPieces_eq (offset : Nat) (characters : List Char) :
    scanPathPieces offset characters =
      match readPathPiece? characters with
      | none => Scan.idle offset characters
      | some (piece, rest) =>
          (scanPathPieces (offset + piece.byteSize) rest).prepend
            (piece.scan offset).1 (piece.scan offset).2 := by
  rw [scanPathPieces]
  split <;> simp_all

def scanHeaderFrom (opener depth start : Nat) : List Char → Scan
  | [] => ⟨[], [⟨.unclosedDelimiter '(', ⟨opener, opener + 1⟩⟩], start, []⟩
  | character :: rest =>
      match headerLead character rest with
      | .opening =>
          (scanHeader opener (depth + 1) (start + 1) rest).prepend
            [punctuationToken .leftParen start] []
      | .closing =>
          match depth with
          | 0 => ⟨[punctuationToken .rightParen start], [], start + 1, rest⟩
          | depth + 1 =>
              (scanHeader opener depth (start + 1) rest).prepend
                [punctuationToken .rightParen start] []
      | .quote =>
          match readString? character rest with
          | none =>
              ⟨[], [⟨.unterminatedString character, ⟨start, start + 1⟩⟩],
                start + byteLength (character :: rest), []⟩
          | some body =>
              (scanHeader opener depth (start + 1 + byteLength body.written)
                body.rest).prepend
                [⟨.string (String.ofList body.content),
                  ⟨start, start + 1 + byteLength body.written⟩⟩] []
      | .item lead =>
          (scanHeader opener depth (scanItem lead start character rest).offset
            (scanItem lead start character rest).rest).prepend
            (scanItem lead start character rest).tokens
            (scanItem lead start character rest).reports

theorem scanHeader_eq (opener depth offset : Nat) (characters : List Char) :
    scanHeader opener depth offset characters =
      scanHeaderFrom opener depth
        (offset + byteLength (characters.takeWhile isBlank))
        (characters.dropWhile isBlank) := by
  rw [scanHeader]
  rcases characters.dropWhile isBlank with _ | ⟨character, rest⟩
  · rfl
  · dsimp only [scanHeaderFrom]
    cases headerLead character rest with
    | quote =>
        dsimp only
        cases readString? character rest <;> rfl
    | _ => rfl

/-- The header of a directive, if it takes one. -/
def scanKeywordHeader (keyword : Keyword) (offset : Nat) (characters : List Char) :
    Scan :=
  if keyword.takesHeader then scanPaddedHeader offset characters
  else Scan.idle offset characters

/-- The line break after a directive, if line breaks are trimmed. -/
def trimLineBreak (trim : Bool) (offset : Nat) (characters : List Char) :
    Nat × List Char :=
  if trim then skipLineBreak offset characters else (offset, characters)

def directiveToken (offset : Nat) (characters : List Char) : Token :=
  ⟨.directive (String.ofList (takeName characters)),
    ⟨offset, offset + 1 + byteLength (takeName characters)⟩⟩

theorem scanDirective_of_unknown (trim : Bool) (offset : Nat) {characters : List Char}
    (unknown : Keyword.ofWord? (String.ofList (takeName characters)) = none) :
    scanDirective trim offset characters =
      ⟨[directiveToken offset characters], [],
        offset + 1 + byteLength (takeName characters), dropName characters⟩ := by
  simp only [scanDirective, unknown]
  rfl

theorem scanDirective_of_keyword (trim : Bool) (offset : Nat) {characters : List Char}
    {keyword : Keyword}
    (known : Keyword.ofWord? (String.ofList (takeName characters)) = some keyword) :
    scanDirective trim offset characters =
      let header := scanKeywordHeader keyword
        (offset + 1 + byteLength (takeName characters)) (dropName characters)
      let trimmed := trimLineBreak trim header.offset header.rest
      ⟨directiveToken offset characters :: header.tokens, header.reports, trimmed.1,
        trimmed.2⟩ := by
  simp only [scanDirective, known]
  rfl

/-- The scan of a template from a place where literal text has ended. -/
def scanAfterText (trim : Bool) (start : Nat) : List Char → Scan
  | [] => ⟨[⟨.endOfInput, ⟨start, start⟩⟩], [], start, []⟩
  | sigil :: rest =>
      (scanBody trim (scanSigil trim sigil start rest).offset
        (scanSigil trim sigil start rest).rest).prepend
        (scanSigil trim sigil start rest).tokens
        (scanSigil trim sigil start rest).reports

theorem scanBody_eq (trim : Bool) (offset : Nat) (characters : List Char) :
    scanBody trim offset characters =
      (scanAfterText trim
        (offset + byteLength (TextRun.ofFront characters).written)
        (TextRun.ofFront characters).rest).prepend
        ((TextRun.ofFront characters).tokens offset) [] := by
  rw [scanBody]
  split
  · rename_i runRest
    rw [runRest]
    rfl
  · rename_i sigil rest runRest
    rw [runRest]
    simp [scanAfterText, Scan.prepend]

end Stencil
