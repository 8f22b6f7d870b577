import Stencil.Proofs.HeaderLocal

/-!
# Scanning accounts for every byte

Whatever is scanned, the offset that is reached and the bytes of the text that is
left add up to the end of the text.
-/

namespace Stencil

theorem byteLength_takeWhile_add (class? : Char → Bool) (characters : List Char) :
    byteLength (characters.takeWhile class?) + byteLength (characters.dropWhile class?) =
      byteLength characters := by
  rw [← byteLength_append, List.takeWhile_append_dropWhile]

theorem byteLength_takeName_add (characters : List Char) :
    byteLength (takeName characters) + byteLength (dropName characters) =
      byteLength characters :=
  byteLength_takeWhile_add isNameCharacter characters

/-- The end of the text from which a scan was made. -/
def Scan.end (scan : Scan) : Nat :=
  scan.offset + byteLength scan.rest

@[simp]
theorem Scan.end_prepend (tokens : List Token) (reports : List Report) (scan : Scan) :
    (scan.prepend tokens reports).end = scan.end :=
  rfl

theorem byteLength_of_readPathPiece? {characters rest : List Char} {piece : PathPiece}
    (read : readPathPiece? characters = some (piece, rest)) :
    piece.byteSize + byteLength rest = byteLength characters := by
  unfold readPathPiece? at read
  split at read
  · rename_i tail
    split at read
    · obtain ⟨rfl, rfl⟩ := by simpa using read
      have := byteLength_takeName_add tail
      have : '.'.utf8Size = 1 := by decide
      simp only [PathPiece.byteSize, byteLength_cons]
      omega
    · simp at read
  · rename_i tail
    split at read
    · rename_i digit digits after taken dropped
      obtain ⟨rfl, rfl⟩ := by simpa using read
      have := byteLength_takeWhile_add Char.isDigit tail
      have : '['.utf8Size = 1 := by decide
      have : ']'.utf8Size = 1 := by decide
      rw [taken, dropped] at *
      simp only [PathPiece.byteSize, byteLength_cons] at *
      omega
    · simp at read
  · simp at read

theorem scanPathPieces_end (offset : Nat) (characters : List Char) :
    (scanPathPieces offset characters).end = offset + byteLength characters := by
  fun_induction scanPathPieces offset characters with
  | case1 => rfl
  | case2 offset characters piece rest read scanned ih =>
      have := byteLength_of_readPathPiece? read
      rw [Scan.end_prepend, ih]
      omega

theorem scanPath_end (offset : Nat) (characters : List Char) :
    (scanPath offset characters).end = offset + 1 + byteLength characters := by
  have := byteLength_takeName_add characters
  simp only [scanPath, Scan.end_prepend, scanPathPieces_end]
  omega

theorem scanMacroName_end (offset : Nat) (characters : List Char) :
    (scanMacroName offset characters).end = offset + 1 + byteLength characters := by
  have := byteLength_takeName_add characters
  simp only [scanMacroName, Scan.end]
  omega

theorem byteLength_add_drop {front text : List Char} (isPrefix : front <+: text) :
    byteLength front + byteLength (text.drop front.length) = byteLength text := by
  obtain ⟨rest, rfl⟩ := isPrefix
  rw [List.drop_left, byteLength_append]

theorem NumberLiteral.byteLength_ofFront (first : Char) (text : List Char) :
    byteLength (ofFront first text).characters + byteLength (ofFront first text).rest =
      first.utf8Size + byteLength text := by
  let afterDigits := text.dropWhile Char.isDigit
  have digits := byteLength_takeWhile_add Char.isDigit text
  have fractionBytes := byteLength_add_drop (fraction_isPrefix afterDigits)
  have exponentBytes := byteLength_add_drop
    (exponent_isPrefix (afterDigits.drop (fraction afterDigits).length))
  simp only [ofFront, List.cons_append, byteLength_cons, byteLength_append]
  simp only [afterDigits] at fractionBytes exponentBytes
  omega

theorem scanNumber_end (offset : Nat) (first : Char) (rest : List Char) :
    (scanNumber offset first rest).end =
      offset + (first.utf8Size + byteLength rest) := by
  have := NumberLiteral.byteLength_ofFront first rest
  unfold scanNumber
  dsimp only
  split <;> simp only [Scan.end] <;> omega

theorem utf8Size_of_headerPunctuation? {character : Char} {kind : TokenKind}
    (found : headerPunctuation? character = some kind) : character.utf8Size = 1 := by
  unfold headerPunctuation? at found
  repeat' split at found
  all_goals first | cases found; done | (subst_vars; decide)

theorem itemLead_path {character : Char} {rest : List Char}
    (announced : itemLead character rest = .path) : character = '$' := by
  unfold itemLead at announced
  split at announced
  · cases announced
  · repeat' split at announced
    all_goals first | cases announced; done | skip
    rename_i isPath
    exact isPath.1

theorem itemLead_macroCall {character : Char} {rest : List Char}
    (announced : itemLead character rest = .macroCall) : character = '@' := by
  unfold itemLead at announced
  split at announced
  · cases announced
  · repeat' split at announced
    all_goals first | cases announced; done | skip
    rename_i isMacro
    exact isMacro.1

theorem scanItem_end (offset : Nat) (character : Char) (rest : List Char) :
    (scanItem (itemLead character rest) offset character rest).end =
      offset + (character.utf8Size + byteLength rest) := by
  cases announced : itemLead character rest with
  | punctuation kind =>
      have := utf8Size_of_headerPunctuation? (headerPunctuation?_of_itemLead announced)
      simp only [scanItem, Scan.end]
      omega
  | path =>
      have isSigil := itemLead_path announced
      have : '$'.utf8Size = 1 := by decide
      simp only [scanItem, scanPath_end, isSigil]
      omega
  | macroCall =>
      have isSigil := itemLead_macroCall announced
      have : '@'.utf8Size = 1 := by decide
      simp only [scanItem, scanMacroName_end, isSigil]
      omega
  | number => exact scanNumber_end offset character rest
  | word =>
      have := byteLength_takeName_add rest
      simp only [scanItem, scanWord, Scan.end, byteLength_cons]
      omega
  | stray =>
      simp only [scanItem, scanStray, Scan.end]
      omega

theorem byteLength_of_dropWhile {class? : Char → Bool} {characters rest : List Char}
    {character : Char} (dropped : characters.dropWhile class? = character :: rest) :
    byteLength (characters.takeWhile class?) +
      (character.utf8Size + byteLength rest) = byteLength characters := by
  rw [← byteLength_takeWhile_add class? characters, dropped, byteLength_cons]

theorem utf8Size_opening {character : Char} {rest : List Char}
    (announced : headerLead character rest = .opening) : character.utf8Size = 1 := by
  unfold headerLead at announced
  split at announced
  · subst_vars
    decide
  · repeat' split at announced
    all_goals cases announced

theorem utf8Size_quote {character : Char} {rest : List Char}
    (announced : headerLead character rest = .quote) : character.utf8Size = 1 := by
  unfold headerLead at announced
  repeat' split at announced
  all_goals first | cases announced; done | skip
  rename_i isQuote
  rcases isQuote with rfl | rfl <;> decide

theorem scanHeader_end (opener depth offset : Nat) (characters : List Char) :
    (scanHeader opener depth offset characters).end =
      offset + byteLength characters := by
  fun_induction scanHeader opener depth offset characters with
  | case1 depth offset characters start dropped =>
      have blanks := byteLength_takeWhile_add isBlank characters
      rw [dropped] at blanks
      simp only [Scan.end, start, byteLength_nil] at blanks ⊢
      omega
  | case2 depth offset characters start character rest dropped announced ih =>
      have bytes := byteLength_of_dropWhile dropped
      have := utf8Size_opening announced
      rw [Scan.end_prepend, ih]
      omega
  | case3 offset characters start character rest dropped announced =>
      have bytes := byteLength_of_dropWhile dropped
      have isCloser := headerLead_closing announced
      have : ')'.utf8Size = 1 := by decide
      rw [isCloser] at bytes
      simp only [Scan.end]
      omega
  | case4 offset characters start character rest dropped announced depth ih =>
      have bytes := byteLength_of_dropWhile dropped
      have isCloser := headerLead_closing announced
      have : ')'.utf8Size = 1 := by decide
      rw [isCloser] at bytes
      rw [Scan.end_prepend, ih]
      omega
  | case5 depth offset characters start character rest dropped announced read =>
      have bytes := byteLength_of_dropWhile dropped
      simp only [Scan.end, byteLength_cons, byteLength_nil]
      omega
  | case6 depth offset characters start character rest dropped announced body read stop
      ih =>
      have bytes := byteLength_of_dropWhile dropped
      have := utf8Size_quote announced
      have written := congrArg byteLength (readString?_written read)
      rw [byteLength_append] at written
      rw [Scan.end_prepend, ih]
      omega
  | case7 depth offset characters start character rest dropped lead announced scan ih =>
      have bytes := byteLength_of_dropWhile dropped
      have item := scanItem_end start character rest
      rw [← headerLead_item announced] at item
      have itemBytes : scan.offset + byteLength scan.rest =
          start + (character.utf8Size + byteLength rest) := item
      rw [Scan.end_prepend, ih]
      omega

theorem scanOptionalHeader_end (offset : Nat) (characters : List Char) :
    (scanOptionalHeader offset characters).end = offset + byteLength characters := by
  unfold scanOptionalHeader
  split
  · have : '('.utf8Size = 1 := by decide
    rw [Scan.end_prepend, scanHeader_end, byteLength_cons]
    omega
  · rfl

theorem scanMacroCall_end (offset : Nat) (characters : List Char) :
    (scanMacroCall offset characters).end = offset + 1 + byteLength characters := by
  rw [scanMacroCall, Scan.end_prepend, scanOptionalHeader_end]
  exact scanMacroName_end offset characters

theorem scanKeywordHeader_end (keyword : Keyword) (offset : Nat)
    (characters : List Char) :
    (scanKeywordHeader keyword offset characters).end =
      offset + byteLength characters := by
  unfold scanKeywordHeader
  split
  · unfold scanPaddedHeader
    dsimp only
    split
    · have := byteLength_takeWhile_add isPadding characters
      rw [scanOptionalHeader_end]
      omega
    · rfl
  · rfl

theorem trimLineBreak_end (trim : Bool) (offset : Nat) (characters : List Char) :
    (trimLineBreak trim offset characters).1 +
      byteLength (trimLineBreak trim offset characters).2 =
        offset + byteLength characters := by
  have : '\n'.utf8Size = 1 := by decide
  have : '\r'.utf8Size = 1 := by decide
  cases trim with
  | false => rfl
  | true =>
      simp only [trimLineBreak, if_true, skipLineBreak]
      split <;> simp only [byteLength_cons] <;> omega

theorem scanDirective_end (trim : Bool) (offset : Nat) (characters : List Char) :
    (scanDirective trim offset characters).end = offset + 1 + byteLength characters := by
  have name := byteLength_takeName_add characters
  cases known : Keyword.ofWord? (String.ofList (takeName characters)) with
  | none =>
      rw [scanDirective_of_unknown trim offset known]
      simp only [Scan.end]
      omega
  | some keyword =>
      have header : (scanKeywordHeader keyword
          (offset + 1 + byteLength (takeName characters)) (dropName characters)).offset +
          byteLength (scanKeywordHeader keyword
            (offset + 1 + byteLength (takeName characters)) (dropName characters)).rest =
          _ := scanKeywordHeader_end _ _ _
      rw [scanDirective_of_keyword trim offset known]
      simp only [Scan.end, trimLineBreak_end, header]
      omega

theorem scanSigil_end (trim : Bool) (sigil : Char) (offset : Nat)
    (characters : List Char) :
    (scanSigil trim sigil offset characters).end =
      offset + 1 + byteLength characters := by
  unfold scanSigil
  split
  · exact scanPath_end offset characters
  · split
    · exact scanMacroCall_end offset characters
    · exact scanDirective_end trim offset characters

end Stencil
