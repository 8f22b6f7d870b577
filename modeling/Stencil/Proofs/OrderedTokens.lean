import Mathlib.Data.List.Chain
import Stencil.Proofs.ExactSpans

/-!
# Tokens stand in order

The tokens of every template, be it malformed or not, stand in it one after the other, each
over whole characters.  What cannot be scanned is left out between them.
-/

namespace Stencil

/-- What the characters of a token have in common in all templates: only the end of the input
has none, and those of literal text write its content. -/
def TokenKind.Marks : TokenKind → List Char → Prop
  | .text content, slice => slice ≠ [] ∧ singleSigils slice = content.toList
  | .endOfInput, slice => slice = []
  | _, slice => slice ≠ []

theorem TokenKind.isMarkup_of_isInner {kind : TokenKind} (inner : kind.isInner) :
    kind.isMarkup := by
  cases kind <;> first | rfl | cases inner

theorem TokenKind.marks_of_isMarkup {kind : TokenKind} {slice : List Char}
    (isMarkup : kind.isMarkup) (nonempty : slice ≠ []) : kind.Marks slice := by
  cases kind <;> first | exact nonempty | cases isMarkup

theorem TokenKind.Marks.ne_nil {kind : TokenKind} {slice : List Char}
    (marks : kind.Marks slice) (proper : kind ≠ .endOfInput) : slice ≠ [] := by
  cases kind <;> first | exact marks | exact marks.1 | exact absurd rfl proper

theorem byteLength_pos {characters : List Char} (nonempty : characters ≠ []) :
    0 < byteLength characters := by
  cases characters with
  | nil => exact absurd rfl nonempty
  | cons character rest => exact Nat.add_pos_left character.utf8Size_pos _

/-- From `offset` on, tokens stand in a text one after the other, each over characters of its
own. -/
inductive TokensStand : (offset : Nat) → List Char → List Token → Prop
  | nil {offset : Nat} {characters : List Char} : TokensStand offset characters []
  | cons {offset start : Nat} {gap slice rest : List Char} {token : Token}
      {tokens : List Token} :
      start = offset + byteLength gap →
        token.span = ⟨start, start + byteLength slice⟩ → token.kind.Marks slice →
          TokensStand (start + byteLength slice) rest tokens →
            TokensStand offset (gap ++ (slice ++ rest)) (token :: tokens)

namespace TokensStand

variable {offset start : Nat} {passed rest : List Char} {tokens others : List Token}

theorem behind (stands : TokensStand start rest tokens)
    (bytes : start = offset + byteLength passed) :
    TokensStand offset (passed ++ rest) tokens := by
  cases stands with
  | nil => exact .nil
  | cons begins span marks further =>
      rw [← List.append_assoc]
      refine .cons ?_ span marks further
      rw [begins, bytes, byteLength_append, Nat.add_assoc]

theorem append (stands : TokensStand offset passed tokens)
    (further : TokensStand start rest others) (bytes : start = offset + byteLength passed) :
    TokensStand offset (passed ++ rest) (tokens ++ others) := by
  induction stands with
  | nil => exact further.behind bytes
  | cons begins span marks _ ih =>
      rw [List.append_assoc, List.append_assoc]
      refine .cons begins span marks (ih ?_)
      rw [bytes, begins, byteLength_append, byteLength_append]
      omega

/-- A token stands over the characters that write it. -/
theorem single {kind : TokenKind} {slice : List Char} (marks : kind.Marks slice)
    (bytes : start = offset + byteLength slice) :
    TokensStand offset slice [⟨kind, ⟨offset, start⟩⟩] := by
  have stands : TokensStand offset ([] ++ (slice ++ [])) [⟨kind, ⟨offset, start⟩⟩] :=
    .cons rfl (by rw [bytes, byteLength_nil, Nat.add_zero]) marks .nil
  simpa using stands

theorem punctuation {kind : TokenKind} {character : Char} (isMarkup : kind.isMarkup)
    (ascii : character.utf8Size = 1) :
    TokensStand offset [character] [punctuationToken kind offset] :=
  .single (kind.marks_of_isMarkup isMarkup (List.cons_ne_nil _ _)) (by simp [ascii])

/-- No token stands before the text begins, or ends before it starts. -/
theorem offset_le (stands : TokensStand offset rest tokens) :
    ∀ token ∈ tokens, offset ≤ token.span.start ∧ token.span.start ≤ token.span.stop := by
  induction stands with
  | nil => simp
  | cons begins span _ _ ih =>
      refine List.forall_mem_cons.mpr ⟨?_, fun token member => ?_⟩
      · rw [span, begins]
        exact ⟨Nat.le_add_right _ _, Nat.le_add_right _ _⟩
      · obtain ⟨behind, forward⟩ := ih token member
        exact ⟨by omega, forward⟩

/-- Every token ends before the later ones start. -/
theorem ordered (stands : TokensStand offset rest tokens) :
    tokens.Pairwise fun earlier later => earlier.span.stop ≤ later.span.start := by
  induction stands with
  | nil => exact .nil
  | cons begins span _ further ih =>
      refine .cons (fun later member => ?_) ih
      rw [span]
      exact (further.offset_le later member).1

/-- The span of every token covers the characters over which it stands. -/
theorem covers (before : List Char) (stands : TokensStand (byteLength before) rest tokens) :
    ∀ token ∈ tokens, ∃ slice, token.span.Covers (before ++ rest) slice ∧
      token.kind.Marks slice := by
  generalize begins : byteLength before = offset at stands
  induction stands generalizing before with
  | nil => simp
  | @cons offset start gap slice rest token tokens place span marks further ih =>
      refine List.forall_mem_cons.mpr ⟨⟨slice, ⟨before ++ gap, rest, by simp, ?_, ?_⟩, marks⟩, ?_⟩
      · rw [span, place, byteLength_append, begins]
      · rw [span, place, byteLength_append, byteLength_append, begins]
      · have later := ih (before ++ gap ++ slice) (by
          rw [place, byteLength_append, byteLength_append, begins])
        simpa using later

end TokensStand

/-- The tokens of a scan stand in what it has passed over. -/
def Scan.Stands (scan : Scan) (offset : Nat) (characters : List Char) : Prop :=
  ∃ passed, characters = passed ++ scan.rest ∧ scan.offset = offset + byteLength passed ∧
    TokensStand offset passed scan.tokens

namespace Scan.Stands

variable {scan : Scan} {offset start : Nat} {characters : List Char}

theorem idle : (Scan.idle offset characters).Stands offset characters :=
  ⟨[], rfl, rfl, .nil⟩

theorem nothing {passed rest : List Char} (reports : List Report) :
    (Scan.mk [] reports (offset + byteLength passed) rest).Stands offset (passed ++ rest) :=
  ⟨passed, rfl, rfl, .nil⟩

theorem single {kind : TokenKind} {slice rest : List Char} (marks : kind.Marks slice)
    (split : slice ++ rest = characters) (bytes : start = offset + byteLength slice)
    (reports : List Report) :
    (Scan.mk [⟨kind, ⟨offset, start⟩⟩] reports start rest).Stands offset characters :=
  ⟨slice, split.symm, bytes, .single marks bytes⟩

theorem punctuation {kind : TokenKind} {character : Char} {rest : List Char}
    (isMarkup : kind.isMarkup) (ascii : character.utf8Size = 1) :
    (Scan.mk [punctuationToken kind offset] [] (offset + 1) rest).Stands offset
      (character :: rest) :=
  ⟨[character], rfl, by simp [ascii], .punctuation isMarkup ascii⟩

/-- A scan goes on where another one has ended. -/
theorem andThen {further : Scan} (stands : scan.Stands offset characters)
    (later : further.Stands scan.offset scan.rest) (reports : List Report) :
    (further.prepend scan.tokens reports).Stands offset characters := by
  obtain ⟨passed, split, place, tokens⟩ := stands
  obtain ⟨others, rest, reached, more⟩ := later
  refine ⟨passed ++ others, ?_, ?_, tokens.append more place⟩
  · rw [List.append_assoc, prepend_rest, ← rest, split]
  · rw [byteLength_append, ← Nat.add_assoc, ← place]
    exact reached

theorem behind {passed rest : List Char} (stands : scan.Stands start rest)
    (bytes : start = offset + byteLength passed) : scan.Stands offset (passed ++ rest) := by
  obtain ⟨others, rfl, reached, tokens⟩ := stands
  refine ⟨passed ++ others, by simp, ?_, tokens.behind bytes⟩
  rw [reached, bytes, byteLength_append, Nat.add_assoc]

/-- What a scan leaves can be passed over without a token. -/
theorem skip {gap left : List Char} (stands : scan.Stands offset characters)
    (split : scan.rest = gap ++ left) (bytes : start = scan.offset + byteLength gap)
    (reports : List Report) :
    (Scan.mk scan.tokens reports start left).Stands offset characters := by
  obtain ⟨passed, rfl, reached, tokens⟩ := stands
  refine ⟨passed ++ gap, by simp [split], ?_, ?_⟩
  · rw [bytes, reached, byteLength_append, Nat.add_assoc]
  · have further : TokensStand scan.offset gap [] := .nil
    simpa using tokens.append further reached

end Scan.Stands

theorem takeName_ne_nil {characters : List Char} (starts : startsWith isNameStart characters) :
    takeName characters ≠ [] := by
  rcases characters with _ | ⟨first, rest⟩
  · cases starts
  · have isName : isNameCharacter first := isNameCharacter_of_isNameStart starts
    simp [takeName, isName]

/-- The name or the digits of a step of a path. -/
def PathPiece.inside : PathPiece → List Char
  | .field name => name
  | .index digits => digits

theorem readPathPiece?_inside {characters rest : List Char} {piece : PathPiece}
    (read : readPathPiece? characters = some (piece, rest)) : piece.inside ≠ [] := by
  unfold readPathPiece? at read
  split at read
  · split at read
    · rename_i starts
      obtain ⟨rfl, -⟩ := by simpa using read
      exact takeName_ne_nil starts
    · cases read
  · split at read
    · obtain ⟨rfl, -⟩ := by simpa using read
      exact List.cons_ne_nil _ _
    · cases read
  · cases read

theorem PathPiece.tokensStand {piece : PathPiece} (nonempty : piece.inside ≠ [])
    (offset : Nat) : TokensStand offset piece.written (piece.scan offset).1 := by
  cases piece with
  | field name =>
      have dot : TokensStand offset ['.'] [punctuationToken .dot offset] :=
        .punctuation rfl (by decide)
      exact dot.append (.single nonempty rfl) rfl
  | index digits =>
      have bracket : TokensStand offset ['['] [punctuationToken .leftBracket offset] :=
        .punctuation rfl (by decide)
      have closed {start : Nat} :
          TokensStand start [']'] [punctuationToken .rightBracket start] :=
        .punctuation rfl (by decide)
      have number (value : Int64) :
          TokensStand (offset + 1) digits
            [⟨.integer value, ⟨offset + 1, offset + 1 + byteLength digits⟩⟩] :=
        .single nonempty rfl
      exact bracket.append ((number _).append closed rfl) rfl

theorem byteLength_written (piece : PathPiece) :
    byteLength piece.written = piece.byteSize := by
  have ascii : '.'.utf8Size = 1 ∧ '['.utf8Size = 1 ∧ ']'.utf8Size = 1 := by decide
  cases piece with
  | field name => simp [PathPiece.written, PathPiece.byteSize, ascii]
  | index digits =>
      simp only [PathPiece.written, PathPiece.byteSize, byteLength_cons, byteLength_append,
        byteLength_nil, ascii]
      omega

theorem scanPathPieces_stands (offset : Nat) (characters : List Char) :
    (scanPathPieces offset characters).Stands offset characters := by
  fun_induction scanPathPieces offset characters with
  | case1 => exact .idle
  | case2 offset characters piece rest read scanned ih =>
      have own : (Scan.mk (piece.scan offset).1 [] (offset + piece.byteSize) rest).Stands offset
          characters :=
        ⟨piece.written, readPathPiece?_eq_written read, by rw [byteLength_written],
          piece.tokensStand (readPathPiece?_inside read) offset⟩
      exact own.andThen ih _

theorem scanPath_stands (offset : Nat) {characters : List Char}
    (starts : startsWith isNameStart characters) :
    (scanPath offset characters).Stands offset ('$' :: characters) := by
  have sigil : TokensStand offset ['$'] [punctuationToken .dollar offset] :=
    .punctuation rfl (by decide)
  have named : TokensStand (offset + 1) (takeName characters)
      [⟨.name (String.ofList (takeName characters)),
        ⟨offset + 1, offset + 1 + byteLength (takeName characters)⟩⟩] :=
    .single (takeName_ne_nil starts) rfl
  have own : (Scan.mk ([punctuationToken .dollar offset] ++
      [⟨.name (String.ofList (takeName characters)),
        ⟨offset + 1, offset + 1 + byteLength (takeName characters)⟩⟩]) []
      (offset + 1 + byteLength (takeName characters)) (dropName characters)).Stands offset
        ('$' :: characters) := by
    refine ⟨'$' :: takeName characters, ?_, ?_, sigil.append named rfl⟩
    · rw [List.cons_append, takeName_append_dropName]
    · have ascii : '$'.utf8Size = 1 := by decide
      rw [byteLength_cons, ascii, Nat.add_assoc]
  exact own.andThen (scanPathPieces_stands _ _) []

/-- A token stands over its sigil and the name directly after it. -/
theorem Scan.Stands.sigilName {kind : TokenKind} {sigil : Char} {offset : Nat}
    {characters : List Char} (isMarkup : kind.isMarkup) (ascii : sigil.utf8Size = 1) :
    (Scan.mk [⟨kind, ⟨offset, offset + 1 + byteLength (takeName characters)⟩⟩] []
      (offset + 1 + byteLength (takeName characters)) (dropName characters)).Stands offset
        (sigil :: characters) := by
  have split : (sigil :: takeName characters) ++ dropName characters = sigil :: characters :=
    congrArg (sigil :: ·) (takeName_append_dropName characters)
  refine .single (kind.marks_of_isMarkup isMarkup (List.cons_ne_nil _ _)) split ?_ []
  rw [byteLength_cons, ascii, Nat.add_assoc]

theorem scanMacroName_stands (offset : Nat) (characters : List Char) :
    (scanMacroName offset characters).Stands offset ('@' :: characters) :=
  .sigilName rfl (by decide)

theorem scanNumber_stands (offset : Nat) (first : Char) (rest : List Char) :
    (scanNumber offset first rest).Stands offset (first :: rest) := by
  have split := NumberLiteral.characters_append_rest first rest
  unfold scanNumber
  dsimp only
  split
  · rename_i kind found
    have isMarkup := kind.isMarkup_of_isInner (NumberLiteral.isInner_kind? found).1
    exact .single (kind.marks_of_isMarkup isMarkup (List.cons_ne_nil _ _)) split rfl []
  · rw [← split]
    exact .nothing _

theorem scanWord_stands (offset : Nat) (first : Char) (rest : List Char) :
    (scanWord offset first rest).Stands offset (first :: rest) := by
  have split : (first :: takeName rest) ++ dropName rest = first :: rest :=
    congrArg (first :: ·) (takeName_append_dropName rest)
  have isMarkup := TokenKind.isMarkup_of_isInner
    (isInner_wordKind (String.ofList (first :: takeName rest))).1
  exact .single (TokenKind.marks_of_isMarkup isMarkup (List.cons_ne_nil _ _)) split rfl []

theorem itemLead_starts {character : Char} {rest : List Char}
    (announced : itemLead character rest = .path) : startsWith isNameStart rest := by
  unfold itemLead at announced
  split at announced
  · cases announced
  · repeat' split at announced
    all_goals first | cases announced; done | skip
    rename_i isPath
    exact isPath.2

theorem scanItem_stands (offset : Nat) (character : Char) (rest : List Char) :
    (scanItem (itemLead character rest) offset character rest).Stands offset
      (character :: rest) := by
  cases announced : itemLead character rest with
  | punctuation kind =>
      have found := headerPunctuation?_of_itemLead announced
      exact .punctuation (kind.isMarkup_of_isInner (headerPunctuation?_isInner found).1)
        (utf8Size_of_headerPunctuation? found)
  | path =>
      rw [itemLead_path announced]
      exact scanPath_stands offset (itemLead_starts announced)
  | macroCall =>
      rw [itemLead_macroCall announced]
      exact scanMacroName_stands offset rest
  | number => exact scanNumber_stands offset character rest
  | word => exact scanWord_stands offset character rest
  | stray => exact ⟨[character], rfl, rfl, .nil⟩

theorem scanHeader_stands (opener depth offset : Nat) (characters : List Char) :
    (scanHeader opener depth offset characters).Stands offset characters := by
  fun_induction scanHeader opener depth offset characters with
  | case1 depth offset characters start dropped =>
      have split := List.takeWhile_append_dropWhile (p := isBlank) (l := characters)
      rw [dropped] at split
      exact ⟨characters.takeWhile isBlank, split.symm, rfl, .nil⟩
  | case2 depth offset characters start character rest dropped announced ih =>
      have ascii := utf8Size_opening announced
      rw [← List.takeWhile_append_dropWhile (p := isBlank) (l := characters), dropped]
      exact ((Scan.Stands.punctuation rfl ascii).andThen ih []).behind rfl
  | case3 offset characters start character rest dropped announced =>
      have isCloser := headerLead_closing announced
      rw [← List.takeWhile_append_dropWhile (p := isBlank) (l := characters), dropped, isCloser]
      exact (Scan.Stands.punctuation rfl (by decide)).behind rfl
  | case4 offset characters start character rest dropped announced depth ih =>
      have isCloser := headerLead_closing announced
      rw [← List.takeWhile_append_dropWhile (p := isBlank) (l := characters), dropped, isCloser]
      exact ((Scan.Stands.punctuation rfl (by decide)).andThen ih []).behind rfl
  | case5 depth offset characters start character rest dropped announced read =>
      have split := List.takeWhile_append_dropWhile (p := isBlank) (l := characters)
      rw [dropped] at split
      refine ⟨characters, (List.append_nil _).symm, ?_, .nil⟩
      rw [← split, byteLength_append, ← Nat.add_assoc]
  | case6 depth offset characters start character rest dropped announced body read stop ih =>
      have ascii := utf8Size_quote announced
      rw [← List.takeWhile_append_dropWhile (p := isBlank) (l := characters), dropped]
      have own : (Scan.mk [⟨.string (String.ofList body.content), ⟨start, stop⟩⟩] [] stop
          body.rest).Stands start (character :: rest) := by
        have marks : (TokenKind.string (String.ofList body.content)).Marks
            (character :: body.written) := List.cons_ne_nil _ _
        refine .single marks ?_ ?_ []
        · rw [List.cons_append, ← readString?_written read]
        · simp only [stop, byteLength_cons, ascii, Nat.add_assoc]
      exact (own.andThen ih []).behind rfl
  | case7 depth offset characters start character rest dropped lead announced scan ih =>
      have item : scan.Stands start (character :: rest) := by
        have own := scanItem_stands start character rest
        rwa [← headerLead_item announced] at own
      rw [← List.takeWhile_append_dropWhile (p := isBlank) (l := characters), dropped]
      exact (item.andThen ih scan.reports).behind rfl

theorem scanOptionalHeader_stands (offset : Nat) (characters : List Char) :
    (scanOptionalHeader offset characters).Stands offset characters := by
  unfold scanOptionalHeader
  split
  · exact (Scan.Stands.punctuation rfl (by decide)).andThen (scanHeader_stands _ _ _ _) []
  · exact .idle

theorem scanKeywordHeader_stands (keyword : Keyword) (offset : Nat)
    (characters : List Char) :
    (scanKeywordHeader keyword offset characters).Stands offset characters := by
  unfold scanKeywordHeader
  split
  · unfold scanPaddedHeader
    dsimp only
    split
    · have header := scanOptionalHeader_stands
        (offset + byteLength (characters.takeWhile isPadding)) (characters.dropWhile isPadding)
      have bytes : offset + byteLength (characters.takeWhile isPadding) =
          offset + byteLength (characters.takeWhile isPadding) := rfl
      have padded := header.behind bytes
      rwa [List.takeWhile_append_dropWhile] at padded
    · exact .idle
  · exact .idle

/-- A line break that is trimmed is passed over. -/
theorem trimLineBreak_passes (trim : Bool) (offset : Nat) (characters : List Char) :
    ∃ gap, characters = gap ++ (trimLineBreak trim offset characters).2 ∧
      (trimLineBreak trim offset characters).1 = offset + byteLength gap := by
  have ascii : '\r'.utf8Size = 1 ∧ '\n'.utf8Size = 1 := by decide
  cases trim with
  | false => exact ⟨[], rfl, rfl⟩
  | true =>
      simp only [trimLineBreak, if_true, skipLineBreak]
      split
      · exact ⟨['\r', '\n'], rfl, by simp [ascii]⟩
      · exact ⟨['\n'], rfl, by simp [ascii]⟩
      · exact ⟨[], rfl, rfl⟩

theorem scanDirective_stands (trim : Bool) (offset : Nat) (characters : List Char) :
    (scanDirective trim offset characters).Stands offset ('#' :: characters) := by
  cases known : Keyword.ofWord? (String.ofList (takeName characters)) with
  | none =>
      rw [scanDirective_of_unknown trim offset known]
      exact .sigilName rfl (by decide)
  | some keyword =>
      rw [scanDirective_of_keyword trim offset known]
      have word : (Scan.mk [directiveToken offset characters] []
          (offset + 1 + byteLength (takeName characters)) (dropName characters)).Stands offset
            ('#' :: characters) := .sigilName rfl (by decide)
      have header := word.andThen (scanKeywordHeader_stands keyword _ _) []
      obtain ⟨gap, split, bytes⟩ := trimLineBreak_passes trim
        (scanKeywordHeader keyword (offset + 1 + byteLength (takeName characters))
          (dropName characters)).offset
        (scanKeywordHeader keyword (offset + 1 + byteLength (takeName characters))
          (dropName characters)).rest
      exact header.skip split bytes _

theorem scanSigil_stands (trim : Bool) {sigil : Char} (isSigil : isSigil sigil) (offset : Nat)
    {characters : List Char} (starts : startsWith isNameStart characters) :
    (scanSigil trim sigil offset characters).Stands offset (sigil :: characters) := by
  rcases eq_of_isSigil isSigil with rfl | rfl | rfl
  · exact scanPath_stands offset starts
  · exact (scanMacroName_stands offset characters).andThen (scanOptionalHeader_stands _ _) _
  · exact scanDirective_stands trim offset characters

theorem TextRun.stands (offset : Nat) (characters : List Char) :
    TokensStand offset (ofFront characters).written ((ofFront characters).tokens offset) := by
  unfold tokens
  split
  · exact .nil
  · rename_i nonempty
    refine .single ⟨mt (written_eq_nil_iff characters).mp nonempty, ?_⟩ rfl
    rw [singleSigils_written, String.toList_ofList]

theorem scanBody_stands (trim : Bool) (offset : Nat) (characters : List Char) :
    TokensStand offset characters (scanBody trim offset characters).tokens := by
  fun_induction scanBody trim offset characters with
  | case1 offset characters run start runRest =>
      have split := TextRun.written_append_rest characters
      rw [show (TextRun.ofFront characters).rest = [] from runRest] at split
      have ended : TokensStand start [] [⟨.endOfInput, ⟨start, start⟩⟩] := .single rfl rfl
      rw [← split]
      exact (TextRun.stands offset characters).append ended rfl
  | case2 offset characters run start sigil rest runRest scan ih =>
      have split := TextRun.written_append_rest characters
      rw [show (TextRun.ofFront characters).rest = sigil :: rest from runRest] at split
      obtain ⟨passed, left, reached, tokens⟩ := scanSigil_stands trim
        (TextRun.isSigil_of_rest runRest) start (TextRun.startsWith_of_rest runRest)
      have behind : scan.offset = start + byteLength passed := reached
      have further := tokens.append ih behind
      rw [← left] at further
      have whole := (TextRun.stands offset characters).append further rfl
      rw [split] at whole
      simpa [Scan.prepend] using whole

/-- The last token of a template marks its end, and no other one does. -/
theorem scanBody_endsAt (trim : Bool) (offset : Nat) (characters : List Char) :
    ∃ front, (scanBody trim offset characters).tokens =
        front ++ [⟨.endOfInput,
          ⟨offset + byteLength characters, offset + byteLength characters⟩⟩] ∧
      Unended front := by
  fun_induction scanBody trim offset characters with
  | case1 offset characters run start runRest =>
      have split := TextRun.written_append_rest characters
      rw [show (TextRun.ofFront characters).rest = [] from runRest, List.append_nil] at split
      rw [← split]
      exact ⟨run.tokens offset, rfl, textRun_unended run offset⟩
  | case2 offset characters run start sigil rest runRest scan ih =>
      obtain ⟨front, split, unended⟩ := ih
      have left : (TextRun.ofFront characters).rest = sigil :: rest := runRest
      have bytes := congrArg byteLength (TextRun.written_append_rest characters)
      have ends : scan.offset + byteLength scan.rest = start + 1 + byteLength rest :=
        scanSigil_end trim sigil start rest
      rw [left, byteLength_append, byteLength_cons,
        utf8Size_of_isSigil (TextRun.isSigil_of_rest runRest)] at bytes
      have place : start = offset + byteLength (TextRun.ofFront characters).written := rfl
      refine ⟨run.tokens offset ++ scan.tokens ++ front, ?_, ?_⟩
      · rw [show offset + byteLength characters = scan.offset + byteLength scan.rest by omega]
        simp [Scan.prepend, split]
      · exact ((textRun_unended run offset).append
          (scanSigil_markup trim sigil start rest).unended).append unended

def TokenKind.isText : TokenKind → Bool
  | .text _ => true
  | _ => false

/-- No two literal texts follow each other directly. -/
def TextsApart (tokens : List Token) : Prop :=
  tokens.IsChain fun first second => ¬(first.kind.isText ∧ second.kind.isText)

theorem TokenKind.isText_of_isMarkup {kind : TokenKind} (isMarkup : kind.isMarkup) :
    kind.isText = false := by
  cases kind <;> first | rfl | cases isMarkup

theorem TextsApart.behind {front tokens : List Token} (markup : Markup front)
    (apart : TextsApart tokens) : TextsApart (front ++ tokens) := by
  induction front with
  | nil => exact apart
  | cons token front ih =>
      have ⟨here, later⟩ := List.forall_mem_cons.mp markup
      refine List.isChain_cons.mpr ⟨fun _ _ texts => ?_, ih later⟩
      rw [TokenKind.isText_of_isMarkup here] at texts
      cases texts.1

/-- A run of literal text is one token at most. -/
theorem TextsApart.run {tokens : List Token} (run : TextRun) (offset : Nat)
    (apart : TextsApart tokens) (other : (nextKind tokens).isText = false) :
    TextsApart (run.tokens offset ++ tokens) := by
  unfold TextRun.tokens
  split
  · exact apart
  · refine List.isChain_cons.mpr ⟨fun second next texts => ?_, apart⟩
    cases tokens with
    | nil => cases next
    | cons token tokens =>
        obtain rfl : token = second := Option.some.inj next
        rw [show token.kind.isText = false from other] at texts
        cases texts.2

theorem scanBody_textsApart (trim : Bool) (offset : Nat) (characters : List Char) :
    TextsApart (scanBody trim offset characters).tokens := by
  fun_induction scanBody trim offset characters with
  | case1 offset characters run start runRest =>
      exact .run run offset (List.isChain_singleton _) rfl
  | case2 offset characters run start sigil rest runRest scan ih =>
      have markup : Markup scan.tokens := scanSigil_markup trim sigil start rest
      obtain ⟨token, others, split, -⟩ := scanSigil_first trim sigil start rest
      have scanned : scan.tokens = token :: others := split
      simp only [Scan.prepend, List.append_assoc]
      refine .run run offset (.behind markup ih) ?_
      rw [scanned] at markup ⊢
      exact TokenKind.isText_of_isMarkup (markup token List.mem_cons_self)

theorem singleSigils_ne_nil {characters : List Char} (nonempty : characters ≠ []) :
    singleSigils characters ≠ [] := by
  fun_cases singleSigils characters <;> simp_all

/-- The tokens of every template, be it malformed or not, end with the only one that marks
the end of the input, which stands behind the last byte.  All others have characters of their
own, each ends before the next one starts, and their spans cut no character in two.  Literal
texts are never empty, never follow each other directly, and hold the characters over which
they stand, with doubled sigils made single. -/
theorem tokenize_ordered (trim : Bool) (text : String) :
    ∃ front, (tokenize trim text).1 =
        front ++ [⟨.endOfInput, ⟨byteLength text.toList, byteLength text.toList⟩⟩] ∧
      (∀ token ∈ front, token.kind ≠ .endOfInput ∧ token.span.start < token.span.stop) ∧
      (tokenize trim text).1.Pairwise
        (fun earlier later => earlier.span.stop ≤ later.span.start) ∧
      TextsApart (tokenize trim text).1 ∧
      ∀ token ∈ (tokenize trim text).1, ∃ slice, token.span.Covers text.toList slice ∧
        ∀ content, token.kind = .text content →
          content ≠ "" ∧ singleSigils slice = content.toList := by
  have stands : TokensStand 0 text.toList (tokenize trim text).1 :=
    scanBody_stands trim 0 text.toList
  obtain ⟨front, split, unended⟩ := scanBody_endsAt trim 0 text.toList
  have isFront : (tokenize trim text).1 =
      front ++ [⟨.endOfInput, ⟨byteLength text.toList, byteLength text.toList⟩⟩] := by
    rw [Nat.zero_add] at split
    exact split
  have covers : ∀ token ∈ (tokenize trim text).1, ∃ slice,
      token.span.Covers text.toList slice ∧ token.kind.Marks slice :=
    TokensStand.covers [] stands
  refine ⟨front, isFront, ?_, stands.ordered, scanBody_textsApart trim 0 text.toList, ?_⟩
  · intro token member
    have proper := unended token member
    refine ⟨proper, ?_⟩
    obtain ⟨slice, ⟨before, after, -, starts, stops⟩, marks⟩ := covers token (by
      rw [isFront]
      exact List.mem_append_left _ member)
    have nonempty := marks.ne_nil proper
    have := byteLength_pos nonempty
    rw [byteLength_append] at stops
    omega
  · intro token member
    obtain ⟨slice, place, marks⟩ := covers token member
    refine ⟨slice, place, fun content isText => ?_⟩
    rw [isText] at marks
    obtain ⟨nonempty, same⟩ := marks
    refine ⟨?_, same⟩
    rintro rfl
    exact singleSigils_ne_nil nonempty same

end Stencil
