import Stencil.Proofs.Seam
import Stencil.Proofs.WrittenTokens

/-!
# Scanning loses nothing

The tokens of a template that is scanned without a report stand in it one after the
other, each written in full, and only blanks are left out between them: inside headers,
between a directive and its header, and as the line break after a directive.
-/

namespace Stencil

/-- Whether a header can stand after a token. -/
def TokenKind.takesHeader : TokenKind → Bool
  | .macroName _ => true
  | .directive word => (Keyword.ofWord? word).any Keyword.takesHeader
  | _ => false

/-- A place in the middle of tokens lies inside a header: the group that was opened
after a macro name or a directive is still open there.  It does not lie directly after
the sigil of a path. -/
structure InHeader (before after : List Token) : Prop where
  opened : ∃ earlier opener span inside,
    before = earlier ++ opener :: ⟨.leftParen, span⟩ :: inside ∧
      opener.kind.takesHeader ∧ groupCloses 0 inside = false ∧
        groupCloses 0 (inside ++ after)
  unsplit : ∀ earlier span, before ≠ earlier ++ [⟨.dollar, span⟩]

/-- Which characters may be left out between tokens. -/
inductive Gap (trim : Bool) (before after : List Token) : List Char → Prop where
  | empty : Gap trim before after []
  /-- Blanks inside a header. -/
  | header {gap : List Char} : InHeader before after → gap.all isBlank →
      Gap trim before after gap
  /-- Spaces and tabs between a directive and its header. -/
  | padding {earlier : List Token} {word : String} {span : Span} {keyword : Keyword}
      {gap : List Char} : before = earlier ++ [⟨.directive word, span⟩] →
      Keyword.ofWord? word = some keyword → keyword.takesHeader →
        nextKind after = .leftParen → gap.all isPadding → Gap trim before after gap
  /-- The line break after a directive and its header. -/
  | lineBreak {earlier header : List Token} {word : String} {span : Span}
      {keyword : Keyword} {gap : List Char} : trim →
      before = earlier ++ ⟨.directive word, span⟩ :: header →
        Keyword.ofWord? word = some keyword → HeaderGroup header →
          nextKind after ≠ .leftParen → gap = ['\n'] ∨ gap = ['\r', '\n'] →
            Gap trim before after gap

/-- From `offset` on, where the tokens `before` end, a text consists of the written forms
of tokens and of gaps between them. -/
inductive Covered (trim : Bool) :
    (before : List Token) → (offset : Nat) → List Char → List Token → Prop where
  | nil {before : List Token} {offset : Nat} : Covered trim before offset [] []
  | cons {before tokens : List Token} {token : Token} {offset start : Nat}
      {gap slice rest : List Char} :
      Gap trim before (token :: tokens) gap → start = offset + byteLength gap →
        token.span = ⟨start, start + byteLength slice⟩ → token.kind.WrittenAs slice →
          Covered trim (before ++ [token]) (start + byteLength slice) rest tokens →
            Covered trim before offset (gap ++ (slice ++ rest)) (token :: tokens)

/-- A text is covered also if a gap stands before it. -/
def CoveredFrom (trim : Bool) (before : List Token) (offset : Nat)
    (characters : List Char) (tokens : List Token) : Prop :=
  ∀ start gap, offset = start + byteLength gap → Gap trim before tokens gap →
    Covered trim before start (gap ++ characters) tokens

section Covering

variable {trim : Bool} {before tail : List Token}

theorem CoveredFrom.covered {offset : Nat} {characters : List Char}
    {tokens : List Token} (covers : CoveredFrom trim before offset characters tokens) :
    Covered trim before offset characters tokens :=
  covers offset [] rfl .empty

theorem CoveredFrom.cons {kind : TokenKind} {offset stop : Nat}
    {characters slice rest : List Char} {tokens : List Token}
    (split : slice ++ rest = characters) (bytes : stop = offset + byteLength slice)
    (written : kind.WrittenAs slice)
    (further : Covered trim (before ++ [⟨kind, ⟨offset, stop⟩⟩]) stop rest tokens) :
    CoveredFrom trim before offset characters (⟨kind, ⟨offset, stop⟩⟩ :: tokens) := by
  intro start gap begins allowed
  subst split bytes
  exact .cons allowed begins rfl written further

theorem CoveredFrom.punctuation {kind : TokenKind} {character : Char} {offset : Nat}
    {rest : List Char} {tokens : List Token} (written : kind.WrittenAs [character])
    (ascii : character.utf8Size = 1)
    (further : Covered trim (before ++ [punctuationToken kind offset]) (offset + 1) rest
      tokens) :
    CoveredFrom trim before offset (character :: rest)
      (punctuationToken kind offset :: tokens) :=
  .cons rfl (by simp [ascii]) written further

theorem PathPiece.covered {piece : PathPiece} {characters rest : List Char} {offset : Nat}
    (read : readPathPiece? characters = some (piece, rest))
    (clean : (piece.scan offset).2 = [])
    (further : Covered trim (before ++ (piece.scan offset).1) (offset + piece.byteSize)
      rest tail) :
    Covered trim before offset characters ((piece.scan offset).1 ++ tail) := by
  rw [readPathPiece?_eq_written read]
  cases piece with
  | field name =>
      have bytes : offset + (1 + byteLength name) = offset + 1 + byteLength name := by
        omega
      simp only [scan, byteSize, bytes] at further
      apply CoveredFrom.covered
      refine .punctuation rfl (by decide) ?_
      apply CoveredFrom.covered
      refine .cons rfl rfl (String.toList_ofList).symm ?_
      simpa using further
  | index digits =>
      have areDigits := readPathPiece?_isDigit read
      have noPlus : digits.head? ≠ some '+' := by
        intro plus
        have isDigit := areDigits '+' (List.mem_of_head? plus)
        cases isDigit
      cases number : readWord? 64 digits with
      | none => simp [scan, number] at clean
      | some value =>
          have denotes := readWord?_denotes number noPlus
          have bytes : offset + (2 + byteLength digits) =
              offset + 1 + byteLength digits + 1 := by omega
          have whole : (PathPiece.index digits).written ++ rest =
              '[' :: (digits ++ (']' :: rest)) := by simp [written]
          simp only [scan, byteSize, bytes, number, Option.getD_some] at further ⊢
          rw [whole]
          apply CoveredFrom.covered
          refine .punctuation rfl (by decide) ?_
          apply CoveredFrom.covered
          refine .cons rfl rfl denotes ?_
          apply CoveredFrom.covered
          refine .punctuation rfl (by decide) ?_
          simpa using further

theorem scanPathPieces_covered (offset : Nat) (characters : List Char) :
    ∀ before, (scanPathPieces offset characters).reports = [] →
      Covered trim (before ++ (scanPathPieces offset characters).tokens)
        (scanPathPieces offset characters).offset
        (scanPathPieces offset characters).rest tail →
      Covered trim before offset characters
        ((scanPathPieces offset characters).tokens ++ tail) := by
  fun_induction scanPathPieces offset characters with
  | case1 =>
      intro before _ further
      simpa [Scan.idle] using further
  | case2 offset characters piece rest read scanned ih =>
      intro before clean further
      obtain ⟨pieceClean, restClean⟩ := List.append_eq_nil_iff.mp clean
      simp only [Scan.prepend, List.append_assoc] at further ⊢
      refine PathPiece.covered read pieceClean (ih _ restClean ?_)
      simpa only [List.append_assoc] using further

theorem scanPath_covered {offset : Nat} {characters : List Char}
    (clean : (scanPath offset characters).reports = [])
    (further : Covered trim (before ++ (scanPath offset characters).tokens)
      (scanPath offset characters).offset (scanPath offset characters).rest tail) :
    CoveredFrom trim before offset ('$' :: characters)
      ((scanPath offset characters).tokens ++ tail) := by
  simp only [scanPath, Scan.prepend, List.nil_append] at clean further ⊢
  refine .punctuation rfl (by decide) (CoveredFrom.covered ?_)
  refine .cons (takeName_append_dropName characters) rfl (String.toList_ofList).symm ?_
  refine scanPathPieces_covered _ _ _ clean ?_
  simpa only [List.append_assoc, List.cons_append, List.nil_append] using further

/-- A token can be written by a sigil and the name directly after it. -/
theorem CoveredFrom.sigilName {kind : TokenKind} {sigil : Char} {offset : Nat}
    {characters : List Char} {tokens : List Token}
    (written : kind.WrittenAs (sigil :: takeName characters)) (ascii : sigil.utf8Size = 1)
    (further : Covered trim
      (before ++ [⟨kind, ⟨offset, offset + 1 + byteLength (takeName characters)⟩⟩])
      (offset + 1 + byteLength (takeName characters)) (dropName characters) tokens) :
    CoveredFrom trim before offset (sigil :: characters)
      (⟨kind, ⟨offset, offset + 1 + byteLength (takeName characters)⟩⟩ :: tokens) := by
  have split : (sigil :: takeName characters) ++ dropName characters =
      sigil :: characters :=
    congrArg (sigil :: ·) (takeName_append_dropName characters)
  have bytes : offset + 1 + byteLength (takeName characters) =
      offset + byteLength (sigil :: takeName characters) := by
    rw [byteLength_cons, ascii, Nat.add_assoc]
  exact .cons split bytes written further

theorem scanMacroName_covered {offset : Nat} {characters : List Char}
    (further : Covered trim (before ++ (scanMacroName offset characters).tokens)
      (scanMacroName offset characters).offset (scanMacroName offset characters).rest
        tail) :
    CoveredFrom trim before offset ('@' :: characters)
      ((scanMacroName offset characters).tokens ++ tail) :=
  .sigilName (congrArg ('@' :: ·) (String.toList_ofList).symm) (by decide) further

theorem headerPunctuation?_writtenAs {character : Char} {kind : TokenKind}
    (found : headerPunctuation? character = some kind) : kind.WrittenAs [character] := by
  unfold headerPunctuation? at found
  repeat' split at found
  all_goals
    cases found <;> (subst_vars; rfl)

theorem itemLead_number {character : Char} {rest : List Char}
    (announced : itemLead character rest = .number) : character ≠ '+' := by
  rintro rfl
  have stray : itemLead '+' rest = .stray := rfl
  rw [stray] at announced
  cases announced

theorem scanNumber_covered {offset : Nat} {first : Char} {rest : List Char}
    (noPlus : first ≠ '+') (clean : (scanNumber offset first rest).reports = [])
    (further : Covered trim (before ++ (scanNumber offset first rest).tokens)
      (scanNumber offset first rest).offset (scanNumber offset first rest).rest tail) :
    CoveredFrom trim before offset (first :: rest)
      ((scanNumber offset first rest).tokens ++ tail) := by
  unfold scanNumber at *
  dsimp only at *
  cases found : (NumberLiteral.ofFront first rest).kind? with
  | none => simp [found] at clean
  | some kind =>
      rw [found] at further
      exact .cons (NumberLiteral.characters_append_rest first rest) rfl
        (NumberLiteral.kind?_writtenAs found noPlus) further

theorem scanWord_covered {offset : Nat} {first : Char} {rest : List Char}
    (further : Covered trim (before ++ (scanWord offset first rest).tokens)
      (scanWord offset first rest).offset (scanWord offset first rest).rest tail) :
    CoveredFrom trim before offset (first :: rest)
      ((scanWord offset first rest).tokens ++ tail) := by
  have split : (first :: takeName rest) ++ dropName rest = first :: rest :=
    congrArg (first :: ·) (takeName_append_dropName rest)
  exact .cons split rfl (wordKind_writtenAs _) further

theorem scanItem_covered {offset : Nat} {character : Char} {rest : List Char}
    (clean : (scanItem (itemLead character rest) offset character rest).reports = [])
    (further :
      Covered trim
        (before ++ (scanItem (itemLead character rest) offset character rest).tokens)
        (scanItem (itemLead character rest) offset character rest).offset
        (scanItem (itemLead character rest) offset character rest).rest tail) :
    CoveredFrom trim before offset (character :: rest)
      ((scanItem (itemLead character rest) offset character rest).tokens ++ tail) := by
  cases announced : itemLead character rest with
  | punctuation kind =>
      rw [announced] at further
      have found := headerPunctuation?_of_itemLead announced
      exact .punctuation (headerPunctuation?_writtenAs found)
        (utf8Size_of_headerPunctuation? found) further
  | path =>
      rw [announced] at clean further
      rw [itemLead_path announced]
      exact scanPath_covered clean further
  | macroCall =>
      rw [announced] at further
      rw [itemLead_macroCall announced]
      exact scanMacroName_covered further
  | number =>
      rw [announced] at clean further
      exact scanNumber_covered (itemLead_number announced) clean further
  | word =>
      rw [announced] at further
      exact scanWord_covered further
  | stray =>
      rw [announced] at clean
      cases clean

/-- Tokens end inside a header, where `depth` further groups are open. -/
structure EndsInHeader (tokens : List Token) (depth : Nat) : Prop where
  opened : ∃ earlier opener span inside,
    tokens = earlier ++ opener :: ⟨.leftParen, span⟩ :: inside ∧
      opener.kind.takesHeader ∧
        ∀ after, groupCloses 0 (inside ++ after) = groupCloses depth after
  unsplit : ∀ earlier span, tokens ≠ earlier ++ [⟨.dollar, span⟩]

namespace EndsInHeader

variable {depth : Nat}

theorem start {opener : Token} (takes : opener.kind.takesHeader) (offset : Nat) :
    EndsInHeader (before ++ [opener] ++ [punctuationToken .leftParen offset]) 0 where
  opened := ⟨before, opener, ⟨offset, offset + 1⟩, [], by simp [punctuationToken], takes,
    fun _ => rfl⟩
  unsplit earlier span same := by
    have last := (List.append_inj' same rfl).2
    cases last

theorem append {inner : Nat} {tokens : List Token} (ends : EndsInHeader before depth)
    (groups : ∀ after, groupCloses depth (tokens ++ after) = groupCloses inner after)
    (unsplit : ∀ earlier span, before ++ tokens ≠ earlier ++ [⟨.dollar, span⟩]) :
    EndsInHeader (before ++ tokens) inner where
  opened := by
    obtain ⟨earlier, opener, span, inside, rfl, takes, closing⟩ := ends.opened
    refine ⟨earlier, opener, span, inside ++ tokens, by simp, takes, fun after => ?_⟩
    rw [List.append_assoc, closing, groups]
  unsplit := unsplit

/-- A single token can be added if it is not the sigil of a path. -/
theorem concat {inner : Nat} {token : Token} (ends : EndsInHeader before depth)
    (groups : ∀ after, groupCloses depth (token :: after) = groupCloses inner after)
    (other : token.kind ≠ .dollar) : EndsInHeader (before ++ [token]) inner := by
  refine ends.append groups fun earlier span same => other ?_
  have last := (List.append_inj' same rfl).2
  rw [(List.cons.inj last).1]

theorem plain {tokens : List Token} (ends : EndsInHeader before depth)
    (plain : Plain tokens) : EndsInHeader (before ++ tokens) depth := by
  refine ends.append (plain.groups depth) fun earlier span same => ?_
  rcases List.eq_nil_or_concat tokens with rfl | ⟨front, last, rfl⟩
  · rw [List.append_nil] at same
    exact ends.unsplit earlier span same
  · rw [List.concat_eq_append] at plain same
    rw [← List.append_assoc] at same
    obtain rfl := (List.cons.inj (List.append_inj' same rfl).2).1
    -- A name follows every sigil, so that it is not the last of plain tokens.
    have lexed := plain.lexed [] .nil
    obtain ⟨name, named⟩ := lexed.sigils front span [] (by simp)
    cases named

theorem inHeader (ends : EndsInHeader before depth) {after : List Token}
    (closes : groupCloses depth after) : InHeader before after where
  opened := by
    obtain ⟨earlier, opener, span, inside, split, takes, closing⟩ := ends.opened
    have still := closing []
    rw [List.append_nil] at still
    exact ⟨earlier, opener, span, inside, split, takes, still, (closing after).trans closes⟩
  unsplit := ends.unsplit

/-- Inside a header, a text is covered also from before its blanks on. -/
theorem skipBlanks (ends : EndsInHeader before depth) {offset : Nat}
    {characters rest : List Char} {tokens : List Token} (closes : groupCloses depth tokens)
    (dropped : characters.dropWhile isBlank = rest)
    (covers : CoveredFrom trim before
      (offset + byteLength (characters.takeWhile isBlank)) rest tokens) :
    Covered trim before offset characters tokens := by
  have gap : Gap trim before tokens (characters.takeWhile isBlank) :=
    .header (ends.inHeader closes) List.all_takeWhile
  have whole := covers offset _ rfl gap
  rwa [← dropped, List.takeWhile_append_dropWhile] at whole

end EndsInHeader

theorem headerLead_opening {character : Char} {rest : List Char}
    (announced : headerLead character rest = .opening) : character = '(' := by
  unfold headerLead at announced
  repeat' split at announced
  all_goals first | assumption | cases announced

theorem headerLead_quote {character : Char} {rest : List Char}
    (announced : headerLead character rest = .quote) :
    character = '"' ∨ character = '\'' := by
  unfold headerLead at announced
  repeat' split at announced
  all_goals first | assumption | cases announced

theorem scanHeader_groupCloses {opener depth offset : Nat} {characters : List Char}
    (clean : (scanHeader opener depth offset characters).reports = [])
    (tail : List Token) :
    groupCloses depth ((scanHeader opener depth offset characters).tokens ++ tail) := by
  have closes := (scanHeader_closes opener depth offset characters clean [] .nil).2
  rw [List.append_nil] at closes
  exact groupCloses_append closes tail

theorem scanHeader_covered (opener depth offset : Nat) (characters : List Char) :
    ∀ before, (scanHeader opener depth offset characters).reports = [] →
      EndsInHeader before depth →
      Covered trim (before ++ (scanHeader opener depth offset characters).tokens)
        (scanHeader opener depth offset characters).offset
        (scanHeader opener depth offset characters).rest tail →
      Covered trim before offset characters
        ((scanHeader opener depth offset characters).tokens ++ tail) := by
  -- The tokens so far end in the header, and each token changes how deep.
  fun_induction scanHeader opener depth offset characters with
  | case1 =>
      intro before clean
      cases clean
  | case2 depth offset characters start character rest dropped announced ih =>
      intro before clean ends further
      refine ends.skipBlanks (scanHeader_groupCloses clean tail) dropped ?_
      rw [headerLead_opening announced]
      have inner : EndsInHeader (before ++ [punctuationToken .leftParen start])
          (depth + 1) := ends.concat (fun _ => rfl) (by simp [punctuationToken])
      refine .punctuation rfl (by decide) (ih _ clean inner ?_)
      simpa [Scan.prepend] using further
  | case3 offset characters start character rest dropped announced =>
      intro before clean ends further
      refine ends.skipBlanks rfl dropped ?_
      rw [headerLead_closing announced]
      exact .punctuation rfl (by decide) further
  | case4 offset characters start character rest dropped announced depth ih =>
      intro before clean ends further
      refine ends.skipBlanks (scanHeader_groupCloses clean tail) dropped ?_
      rw [headerLead_closing announced]
      have outer : EndsInHeader (before ++ [punctuationToken .rightParen start]) depth :=
        ends.concat (fun _ => rfl) (by simp [punctuationToken])
      refine .punctuation rfl (by decide) (ih _ clean outer ?_)
      simpa [Scan.prepend] using further
  | case5 =>
      intro before clean
      cases clean
  | case6 depth offset characters start character rest dropped announced body read stop
      ih =>
      intro before clean ends further
      refine ends.skipBlanks (scanHeader_groupCloses clean tail) dropped ?_
      have isQuote := headerLead_quote announced
      obtain ⟨written, split, quoted⟩ := readString?_quotedAs read
      have whole : character :: body.written ++ body.rest = character :: rest :=
        congrArg (character :: ·) (readString?_written read).symm
      have bytes : stop = start + byteLength (character :: body.written) := by
        have ascii := utf8Size_quote announced
        rw [byteLength_cons, ascii]
        simp only [stop]
        omega
      have still : EndsInHeader
          (before ++ [⟨.string (String.ofList body.content), ⟨start, stop⟩⟩]) depth :=
        ends.concat (fun _ => rfl) (by simp)
      refine .cons whole bytes ⟨character, written, isQuote, ?_, ?_⟩
        (ih _ clean still ?_)
      · rw [split]
      · rwa [String.toList_ofList]
      · simpa [Scan.prepend] using further
  | case7 depth offset characters start character rest dropped lead announced scan ih =>
      intro before clean ends further
      obtain ⟨itemClean, restClean⟩ := List.append_eq_nil_iff.mp clean
      have lead := headerLead_item announced
      subst lead
      have plain : Plain scan.tokens := scanItem_plain character rest start
      simp only [Scan.prepend, List.append_assoc] at further ⊢
      refine ends.skipBlanks ?_ dropped (scanItem_covered itemClean (ih _ restClean ?_ ?_))
      · rw [plain.groups]
        exact scanHeader_groupCloses restClean tail
      · exact ends.plain plain
      · simpa only [List.append_assoc] using further

theorem scanOptionalHeader_coveredFrom {opener : Token} {offset : Nat} {rest : List Char}
    (takes : opener.kind.takesHeader)
    (clean : (scanOptionalHeader offset ('(' :: rest)).reports = [])
    (further :
      Covered trim (before ++ [opener] ++ (scanOptionalHeader offset ('(' :: rest)).tokens)
        (scanOptionalHeader offset ('(' :: rest)).offset
        (scanOptionalHeader offset ('(' :: rest)).rest tail) :
    CoveredFrom trim (before ++ [opener]) offset ('(' :: rest)
      ((scanOptionalHeader offset ('(' :: rest)).tokens ++ tail) := by
  have inside : EndsInHeader
      (before ++ [opener] ++ [punctuationToken .leftParen offset]) 0 := .start takes offset
  refine .punctuation rfl (by decide) (scanHeader_covered _ _ _ _ _ clean inside ?_)
  simpa [scanOptionalHeader, Scan.prepend] using further

theorem scanOptionalHeader_covered {opener : Token} {offset : Nat} {characters : List Char}
    (takes : opener.kind.takesHeader)
    (clean : (scanOptionalHeader offset characters).reports = [])
    (further :
      Covered trim (before ++ [opener] ++ (scanOptionalHeader offset characters).tokens)
        (scanOptionalHeader offset characters).offset
        (scanOptionalHeader offset characters).rest tail) :
    Covered trim (before ++ [opener]) offset characters
      ((scanOptionalHeader offset characters).tokens ++ tail) := by
  by_cases opens : startsWith (· == '(') characters
  · obtain ⟨rest, rfl⟩ := exists_of_startsWith opens
    exact (scanOptionalHeader_coveredFrom takes clean further).covered
  · have idle : scanOptionalHeader offset characters = Scan.idle offset characters := by
      unfold scanOptionalHeader
      split
      · exact absurd rfl opens
      · rfl
    rw [idle] at further ⊢
    simpa [Scan.idle] using further

theorem scanMacroCall_covered {offset : Nat} {characters : List Char}
    (clean : (scanMacroCall offset characters).reports = [])
    (further : Covered trim (before ++ (scanMacroCall offset characters).tokens)
      (scanMacroCall offset characters).offset (scanMacroCall offset characters).rest
        tail) :
    CoveredFrom trim before offset ('@' :: characters)
      ((scanMacroCall offset characters).tokens ++ tail) := by
  simp only [scanMacroCall, Scan.prepend, List.append_assoc] at clean further ⊢
  refine scanMacroName_covered (scanOptionalHeader_covered rfl clean ?_)
  rwa [List.append_assoc]

/-- A header may stand apart from its directive by spaces and tabs. -/
theorem scanKeywordHeader_covered {keyword : Keyword} {word : String} {span : Span}
    {offset : Nat} {characters : List Char} (known : Keyword.ofWord? word = some keyword)
    (clean : (scanKeywordHeader keyword offset characters).reports = [])
    (further : Covered trim
      (before ++ [⟨.directive word, span⟩] ++
        (scanKeywordHeader keyword offset characters).tokens)
      (scanKeywordHeader keyword offset characters).offset
      (scanKeywordHeader keyword offset characters).rest tail) :
    Covered trim (before ++ [⟨.directive word, span⟩]) offset characters
      ((scanKeywordHeader keyword offset characters).tokens ++ tail) := by
  have idle (further : Covered trim (before ++ [⟨.directive word, span⟩] ++
      (Scan.idle offset characters).tokens) offset characters tail) :
      Covered trim (before ++ [⟨.directive word, span⟩]) offset characters
        ((Scan.idle offset characters).tokens ++ tail) := by
    simpa [Scan.idle] using further
  unfold scanKeywordHeader at *
  by_cases takes : keyword.takesHeader
  · rw [if_pos takes] at *
    unfold scanPaddedHeader at *
    dsimp only at *
    by_cases opens : startsWith (· == '(') (characters.dropWhile isPadding)
    · rw [if_pos opens] at *
      obtain ⟨rest, dropped⟩ := exists_of_startsWith opens
      rw [dropped] at clean further ⊢
      have opener : (Token.mk (.directive word) span).kind.takesHeader := by
        simp [TokenKind.takesHeader, known, takes]
      have header := scanOptionalHeader_coveredFrom opener clean further
      have padded := header offset (characters.takeWhile isPadding) rfl
        (.padding rfl known takes rfl List.all_takeWhile)
      have split : characters.takeWhile isPadding ++ '(' :: rest = characters := by
        rw [← dropped, List.takeWhile_append_dropWhile]
      rwa [split] at padded
    · rw [if_neg opens] at *
      exact idle further
  · rw [if_neg takes] at *
    exact idle further

theorem trimLineBreak_covered {offset : Nat} {characters : List Char}
    (allowed : ∀ gap, trim → gap = ['\n'] ∨ gap = ['\r', '\n'] → Gap trim before tail gap)
    (further : CoveredFrom trim before (trimLineBreak trim offset characters).1
      (trimLineBreak trim offset characters).2 tail) :
    Covered trim before offset characters tail := by
  cases trim with
  | false => exact further.covered
  | true =>
      simp only [trimLineBreak, if_true] at further
      unfold skipLineBreak at further
      split at further
      · exact further offset ['\r', '\n'] rfl (allowed _ rfl (.inr rfl))
      · exact further offset ['\n'] rfl (allowed _ rfl (.inl rfl))
      · exact further.covered

theorem scanDirective_covered {offset : Nat} {characters : List Char}
    (clean : (scanDirective trim offset characters).reports = [])
    (apart : nextKind tail ≠ .leftParen)
    (further : CoveredFrom trim (before ++ (scanDirective trim offset characters).tokens)
      (scanDirective trim offset characters).offset
      (scanDirective trim offset characters).rest tail) :
    CoveredFrom trim before offset ('#' :: characters)
      ((scanDirective trim offset characters).tokens ++ tail) := by
  have written : (TokenKind.directive (String.ofList (takeName characters))).WrittenAs
      ('#' :: takeName characters) :=
    congrArg ('#' :: ·) (String.toList_ofList).symm
  cases known : Keyword.ofWord? (String.ofList (takeName characters)) with
  | none =>
      rw [scanDirective_of_unknown trim offset known] at further ⊢
      exact .sigilName written (by decide) further.covered
  | some keyword =>
      rw [scanDirective_of_keyword trim offset known] at clean further ⊢
      dsimp only at clean further ⊢
      obtain ⟨group, -⟩ := scanKeywordHeader_group clean
        (String.ofList (takeName characters))
        (show (directiveToken offset characters).span.stop = _ from rfl)
      refine .sigilName written (by decide) (scanKeywordHeader_covered known clean ?_)
      rw [List.append_assoc]
      -- The line break belongs to the gap before the first token of the tail.
      refine trimLineBreak_covered (fun gap trims isBreak => ?_) further
      exact .lineBreak trims rfl known group apart isBreak

theorem scanSigil_covered {sigil : Char} (isSigil : isSigil sigil) {offset : Nat}
    {characters : List Char} (clean : (scanSigil trim sigil offset characters).reports = [])
    (apart : nextKind tail ≠ .leftParen)
    (further : CoveredFrom trim (before ++ (scanSigil trim sigil offset characters).tokens)
      (scanSigil trim sigil offset characters).offset
      (scanSigil trim sigil offset characters).rest tail) :
    CoveredFrom trim before offset (sigil :: characters)
      ((scanSigil trim sigil offset characters).tokens ++ tail) := by
  rcases eq_of_isSigil isSigil with rfl | rfl | rfl
  · exact scanPath_covered clean further.covered
  · exact scanMacroCall_covered clean further.covered
  · exact scanDirective_covered clean apart further

theorem TextRun.covered {offset : Nat} {characters : List Char}
    (further : CoveredFrom trim (before ++ (ofFront characters).tokens offset)
      (offset + byteLength (ofFront characters).written) (ofFront characters).rest tail) :
    CoveredFrom trim before offset characters
      ((ofFront characters).tokens offset ++ tail) := by
  have split := written_append_rest characters
  unfold tokens at *
  by_cases empty : (ofFront characters).content = []
  · have nothing := (written_eq_nil_iff characters).mpr empty
    rw [nothing, List.nil_append] at split
    rw [if_pos empty, split, nothing] at further
    simpa [empty] using further
  · rw [if_neg empty] at *
    have nonempty := mt (written_eq_nil_iff characters).mp empty
    refine .cons split rfl ⟨nonempty, ?_⟩ further.covered
    rw [singleSigils_written, String.toList_ofList]

theorem scanBody_covered (offset : Nat) (characters : List Char) :
    ∀ before, (scanBody trim offset characters).reports = [] →
      CoveredFrom trim before offset characters
        (scanBody trim offset characters).tokens := by
  fun_induction scanBody trim offset characters with
  | case1 offset characters run start runRest =>
      intro before _
      refine TextRun.covered ?_
      rw [show (TextRun.ofFront characters).rest = [] from runRest]
      exact .cons rfl rfl rfl .nil
  | case2 offset characters run start sigil rest runRest scan ih =>
      intro before clean
      obtain ⟨scanClean, restClean⟩ := List.append_eq_nil_iff.mp clean
      have isSigil := TextRun.isSigil_of_rest runRest
      have apart : nextKind (scanBody trim scan.offset scan.rest).tokens ≠ .leftParen :=
        (scanBody_begins trim scan.offset scan.rest).nextKind_ne rfl rfl
      simp only [Scan.prepend, List.append_assoc]
      refine TextRun.covered ?_
      rw [show (TextRun.ofFront characters).rest = sigil :: rest from runRest]
      exact scanSigil_covered isSigil scanClean apart (ih _ restClean)

theorem tokenize_covered {text : String} (clean : (tokenize trim text).2 = []) :
    Covered trim [] 0 text.toList (tokenize trim text).1 :=
  (scanBody_covered 0 text.toList [] clean).covered

end Covering

/-- A token with the characters that write it and those that are left out before it. -/
structure PlacedToken where
  gap : List Char
  slice : List Char
  token : Token
  deriving DecidableEq, Repr

namespace PlacedToken

def characters (placed : PlacedToken) : List Char :=
  placed.gap ++ placed.slice

/-- The characters of tokens that follow each other. -/
def text (placed : List PlacedToken) : List Char :=
  placed.flatMap characters

end PlacedToken

theorem Gap.all_isBlank {trim : Bool} {before after : List Token} {gap : List Char}
    (allowed : Gap trim before after gap) : gap.all isBlank := by
  cases allowed with
  | empty => rfl
  | header _ blank => exact blank
  | padding _ _ _ _ padding =>
      rw [List.all_eq_true] at padding ⊢
      intro character member
      have either : character = ' ' ∨ character = '\t' := by
        simpa [isPadding] using padding character member
      rcases either with rfl | rfl <;> rfl
  | lineBreak _ _ _ _ _ isBreak => rcases isBreak with rfl | rfl <;> rfl

theorem Covered.placed {trim : Bool} {before tokens : List Token} {offset : Nat}
    {characters : List Char} (covered : Covered trim before offset characters tokens) :
    ∃ placed : List PlacedToken,
      placed.map PlacedToken.token = tokens ∧ PlacedToken.text placed = characters ∧
        ∀ front own back, placed = front ++ own :: back →
          own.token.span =
              ⟨offset + byteLength (PlacedToken.text front ++ own.gap),
                offset + byteLength (PlacedToken.text front ++ own.characters)⟩ ∧
            own.token.kind.WrittenAs own.slice ∧
              Gap trim (before ++ front.map PlacedToken.token)
                (own.token :: back.map PlacedToken.token) own.gap := by
  induction covered with
  | nil => exact ⟨[], rfl, rfl, by simp⟩
  | @cons before tokens token offset start gap slice rest allowed begins span written
      further ih =>
      obtain ⟨others, isTokens, isText, each⟩ := ih
      refine ⟨⟨gap, slice, token⟩ :: others, by simp [isTokens], ?_, ?_⟩
      · simp [PlacedToken.text, PlacedToken.characters, ← isText]
      · intro front own back split
        cases front with
        | nil =>
            obtain ⟨rfl, rfl⟩ := List.cons.inj split
            refine ⟨?_, written, ?_⟩
            · simp [span, begins, PlacedToken.text, PlacedToken.characters, Nat.add_assoc]
            · simpa [isTokens] using allowed
        | cons first front =>
            obtain ⟨rfl, rfl⟩ := List.cons.inj split
            obtain ⟨ownSpan, ownWritten, ownAllowed⟩ := each front own back rfl
            refine ⟨?_, ownWritten, by simpa using ownAllowed⟩
            simp [ownSpan, begins, PlacedToken.text, PlacedToken.characters, Nat.add_assoc]

/-- Scanning loses nothing: the text of a template that is scanned without a report
consists of the written forms of its tokens, in order and at their spans, and of gaps
between them.  A gap has only blanks, and lies inside a header, between a directive and
its header, or is the trimmed line break after a directive. -/
theorem tokenize_loses_nothing (trim : Bool) (text : String)
    (clean : (tokenize trim text).2 = []) :
    ∃ placed : List PlacedToken,
      placed.map PlacedToken.token = (tokenize trim text).1 ∧
        PlacedToken.text placed = text.toList ∧
        ∀ front own back, placed = front ++ own :: back →
          own.token.span =
              ⟨byteLength (PlacedToken.text front ++ own.gap),
                byteLength (PlacedToken.text front ++ own.characters)⟩ ∧
            own.token.kind.WrittenAs own.slice ∧ own.gap.all isBlank ∧
              Gap trim (front.map PlacedToken.token)
                (own.token :: back.map PlacedToken.token) own.gap := by
  obtain ⟨placed, isTokens, isText, each⟩ := (tokenize_covered clean).placed
  refine ⟨placed, isTokens, isText, ?_⟩
  intro front own back split
  obtain ⟨span, written, allowed⟩ := each front own back split
  rw [Nat.zero_add, Nat.zero_add] at span
  rw [List.nil_append] at allowed
  exact ⟨span, written, allowed.all_isBlank, allowed⟩

/-- Every kind of gap: after a directive, in headers, and the line break after one. -/
theorem tokenize_loses_nothing_conditional :
    let text := "1$$ #if \t( @f( -7, 'a\\'b' ) )\r\n$x.y[0]#end"
    (tokenize true text).2 = [] ∧ (tokenize true text).1.length = 19 ∧
      ∃ placed : List PlacedToken,
        placed.map PlacedToken.token = (tokenize true text).1 ∧
          PlacedToken.text placed = text.toList ∧
          ∀ front own back, placed = front ++ own :: back →
            own.token.kind.WrittenAs own.slice ∧ own.gap.all isBlank := by
  intro text
  have clean : (tokenize true text).2 = [] := by decide +kernel
  obtain ⟨placed, isTokens, isText, each⟩ := tokenize_loses_nothing true text clean
  refine ⟨clean, by decide +kernel, placed, isTokens, isText, ?_⟩
  intro front own back split
  obtain ⟨-, written, blank, -⟩ := each front own back split
  exact ⟨written, blank⟩

end Stencil
