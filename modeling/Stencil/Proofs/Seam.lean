import Stencil.Proofs.ScanBytes
import Stencil.Proofs.TextRuns
import Stencil.Program.Body

/-!
# Scanning a text that goes on

A template that ends with literal text may go on with more text.  Unless the
additional text completes what the last literal text began, all tokens stay as
they are, the literal texts on both sides of the seam are joined, and what follows
is scanned as it would be alone.
-/

namespace Stencil

def TokenKind.endsPath : TokenKind → Bool
  | .name _ | .rightBracket => true
  | _ => false

/-- The tokens of the header of a directive: none, or those of a group that closes
with the last of them. -/
def HeaderGroup (tokens : List Token) : Prop :=
  tokens = [] ∨ ∃ openSpan inside closeSpan,
    tokens = ⟨.leftParen, openSpan⟩ :: (inside ++ [⟨.rightParen, closeSpan⟩]) ∧
      groupCloses 0 inside = false ∧
        groupCloses 0 (inside ++ [⟨.rightParen, closeSpan⟩])

/-- More text does not complete anything that tokens, which end with literal text,
leave unfinished: no header is missing, no path goes on, and no line break becomes
one that is trimmed. -/
structure SeamFree (trim : Bool) (more : List Char) (tokens : List Token) : Prop where
  headers : ∀ before word span rest keyword,
    tokens = before ++ ⟨.directive word, span⟩ :: rest →
      Keyword.ofWord? word = some keyword → keyword.takesHeader →
        nextKind rest = .leftParen
  paths : ∀ before last content span final,
    tokens = before ++ [last, ⟨.text content, span⟩, final] →
      last.kind.endsPath → readPathPiece? (content.toList ++ more) = none
  breaks : ∀ before word span header content textSpan final,
    tokens = before ++ ⟨.directive word, span⟩ ::
        (header ++ [⟨.text content, textSpan⟩, final]) →
      HeaderGroup header →
        lastStop (⟨.directive word, span⟩ :: header) = textSpan.start →
          trim → content = "\r" → startsWith (· == '\n') more = false

theorem SeamFree.of_append {trim : Bool} {more : List Char} {first second : List Token}
    (free : SeamFree trim more (first ++ second)) : SeamFree trim more second where
  headers before word span rest keyword split :=
    free.headers (first ++ before) word span rest keyword
      (by rw [split, List.append_assoc])
  paths before last content span final split :=
    free.paths (first ++ before) last content span final
      (by rw [split, List.append_assoc])
  breaks before word span header content textSpan final split :=
    free.breaks (first ++ before) word span header content textSpan final
      (by rw [split, List.append_assoc])

theorem exists_of_startsWith {character : Char} {characters : List Char}
    (starts : startsWith (· == character) characters) :
    ∃ rest, characters = character :: rest := by
  cases characters with
  | nil => cases starts
  | cons first rest =>
      obtain rfl : first = character := by simpa [startsWith] using starts
      exact ⟨rest, rfl⟩

theorem lastStop_append {front tokens : List Token} (nonempty : tokens ≠ []) :
    lastStop (front ++ tokens) = lastStop tokens := by
  obtain ⟨others, last, rfl⟩ := (List.eq_nil_or_concat tokens).resolve_left nonempty
  simp [lastStop]

theorem scanOptionalHeader_group {offset : Nat} {characters : List Char}
    (opens : startsWith (· == '(') characters)
    (clean : (scanOptionalHeader offset characters).reports = []) :
    ∃ openSpan inside closeSpan,
      (scanOptionalHeader offset characters).tokens =
        ⟨.leftParen, openSpan⟩ :: (inside ++ [⟨.rightParen, closeSpan⟩]) ∧
      closeSpan.stop = (scanOptionalHeader offset characters).offset ∧
        groupCloses 0 inside = false ∧
          groupCloses 0 (inside ++ [⟨.rightParen, closeSpan⟩]) := by
  obtain ⟨rest, rfl⟩ := exists_of_startsWith opens
  obtain ⟨inside, span, split, stop, opened⟩ :=
    scanHeader_ends offset 0 (offset + 1) rest clean
  obtain ⟨-, closes⟩ := scanHeader_closes offset 0 (offset + 1) rest clean [] .nil
  rw [List.append_nil, split] at closes
  exact ⟨⟨offset, offset + 1⟩, inside, span,
    congrArg (punctuationToken .leftParen offset :: ·) split, stop, opened, closes⟩

/-- Where a directive has a header, it is a group that closes directly before the
text that is left. -/
theorem scanKeywordHeader_group {keyword : Keyword} {offset : Nat}
    {characters : List Char}
    (clean : (scanKeywordHeader keyword offset characters).reports = []) (word : String)
    {span : Span} (stop : span.stop = offset) :
    HeaderGroup (scanKeywordHeader keyword offset characters).tokens ∧
      lastStop (⟨.directive word, span⟩ ::
        (scanKeywordHeader keyword offset characters).tokens) =
          (scanKeywordHeader keyword offset characters).offset := by
  have idle : HeaderGroup (Scan.idle offset characters).tokens ∧
      lastStop (⟨.directive word, span⟩ :: (Scan.idle offset characters).tokens) =
        (Scan.idle offset characters).offset :=
    ⟨.inl rfl, stop⟩
  unfold scanKeywordHeader at *
  by_cases takes : keyword.takesHeader
  · rw [if_pos takes] at *
    unfold scanPaddedHeader at *
    dsimp only at *
    by_cases opens : startsWith (· == '(') (characters.dropWhile isPadding)
    · rw [if_pos opens] at *
      obtain ⟨openSpan, inside, closeSpan, tokens, closeStop, opened, closes⟩ :=
        scanOptionalHeader_group opens clean
      refine ⟨.inr ⟨openSpan, inside, closeSpan, tokens, opened, closes⟩, ?_⟩
      rw [tokens, ← closeStop]
      simp [lastStop, List.getLast?_cons]
    · rw [if_neg opens]
      exact idle
  · rw [if_neg takes]
    exact idle

theorem scanKeywordHeader_nil (keyword : Keyword) (offset : Nat) :
    (scanKeywordHeader keyword offset []).rest = [] := by
  unfold scanKeywordHeader
  split <;> rfl

theorem scanDirective_followedBy {trim : Bool} {offset : Nat} {characters : List Char}
    {more : List Char} {tail : List Token}
    (clean : (scanDirective trim offset characters).reports = [])
    (left : (scanDirective trim offset characters).rest ≠ [])
    (free : SeamFree trim more ((scanDirective trim offset characters).tokens ++ tail))
    (tailOpens : nextKind tail ≠ .leftParen)
    (tailText : (scanDirective trim offset characters).rest = ['\r'] →
      ∃ span final, tail = [⟨.text "\r", span⟩, final] ∧
        span.start = (scanDirective trim offset characters).offset) :
    scanDirective trim offset (characters ++ more) =
      (scanDirective trim offset characters).followedBy more := by
  have nameLeft : dropName characters ≠ [] := by
    intro nothing
    apply left
    cases known : Keyword.ofWord? (String.ofList (takeName characters)) with
    | none => rw [scanDirective_of_unknown trim offset known, nothing]
    | some keyword =>
        rw [scanDirective_of_keyword trim offset known, nothing]
        have suffix := trimLineBreak_suffix trim (scanKeywordHeader keyword
          (offset + 1 + byteLength (takeName characters)) []).offset (scanKeywordHeader
            keyword (offset + 1 + byteLength (takeName characters)) []).rest
        rw [scanKeywordHeader_nil] at suffix
        simpa [scanKeywordHeader_nil] using suffix
  have name : takeName (characters ++ more) = takeName characters :=
    takeWhile_append_of_left nameLeft more
  have after : dropName (characters ++ more) = dropName characters ++ more :=
    dropWhile_append_of_left nameLeft more
  have token : directiveToken offset (characters ++ more) =
      directiveToken offset characters := by
    simp only [directiveToken, name]
  cases known : Keyword.ofWord? (String.ofList (takeName characters)) with
  | none =>
      rw [scanDirective_of_unknown trim offset known,
        scanDirective_of_unknown trim offset (name ▸ known), name, after, token]
      rfl
  | some keyword =>
      rw [scanDirective_of_keyword trim offset known] at *
      rw [scanDirective_of_keyword trim offset (name ▸ known), name, after, token]
      dsimp only at *
      obtain ⟨group, stop⟩ := scanKeywordHeader_group clean
        (String.ofList (takeName characters))
        (show (directiveToken offset characters).span.stop = _ from rfl)
      have headerLocal := fun left present =>
        scanKeywordHeader_followedBy clean left present more
      generalize scanKeywordHeader keyword (offset + 1 + byteLength (takeName characters))
        (dropName characters) = header at *
      have headerLeft : header.rest ≠ [] := by
        intro nothing
        have suffix := trimLineBreak_suffix trim header.offset header.rest
        rw [nothing] at suffix left
        exact left (List.suffix_nil.mp suffix)
      have present : keyword.takesHeader → header.tokens ≠ [] := by
        intro takes missing
        have opens := free.headers [] _ _ (header.tokens ++ tail) keyword rfl known takes
        rw [missing] at opens
        exact tailOpens opens
      -- A line break is cut in two only if the rest of the template is its first half.
      have whole : trim → header.rest = ['\r'] → startsWith (· == '\n') more = false := by
        intro trims isReturn
        have kept : trimLineBreak trim header.offset header.rest =
            (header.offset, ['\r']) := by
          rw [isReturn]
          cases trim <;> rfl
        obtain ⟨span, final, rfl, start⟩ := tailText (congrArg Prod.snd kept)
        rw [kept] at start
        exact free.breaks [] _ _ header.tokens _ span final rfl group (stop.trans start.symm)
          trims rfl
      rw [headerLocal headerLeft present]
      simp only [Scan.followedBy, trimLineBreak_append trim header.offset headerLeft whole]

theorem scanPathPieces_ends (offset : Nat) (characters : List Char) :
    (scanPathPieces offset characters).tokens = [] ∨
      ∃ front last, (scanPathPieces offset characters).tokens = front ++ [last] ∧
        last.kind.endsPath := by
  fun_induction scanPathPieces offset characters with
  | case1 => exact .inl rfl
  | case2 offset characters piece rest read scanned ih =>
      right
      rcases ih with nothing | ⟨front, last, split, ends⟩
      · cases piece with
        | field name =>
            exact ⟨[punctuationToken .dot offset], _, by
              simp only [Scan.prepend, nothing]; rfl, rfl⟩
        | index digits =>
            exact ⟨_ :: [_], _, by simp only [Scan.prepend, nothing]; rfl, rfl⟩
      · exact ⟨scanned.1 ++ front, last, by simp [Scan.prepend, split], ends⟩

theorem scanPath_ends (offset : Nat) (characters : List Char) :
    ∃ front last, (scanPath offset characters).tokens = front ++ [last] ∧
      last.kind.endsPath := by
  rcases scanPathPieces_ends (offset + 1 + byteLength (takeName characters))
    (dropName characters) with nothing | ⟨front, last, split, ends⟩
  · exact ⟨[punctuationToken .dollar offset], _, by
      simp only [scanPath, Scan.prepend, nothing]; rfl, rfl⟩
  · exact ⟨[punctuationToken .dollar offset, _] ++ front, last, by
      simp only [scanPath, Scan.prepend, split, List.append_assoc]; rfl, ends⟩

/-- Whether a kind of token can be the first one of a path, a macro call or a
directive in the text. -/
def TokenKind.startsPiece : TokenKind → Bool
  | .dollar | .macroName _ | .directive _ => true
  | _ => false

theorem scanSigil_first (trim : Bool) (sigil : Char) (offset : Nat)
    (characters : List Char) :
    ∃ token rest, (scanSigil trim sigil offset characters).tokens = token :: rest ∧
      token.kind.startsPiece ∧ token.span.start = offset := by
  unfold scanSigil
  split
  · exact ⟨_, _, rfl, rfl, rfl⟩
  · split
    · exact ⟨_, _, rfl, rfl, rfl⟩
    · cases known : Keyword.ofWord? (String.ofList (takeName characters)) with
      | none =>
          rw [scanDirective_of_unknown trim offset known]
          exact ⟨_, _, rfl, rfl, rfl⟩
      | some keyword =>
          rw [scanDirective_of_keyword trim offset known]
          exact ⟨_, _, rfl, rfl, rfl⟩

/-- Tokens that begin with literal text, with a piece, or with the end of the
input. -/
def BeginsBody (tokens : List Token) : Prop :=
  (∃ content, nextKind tokens = .text content) ∨ (nextKind tokens).startsPiece ∨
    nextKind tokens = .endOfInput

theorem scanAfterText_begins (trim : Bool) (start : Nat) (characters : List Char) :
    BeginsBody (scanAfterText trim start characters).tokens := by
  cases characters with
  | nil => exact .inr (.inr rfl)
  | cons sigil rest =>
      obtain ⟨token, others, split, starts, -⟩ := scanSigil_first trim sigil start rest
      refine .inr (.inl ?_)
      simp only [scanAfterText, Scan.prepend, split]
      exact starts

theorem scanBody_begins (trim : Bool) (offset : Nat) (characters : List Char) :
    BeginsBody (scanBody trim offset characters).tokens := by
  rw [scanBody_eq]
  by_cases empty : (TextRun.ofFront characters).content = []
  · simpa [Scan.prepend, TextRun.tokens, empty] using scanAfterText_begins trim _ _
  · exact .inl ⟨String.ofList (TextRun.ofFront characters).content, by
      simp [Scan.prepend, TextRun.tokens, empty, nextKind]⟩

theorem BeginsBody.nextKind_ne {tokens : List Token} (begins : BeginsBody tokens)
    {kind : TokenKind} (inner : kind.isMarkup) (other : kind.startsPiece = false) :
    nextKind tokens ≠ kind := by
  rintro rfl
  rcases begins with ⟨content, isText⟩ | starts | ended
  · simp [isText, TokenKind.isMarkup] at inner
  · simp [starts] at other
  · simp [ended, TokenKind.isMarkup] at inner

theorem scanBody_of_plain (trim : Bool) (offset : Nat) {characters : List Char}
    (nonempty : characters ≠ [])
    (plain : ∀ character ∈ characters, isSigil character = false) :
    ∃ final, (scanBody trim offset characters).tokens =
      [⟨.text (String.ofList characters),
        ⟨offset, offset + byteLength characters⟩⟩, final] := by
  rw [scanBody_eq, TextRun.ofFront_of_plain plain]
  exact ⟨_, by simp [Scan.prepend, TextRun.tokens, nonempty, scanAfterText]; rfl⟩

theorem endsPath_of_isSigil {character : Char} (sigil : isSigil character) :
    EndsPath character := by
  rcases eq_of_isSigil sigil with rfl | rfl | rfl <;>
    exact ⟨by decide, by decide, by decide⟩

/-- What a sigil starts stays the same when the text goes on, if what is left of
the text is scanned as a body whose seam is free. -/
theorem scanSigil_followedBy {trim : Bool} {sigil : Char} {offset : Nat}
    {characters more : List Char}
    (clean : (scanSigil trim sigil offset characters).reports = [])
    (left : (scanSigil trim sigil offset characters).rest ≠ [])
    (free : SeamFree trim more ((scanSigil trim sigil offset characters).tokens ++
      (scanBody trim (scanSigil trim sigil offset characters).offset
        (scanSigil trim sigil offset characters).rest).tokens)) :
    scanSigil trim sigil offset (characters ++ more) =
      (scanSigil trim sigil offset characters).followedBy more := by
  have tailOpens := (scanBody_begins trim (scanSigil trim sigil offset characters).offset
    (scanSigil trim sigil offset characters).rest).nextKind_ne
      (show TokenKind.leftParen.isMarkup from rfl) rfl
  unfold scanSigil at *
  by_cases isPath : sigil = '$'
  · simp only [isPath, if_true] at *
    apply scanPath_followedBy left
    have ended : readPathPiece? (scanPath offset characters).rest = none :=
      readPathPiece?_scanPathPieces_rest _ _
    by_cases hasSigil : ∃ character ∈ (scanPath offset characters).rest,
        isSigil character
    · obtain ⟨character, member, isSigil⟩ := hasSigil
      exact readPathPiece?_append_none ended member (endsPath_of_isSigil isSigil) more
    · obtain ⟨front, last, split, ends⟩ := scanPath_ends offset characters
      obtain ⟨final, tail⟩ := scanBody_of_plain trim (scanPath offset characters).offset
        left (by simpa using hasSigil)
      rw [split, tail, List.append_assoc] at free
      simpa using free.paths front last _ _ final rfl ends
  · by_cases isCall : sigil = '@'
    · simp only [isCall] at *
      exact scanMacroCall_followedBy clean left more
    · simp only [isPath, isCall, if_false] at *
      apply scanDirective_followedBy clean left free tailOpens
      intro isReturn
      obtain ⟨final, tail⟩ := scanBody_of_plain trim
        (scanDirective trim offset characters).offset left (by
          simp [isReturn]
          decide)
      rw [isReturn] at tail ⊢
      exact ⟨_, final, tail, rfl⟩

theorem utf8Size_of_isSigil {character : Char} (sigil : isSigil character) :
    character.utf8Size = 1 := by
  rcases eq_of_isSigil sigil with rfl | rfl | rfl <;> decide

theorem TextRun.tokens_eq_single {run : TextRun} {offset : Nat} {front : List Token}
    {token : Token} (same : run.tokens offset = front ++ [token]) :
    run.content ≠ [] ∧ front = [] ∧
      token = ⟨.text (String.ofList run.content),
        ⟨offset, offset + byteLength run.written⟩⟩ := by
  unfold TextRun.tokens at same
  by_cases empty : run.content = []
  · rw [if_pos empty] at same
    simp at same
  · rw [if_neg empty] at same
    cases front with
    | nil => exact ⟨empty, rfl, (List.singleton_inj.mp same).symm⟩
    | cons first others => simp at same

/-- Literal text at the end of a template comes after every piece. -/
theorem last_text_after {before piece after front : List Token} {content : String}
    {span : Span} {final : Token} (markup : Markup piece) (nonempty : piece ≠ [])
    (ends : ∃ others endSpan, after = others ++ [⟨.endOfInput, endSpan⟩])
    (split : before ++ piece ++ after = front ++ [⟨.text content, span⟩, final]) :
    ∃ others, front = before ++ piece ++ others ∧
      after = others ++ [⟨.text content, span⟩, final] := by
  obtain ⟨others, endSpan, rfl⟩ := ends
  rw [← List.append_assoc, List.append_cons front] at split
  obtain ⟨shorter, isFinal⟩ := List.append_inj' split rfl
  obtain rfl : (⟨.endOfInput, endSpan⟩ : Token) = final := by simpa using isFinal
  rcases List.eq_nil_or_concat others with rfl | ⟨others, last, rfl⟩
  · rw [List.append_nil] at shorter
    obtain ⟨pieceFront, last, rfl⟩ :=
      (List.eq_nil_or_concat piece).resolve_left nonempty
    rw [List.concat_eq_append, ← List.append_assoc] at shorter
    obtain ⟨-, isLast⟩ := List.append_inj' shorter rfl
    have := markup last (by simp)
    rw [List.singleton_inj.mp isLast] at this
    cases this
  · rw [List.concat_eq_append, ← List.append_assoc] at shorter
    obtain ⟨rfl, isLast⟩ := List.append_inj' shorter rfl
    refine ⟨others, rfl, ?_⟩
    rw [List.concat_eq_append, List.singleton_inj.mp isLast]
    simp

/-- The scan of a text after a seam: its first run of literal text is joined to the
one before it. -/
def scanAfterSeam (trim : Bool) (content : String) (span : Span) (more : List Char) :
    Scan :=
  let run := TextRun.ofFront more
  (scanAfterText trim (span.stop + byteLength run.written) run.rest).prepend
    [⟨.text (content ++ String.ofList run.content),
      ⟨span.start, span.stop + byteLength run.written⟩⟩] []

/-- A template that ends with literal text keeps its tokens when it goes on across a
free seam, and what follows is scanned after them. -/
theorem scanBody_followedBy (trim : Bool) (more : List Char) (offset : Nat)
    (characters : List Char) :
    (scanBody trim offset characters).reports = [] →
    (∀ last ∈ characters.getLast?, isSigil last = false) →
    SeamFree trim more (scanBody trim offset characters).tokens →
    ∀ front content span final,
      (scanBody trim offset characters).tokens =
        front ++ [⟨.text content, span⟩, final] →
      span.stop = offset + byteLength characters ∧
        scanBody trim offset (characters ++ more) =
          (scanAfterSeam trim content span more).prepend front [] := by
  fun_induction scanBody trim offset characters with
  | case1 offset characters run start runRest =>
      intro _ lastPlain _ front content span final split
      have whole : run.written = characters := by
        have := TextRun.written_append_rest characters
        rwa [runRest, List.append_nil] at this
      have runTokens : run.tokens offset = front ++ [⟨.text content, span⟩] := by
        rw [List.append_cons front] at split
        exact (List.append_inj' split rfl).1
      obtain ⟨filled, rfl, isText⟩ := TextRun.tokens_eq_single runTokens
      obtain ⟨rfl, rfl⟩ : content = String.ofList run.content ∧
          span = ⟨offset, offset + byteLength run.written⟩ := by
        simpa using isText
      refine ⟨by simp [whole], ?_⟩
      rw [scanBody_eq, TextRun.ofFront_append_of_ended runRest lastPlain]
      simp [scanAfterSeam, Scan.prepend, TextRun.tokens, filled, whole, run,
        String.ofList_append, Nat.add_assoc]
  | case2 offset characters run start sigil rest runRest scan ih =>
      intro clean lastPlain free front content span final split
      obtain ⟨scanClean, restClean⟩ := List.append_eq_nil_iff.mp clean
      have sigilBytes : sigil.utf8Size = 1 :=
        utf8Size_of_isSigil (TextRun.isSigil_of_rest runRest)
      have parts : run.written ++ sigil :: rest = characters := by
        have := TextRun.written_append_rest characters
        rwa [runRest] at this
      have scanEnd : scan.offset + byteLength scan.rest = start + 1 + byteLength rest :=
        scanSigil_end trim sigil start rest
      obtain ⟨first, follow, isFirst, -⟩ := scanSigil_first trim sigil start rest
      have ends : ∃ others endSpan,
          (scanBody trim scan.offset scan.rest).tokens =
            others ++ [⟨.endOfInput, endSpan⟩] := by
        obtain ⟨others, endSpan, isEnd, -⟩ := scanBody_ends trim scan.offset scan.rest
        exact ⟨others, endSpan, isEnd⟩
      obtain ⟨others, rfl, othersSplit⟩ : ∃ others,
          front = run.tokens offset ++ scan.tokens ++ others ∧
            (scanBody trim scan.offset scan.rest).tokens =
              others ++ [⟨.text content, span⟩, final] :=
        last_text_after (scanSigil_markup trim sigil start rest)
          (show scan.tokens ≠ [] from isFirst ▸ List.cons_ne_nil first follow)
          ends split
      -- The last text is scanned after the piece, so the seam is not in the piece.
      have left : scan.rest ≠ [] := by
        intro nothing
        rw [nothing, scanBody_eq] at othersSplit
        have := congrArg List.length othersSplit
        simp [TextRun.ofFront, scanAfterText, Scan.prepend, TextRun.tokens] at this
      have restFree : SeamFree trim more (scanBody trim scan.offset scan.rest).tokens :=
        free.of_append
      have pieceFree : SeamFree trim more
          (scan.tokens ++ (scanBody trim scan.offset scan.rest).tokens) := by
        simp only [Scan.prepend, List.append_assoc] at free
        exact free.of_append
      have restPlain : ∀ last ∈ scan.rest.getLast?, isSigil last = false := by
        obtain ⟨scanned, same⟩ : scan.rest <:+ rest :=
          scanSigil_suffix trim sigil start rest
        intro last isLast
        apply lastPlain last
        rw [← parts, ← same, ← List.cons_append, ← List.append_assoc,
          List.getLast?_append, Option.mem_def.mp isLast]
        rfl
      obtain ⟨stop, rest_eq⟩ :=
        ih restClean restPlain restFree others content span final othersSplit
      refine ⟨?_, ?_⟩
      · rw [stop, scanEnd, ← parts, byteLength_append, byteLength_cons]
        omega
      · have runLeft : run.rest ≠ [] := by
          rw [runRest]
          exact List.cons_ne_nil sigil rest
        have piece : scanSigil trim sigil start (rest ++ more) = scan.followedBy more :=
          scanSigil_followedBy scanClean left pieceFree
        rw [scanBody_eq, TextRun.ofFront_append_of_left runLeft]
        change Scan.prepend (run.tokens offset) []
          (scanAfterText trim start (run.rest ++ more)) = _
        rw [runRest]
        change Scan.prepend (run.tokens offset) []
          ((scanBody trim (scanSigil trim sigil start (rest ++ more)).offset
              (scanSigil trim sigil start (rest ++ more)).rest).prepend
            (scanSigil trim sigil start (rest ++ more)).tokens
            (scanSigil trim sigil start (rest ++ more)).reports) = _
        rw [piece]
        change Scan.prepend (run.tokens offset) []
          ((scanBody trim scan.offset (scan.rest ++ more)).prepend scan.tokens
            scan.reports) = _
        rw [rest_eq, scanClean]
        simp [Scan.prepend, List.append_assoc]

end Stencil
