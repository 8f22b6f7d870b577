import Stencil.Token.Literal

/-!
# Cutting a template into tokens

Outside headers a template is literal text, in which a doubled sigil stands for
the sigil itself, interrupted by paths, macro calls and directives.  Inside the
parentheses of a header blanks are skipped and the tokens of expressions are
read.  Malformed input is reported and scanning goes on after it.

Every scanning function returns the tokens and reports of what it consumed, in
order, together with the text that is left.
-/

namespace Stencil

/-- The outcome of scanning the front of a text. -/
structure Scan where
  tokens : List Token
  reports : List Report
  /-- The byte offset of the text that is left. -/
  offset : Nat
  /-- The text that is left. -/
  rest : List Char
  deriving DecidableEq, Repr, Inhabited

namespace Scan

def idle (offset : Nat) (rest : List Char) : Scan :=
  ⟨[], [], offset, rest⟩

/-- Put the results of an earlier scan in front. -/
def prepend (tokens : List Token) (reports : List Report) (scan : Scan) : Scan :=
  { scan with
    tokens := tokens ++ scan.tokens
    reports := reports ++ scan.reports }

@[simp] theorem prepend_rest (tokens : List Token) (reports : List Report)
    (scan : Scan) : (scan.prepend tokens reports).rest = scan.rest := rfl

end Scan

def punctuationToken (kind : TokenKind) (offset : Nat) : Token :=
  ⟨kind, ⟨offset, offset + 1⟩⟩

/-- One step of a path, as it is written directly after what precedes it. -/
inductive PathPiece where
  | field (name : List Char)
  | index (digits : List Char)
  deriving DecidableEq, Repr, Inhabited

/-- Read a dot and a name, or digits in brackets. -/
def readPathPiece? : List Char → Option (PathPiece × List Char)
  | '.' :: rest =>
      if startsWith isNameStart rest then
        some (.field (takeName rest), dropName rest)
      else
        none
  | '[' :: rest =>
      match rest.takeWhile Char.isDigit, rest.dropWhile Char.isDigit with
      | digit :: digits, ']' :: after => some (.index (digit :: digits), after)
      | _, _ => none
  | _ => none

theorem length_rest_of_readPathPiece? {characters : List Char}
    {piece : PathPiece} {rest : List Char}
    (read : readPathPiece? characters = some (piece, rest)) :
    rest.length < characters.length := by
  unfold readPathPiece? at read
  split at read
  · rename_i tail
    have := length_dropName_le tail
    split at read
    · obtain ⟨-, rfl⟩ := by simpa using read
      simp only [List.length_cons]
      omega
    · simp at read
  · rename_i tail
    split at read
    · rename_i after _ dropped
      have := length_dropWhile_le Char.isDigit tail
      obtain ⟨-, rfl⟩ := by simpa using read
      rw [dropped] at this
      simp only [List.length_cons] at this ⊢
      omega
    · simp at read
  · simp at read

def greatestIndex : Int64 := Int64.maxValue

/-- The tokens of one step of a path, and the report of an index that is too
large. -/
def PathPiece.scan (piece : PathPiece) (offset : Nat) : List Token × List Report :=
  match piece with
  | .field name =>
      ([punctuationToken .dot offset,
        ⟨.name (String.ofList name),
          ⟨offset + 1, offset + 1 + byteLength name⟩⟩], [])
  | .index digits =>
      let span : Span := ⟨offset + 1, offset + 1 + byteLength digits⟩
      let number? := readWord? 64 digits
      ([punctuationToken .leftBracket offset,
        ⟨.integer (number?.getD greatestIndex), span⟩,
        punctuationToken .rightBracket span.stop],
        match number? with
        | some _ => []
        | none =>
            [⟨.unexpected ("index " ++ inApostrophes (String.ofList digits))
              ["a smaller index"], span⟩])

def PathPiece.byteSize : PathPiece → Nat
  | .field name => 1 + byteLength name
  | .index digits => 2 + byteLength digits

def scanPathPieces (offset : Nat) (characters : List Char) : Scan :=
  match _ : readPathPiece? characters with
  | none => Scan.idle offset characters
  | some (piece, rest) =>
      let scanned := piece.scan offset
      (scanPathPieces (offset + piece.byteSize) rest).prepend
        scanned.1 scanned.2
termination_by characters.length
decreasing_by exact length_rest_of_readPathPiece? ‹_›

/-- Scan a path, whose sigil stands at `offset` and is already taken off. -/
def scanPath (offset : Nat) (characters : List Char) : Scan :=
  let name := takeName characters
  let stop := offset + 1 + byteLength name
  (scanPathPieces stop (dropName characters)).prepend
    [punctuationToken .dollar offset,
      ⟨.name (String.ofList name), ⟨offset + 1, stop⟩⟩] []

theorem length_scanPathPieces_le (offset : Nat) (characters : List Char) :
    (scanPathPieces offset characters).rest.length ≤ characters.length := by
  fun_induction scanPathPieces offset characters with
  | case1 => simp [Scan.idle]
  | case2 offset characters piece rest read scanned ih =>
      have := length_rest_of_readPathPiece? read
      simp only [Scan.prepend_rest]
      omega

theorem length_scanPath_le (offset : Nat) (characters : List Char) :
    (scanPath offset characters).rest.length ≤ characters.length := by
  unfold scanPath
  have := length_scanPathPieces_le
    (offset + 1 + byteLength (takeName characters)) (dropName characters)
  have := length_dropName_le characters
  simp only [Scan.prepend_rest]
  omega

/-- What the first character of a token announces, parentheses and quotes
apart. -/
inductive ItemLead where
  | punctuation (kind : TokenKind)
  | path
  | macroCall
  | number
  | word
  | stray
  deriving DecidableEq, Repr, Inhabited

/-- What the first character of a token inside a header announces. -/
inductive HeaderLead where
  | opening
  | closing
  | quote
  | item (lead : ItemLead)
  deriving DecidableEq, Repr, Inhabited

/-- The punctuation of headers, apart from parentheses. -/
def headerPunctuation? (character : Char) : Option TokenKind :=
  if character = ',' then some .comma
  else if character = '=' then some .assign
  else if character = '.' then some .dot
  else if character = '[' then some .leftBracket
  else if character = ']' then some .rightBracket
  else none

/-- What a character announces that is neither a parenthesis nor a quote, given
the text after it. -/
def itemLead (character : Char) (rest : List Char) : ItemLead :=
  match headerPunctuation? character with
  | some kind => .punctuation kind
  | none =>
      if character = '$' ∧ startsWith isNameStart rest then .path
      else if character = '@' ∧ startsWith isNameStart rest then .macroCall
      else if character.isDigit ∨
          (character = '-' ∧ startsWith Char.isDigit rest) then .number
      else if isNameStart character then .word
      else .stray

/-- What a character announces, given the text after it. -/
def headerLead (character : Char) (rest : List Char) : HeaderLead :=
  if character = '(' then .opening
  else if character = ')' then .closing
  else if character = '"' ∨ character = '\'' then .quote
  else .item (itemLead character rest)

/-- The token of a bare word: a constant or a name. -/
def wordKind (word : String) : TokenKind :=
  if word = "true" then .boolean true
  else if word = "false" then .boolean false
  else if word = "null" then .null
  else .name word

def scanWord (offset : Nat) (first : Char) (rest : List Char) : Scan :=
  let word := first :: takeName rest
  let stop := offset + byteLength word
  ⟨[⟨wordKind (String.ofList word), ⟨offset, stop⟩⟩], [], stop, dropName rest⟩

/-- Scan the name of a macro, whose sigil stands at `offset` and is already taken
off. -/
def scanMacroName (offset : Nat) (characters : List Char) : Scan :=
  let name := takeName characters
  let stop := offset + 1 + byteLength name
  ⟨[⟨.macroName (String.ofList name), ⟨offset, stop⟩⟩], [], stop,
    dropName characters⟩

/-- Scan a number that begins with `first`; one that does not fit is reported and
gives no token. -/
def scanNumber (offset : Nat) (first : Char) (rest : List Char) : Scan :=
  let literal := NumberLiteral.ofFront first rest
  let span : Span := ⟨offset, offset + byteLength literal.characters⟩
  match literal.kind? with
  | some kind => ⟨[⟨kind, span⟩], [], span.stop, literal.rest⟩
  | none =>
      let found := "number " ++ inApostrophes (String.ofList literal.characters)
      ⟨[], [⟨.unexpected found ["a number within the 64-bit range"], span⟩],
        span.stop, literal.rest⟩

/-- Report a character that starts no token, and step over it. -/
def scanStray (offset : Nat) (character : Char) (rest : List Char) : Scan :=
  let stop := offset + character.utf8Size
  ⟨[], [⟨.unexpectedCharacter character, ⟨offset, stop⟩⟩], stop, rest⟩

theorem length_scanNumber_le (offset : Nat) (first : Char) (rest : List Char) :
    (scanNumber offset first rest).rest.length ≤ rest.length := by
  have := NumberLiteral.length_rest_ofFront_le first rest
  unfold scanNumber
  dsimp only
  split <;> exact this

/-- Scan a token that is neither a parenthesis nor a string. -/
def scanItem (lead : ItemLead) (offset : Nat) (character : Char)
    (rest : List Char) : Scan :=
  match lead with
  | .punctuation kind => ⟨[punctuationToken kind offset], [], offset + 1, rest⟩
  | .path => scanPath offset rest
  | .macroCall => scanMacroName offset rest
  | .number => scanNumber offset character rest
  | .word => scanWord offset character rest
  | .stray => scanStray offset character rest

theorem length_scanItem_le (lead : ItemLead) (offset : Nat) (character : Char)
    (rest : List Char) :
    (scanItem lead offset character rest).rest.length ≤ rest.length := by
  cases lead with
  | punctuation kind => exact Nat.le_refl _
  | path => exact length_scanPath_le offset rest
  | macroCall => exact length_dropName_le rest
  | number => exact length_scanNumber_le offset character rest
  | word => exact length_dropName_le rest
  | stray => exact Nat.le_refl _

theorem length_tail_lt_of_dropWhile {class? : Char → Bool}
    {characters rest : List Char} {character : Char}
    (dropped : characters.dropWhile class? = character :: rest) :
    rest.length < characters.length := by
  have := length_dropWhile_le class? characters
  rw [dropped, List.length_cons] at this
  omega

/-- Scan a header from inside its parentheses.  `opener` is the offset of the
outermost one and `depth` the number of further ones that are open.  The scan
ends after the parenthesis that closes the outermost one, or at the end of the
text, which is reported. -/
def scanHeader (opener depth offset : Nat) (characters : List Char) : Scan :=
  let start := offset + byteLength (characters.takeWhile isBlank)
  match _ : characters.dropWhile isBlank with
  | [] => ⟨[], [⟨.unclosedDelimiter '(', ⟨opener, opener + 1⟩⟩], start, []⟩
  | character :: rest =>
      match headerLead character rest with
      | .opening =>
          (scanHeader opener (depth + 1) (start + 1) rest).prepend
            [punctuationToken .leftParen start] []
      | .closing =>
          match depth with
          | 0 => ⟨[punctuationToken .rightParen start], [], start + 1, rest⟩
          | depth + 1 =>
              (scanHeader opener depth (start + 1) rest).prepend
                [punctuationToken .rightParen start] []
      | .quote =>
          match _ : readString? character rest with
          | none =>
              ⟨[], [⟨.unterminatedString character, ⟨start, start + 1⟩⟩],
                start + byteLength (character :: rest), []⟩
          | some body =>
              let stop := start + 1 + byteLength body.written
              (scanHeader opener depth stop body.rest).prepend
                [⟨.string (String.ofList body.content), ⟨start, stop⟩⟩] []
      | .item lead =>
          let scan := scanItem lead start character rest
          (scanHeader opener depth scan.offset scan.rest).prepend
            scan.tokens scan.reports
termination_by characters.length
decreasing_by
  · exact length_tail_lt_of_dropWhile ‹_›
  · exact length_tail_lt_of_dropWhile ‹_›
  · have := length_tail_lt_of_dropWhile ‹_›
    have := length_rest_of_readString? ‹_›
    omega
  · exact Nat.lt_of_le_of_lt (length_scanItem_le _ _ _ _)
      (length_tail_lt_of_dropWhile ‹_›)

theorem length_scanHeader_le (opener depth offset : Nat)
    (characters : List Char) :
    (scanHeader opener depth offset characters).rest.length ≤
      characters.length := by
  fun_induction scanHeader opener depth offset characters with
  | case1 => simp
  | case2 depth offset characters start character rest dropped _ ih =>
      have := length_tail_lt_of_dropWhile dropped
      simp only [Scan.prepend_rest]
      omega
  | case3 offset characters start character rest dropped _ =>
      have := length_tail_lt_of_dropWhile dropped
      simp only
      omega
  | case4 offset characters start character rest dropped _ depth ih =>
      have := length_tail_lt_of_dropWhile dropped
      simp only [Scan.prepend_rest]
      omega
  | case5 => simp
  | case6 depth offset characters start character rest dropped _ body read stop ih =>
      have := length_tail_lt_of_dropWhile dropped
      have := length_rest_of_readString? read
      simp only [Scan.prepend_rest]
      omega
  | case7 depth offset characters start character rest dropped lead _ scan ih =>
      have := length_tail_lt_of_dropWhile dropped
      have : scan.rest.length ≤ rest.length :=
        length_scanItem_le lead start character rest
      simp only [Scan.prepend_rest]
      omega

/-- Scan the header whose opening parenthesis is at the front, if there is one. -/
def scanOptionalHeader (offset : Nat) (characters : List Char) : Scan :=
  match characters with
  | '(' :: rest =>
      (scanHeader offset 0 (offset + 1) rest).prepend
        [punctuationToken .leftParen offset] []
  | _ => Scan.idle offset characters

theorem length_scanOptionalHeader_le (offset : Nat) (characters : List Char) :
    (scanOptionalHeader offset characters).rest.length ≤ characters.length := by
  unfold scanOptionalHeader
  split
  · rename_i rest
    have := length_scanHeader_le offset 0 (offset + 1) rest
    simp only [Scan.prepend_rest, List.length_cons]
    omega
  · exact Nat.le_refl _

/-- Scan a macro call outside headers: the name and, directly after it, the
arguments.  The sigil stands at `offset` and is already taken off. -/
def scanMacroCall (offset : Nat) (characters : List Char) : Scan :=
  let name := scanMacroName offset characters
  (scanOptionalHeader name.offset name.rest).prepend name.tokens name.reports

/-- Scan the header of a directive, which spaces and tabs may precede.  Where no
header follows, they are left in place. -/
def scanPaddedHeader (offset : Nat) (characters : List Char) : Scan :=
  let header := characters.dropWhile isPadding
  if startsWith (· == '(') header then
    scanOptionalHeader
      (offset + byteLength (characters.takeWhile isPadding)) header
  else
    Scan.idle offset characters

def skipLineBreak (offset : Nat) (characters : List Char) : Nat × List Char :=
  match characters with
  | '\r' :: '\n' :: rest => (offset + 2, rest)
  | '\n' :: rest => (offset + 1, rest)
  | _ => (offset, characters)

/-- Scan a directive, its header if it takes one, and the line break after a
known directive if line breaks are trimmed.  The sigil stands at `offset` and is
already taken off. -/
def scanDirective (trim : Bool) (offset : Nat) (characters : List Char) : Scan :=
  let word := String.ofList (takeName characters)
  let stop := offset + 1 + byteLength (takeName characters)
  let after := dropName characters
  let token : Token := ⟨.directive word, ⟨offset, stop⟩⟩
  match Keyword.ofWord? word with
  | none => ⟨[token], [], stop, after⟩
  | some keyword =>
      let header :=
        if keyword.takesHeader then scanPaddedHeader stop after
        else Scan.idle stop after
      let trimmed :=
        if trim then skipLineBreak header.offset header.rest
        else (header.offset, header.rest)
      ⟨token :: header.tokens, header.reports, trimmed.1, trimmed.2⟩

theorem length_scanMacroCall_le (offset : Nat) (characters : List Char) :
    (scanMacroCall offset characters).rest.length ≤ characters.length := by
  have headerShorter := length_scanOptionalHeader_le
    (scanMacroName offset characters).offset (dropName characters)
  have nameShorter := length_dropName_le characters
  simp only [scanMacroCall, Scan.prepend_rest]
  exact Nat.le_trans headerShorter nameShorter

theorem length_scanPaddedHeader_le (offset : Nat) (characters : List Char) :
    (scanPaddedHeader offset characters).rest.length ≤ characters.length := by
  unfold scanPaddedHeader
  dsimp only
  split
  · exact Nat.le_trans (length_scanOptionalHeader_le _ _)
      (length_dropWhile_le isPadding characters)
  · exact Nat.le_refl _

theorem length_skipLineBreak_le (offset : Nat) (characters : List Char) :
    (skipLineBreak offset characters).2.length ≤ characters.length := by
  unfold skipLineBreak
  split <;> simp only [List.length_cons] <;> omega

theorem length_scanDirective_le (trim : Bool) (offset : Nat)
    (characters : List Char) :
    (scanDirective trim offset characters).rest.length ≤ characters.length := by
  have nameShorter := length_dropName_le characters
  unfold scanDirective
  dsimp only
  split
  · exact nameShorter
  · rename_i keyword _
    have headerShorter :
        (if keyword.takesHeader then
          scanPaddedHeader (offset + 1 + byteLength (takeName characters))
            (dropName characters)
        else
          Scan.idle (offset + 1 + byteLength (takeName characters))
            (dropName characters)).rest.length ≤ (dropName characters).length := by
      split
      · exact length_scanPaddedHeader_le _ _
      · exact Nat.le_refl _
    dsimp only
    split
    · exact Nat.le_trans (length_skipLineBreak_le _ _)
        (Nat.le_trans headerShorter nameShorter)
    · exact Nat.le_trans headerShorter nameShorter

/-- A run of literal text: its content, its written form, and the text after it,
which is empty or begins with a path, a macro call or a directive. -/
structure TextRun where
  content : List Char
  written : List Char
  rest : List Char
  deriving DecidableEq, Repr, Inhabited

/-- Put one piece of literal text in front of a run. -/
def TextRun.prepend (content : Char) (written : List Char) (run : TextRun) :
    TextRun :=
  ⟨content :: run.content, written ++ run.written, run.rest⟩

/-- Read literal text up to the next path, macro call or directive.  A doubled
sigil stands for the sigil, and so does one that starts nothing. -/
def TextRun.ofFront : List Char → TextRun
  | [] => ⟨[], [], []⟩
  | [character] => ⟨[character], [character], []⟩
  | character :: next :: rest =>
      if isSigil character ∧ next = character then
        (ofFront rest).prepend character [character, next]
      else if startsDirective character next then
        ⟨[], [], character :: next :: rest⟩
      else
        (ofFront (next :: rest)).prepend character [character]

theorem TextRun.length_rest_ofFront_le (characters : List Char) :
    (ofFront characters).rest.length ≤ characters.length := by
  fun_induction ofFront characters <;>
    simp_all only [TextRun.prepend, List.length_nil, List.length_cons] <;> omega

/-- The token of a run of literal text, unless it is empty. -/
def TextRun.tokens (run : TextRun) (offset : Nat) : List Token :=
  if run.content = [] then
    []
  else
    [⟨.text (String.ofList run.content),
      ⟨offset, offset + byteLength run.written⟩⟩]

def scanSigil (trim : Bool) (sigil : Char) (offset : Nat)
    (characters : List Char) : Scan :=
  if sigil = '$' then scanPath offset characters
  else if sigil = '@' then scanMacroCall offset characters
  else scanDirective trim offset characters

theorem length_scanSigil_le (trim : Bool) (sigil : Char) (offset : Nat)
    (characters : List Char) :
    (scanSigil trim sigil offset characters).rest.length ≤ characters.length := by
  unfold scanSigil
  split
  · exact length_scanPath_le offset characters
  · split
    · exact length_scanMacroCall_le offset characters
    · exact length_scanDirective_le trim offset characters

/-- Scan a template from `offset` on, to the token that marks its end. -/
def scanBody (trim : Bool) (offset : Nat) (characters : List Char) : Scan :=
  let run := TextRun.ofFront characters
  let start := offset + byteLength run.written
  match _ : run.rest with
  | [] =>
      ⟨run.tokens offset ++ [⟨.endOfInput, ⟨start, start⟩⟩], [], start, []⟩
  | sigil :: rest =>
      let scan := scanSigil trim sigil start rest
      (scanBody trim scan.offset scan.rest).prepend
        (run.tokens offset ++ scan.tokens) scan.reports
termination_by characters.length
decreasing_by
  have runShorter := TextRun.length_rest_ofFront_le characters
  rename_i runRest
  rw [runRest, List.length_cons] at runShorter
  exact Nat.lt_of_le_of_lt (length_scanSigil_le _ _ _ _) runShorter

/-- The tokens of a template and the reports of malformed input.  The tokens end
with the one that marks the end of the input. -/
def tokenize (trim : Bool) (text : String) : List Token × List Report :=
  let scan := scanBody trim 0 text.toList
  (scan.tokens, scan.reports)

end Stencil
