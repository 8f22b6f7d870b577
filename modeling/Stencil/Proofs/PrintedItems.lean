import Stencil.Proofs.Printing
import Stencil.Proofs.ScanLocal

/-!
# Scanning printed headers

What is printed between the parentheses of a header is scanned token by token, with
nothing to report, wherever it stands and whatever follows it, as long as that does
not continue the last token.
-/

namespace Stencil

theorem decimalValue_decimalDigits (number : Nat) :
    decimalValue (decimalDigits number) = number :=
  Nat.ofDigitChars_ten_toDigits

theorem decimalDigits_isDigit (number : Nat) :
    ∀ digit ∈ decimalDigits number, digit.isDigit :=
  fun _ member => Nat.isDigit_of_mem_toDigits (by decide) (by decide) member

theorem decimalDigits_ne_nil (number : Nat) : decimalDigits number ≠ [] :=
  Nat.toDigits_ne_nil

theorem splitSign_of_isDigit {characters : List Char}
    (digits : ∀ character ∈ characters, character.isDigit) :
    splitSign characters = (false, characters) := by
  fun_cases splitSign characters with
  | case1 rest => simp at digits
  | case2 rest => simp at digits
  | case3 => rfl

theorem readInteger?_decimalDigits (number : Nat) :
    readInteger? (decimalDigits number) = some (number : Int) := by
  have digits : (decimalDigits number).all Char.isDigit :=
    List.all_eq_true.mpr (decimalDigits_isDigit number)
  simp [readInteger?, splitSign_of_isDigit (decimalDigits_isDigit number), digits,
    decimalDigits_ne_nil, signedInteger, decimalValue_decimalDigits]

theorem readInteger?_negative (number : Nat) :
    readInteger? ('-' :: decimalDigits number) = some (-number : Int) := by
  have digits : (decimalDigits number).all Char.isDigit :=
    List.all_eq_true.mpr (decimalDigits_isDigit number)
  simp [readInteger?, splitSign, digits,
    decimalDigits_ne_nil, signedInteger, decimalValue_decimalDigits]

theorem integerText_toList (integer : Int) :
    (integerText integer).toList =
      if integer < 0 then '-' :: decimalDigits integer.natAbs
      else decimalDigits integer.natAbs := by
  unfold integerText signed
  by_cases negative : integer < 0 <;> simp [negative]

theorem readInteger?_integerText (integer : Int) :
    readInteger? (integerText integer).toList = some integer := by
  rw [integerText_toList]
  by_cases negative : integer < 0
  · have restored : -(integer.natAbs : Int) = integer := by omega
    rw [if_pos negative, readInteger?_negative, restored]
  · have restored : (integer.natAbs : Int) = integer := by omega
    rw [if_neg negative, readInteger?_decimalDigits, restored]

theorem fitsWord_64 (integer : Int) :
    fitsWord 64 integer ↔
      -9223372036854775808 ≤ integer ∧ integer < 9223372036854775808 := by
  rw [fitsWord, Bool.and_eq_true, decide_eq_true_eq, decide_eq_true_eq]
  rfl

theorem readWord?_decimalDigits {number : Nat} (small : number < Nat.pow 2 63) :
    readWord? 64 (decimalDigits number) = some (Int64.ofNat number) := by
  have fits : fitsWord 64 number := by
    have below : number < 9223372036854775808 := small
    rw [fitsWord_64]
    omega
  rw [readWord?, readInteger?_decimalDigits, Option.bind_some, if_pos fits,
    Int64.ofInt_eq_ofNat]

theorem readWord?_integerText (number : Int64) :
    readWord? 64 (integerText number.toInt).toList = some number := by
  have fits : fitsWord 64 number.toInt := by
    have above := number.toInt_lt
    have below := number.le_toInt
    rw [fitsWord_64]
    omega
  simp [readWord?, readInteger?_integerText, fits]

/-- One scan reads tokens from a text that has more text after it, and another one goes
on with that. -/
def ScansInto (first next : Nat → List Char → Scan) (offset : Nat)
    (own following : List Char) (tokens : List Token) : Prop :=
  first offset (own ++ following) =
    (next (offset + byteLength own) following).prepend tokens []

theorem ScansInto.append {first next last : Nat → List Char → Scan} {offset : Nat}
    {own others following : List Char} {tokens further : List Token}
    (scans : ScansInto first next offset own (others ++ following) tokens)
    (scansOthers : ScansInto next last (offset + byteLength own) others following
      further) :
    ScansInto first last offset (own ++ others) following (tokens ++ further) := by
  unfold ScansInto at *
  rw [List.append_assoc, scans, scansOthers, byteLength_append, Nat.add_assoc]
  simp [Scan.prepend]

/-- Whether a character ends every token of a header that stands before it. -/
def endsItem (character : Char) : Bool :=
  isBlank character || character == ',' || character == ')' || character == '='

/-- The scan of a header reads tokens from a text that has more text after it, and goes
on with that. -/
def HeaderScans (offset : Nat) (own following : List Char) (tokens : List Token) :
    Prop :=
  ∀ opener depth, ScansInto (scanHeader opener depth) (scanHeader opener depth) offset
    own following tokens

theorem HeaderScans.nil (offset : Nat) (following : List Char) :
    HeaderScans offset [] following [] :=
  fun _ _ => rfl

theorem HeaderScans.append {offset : Nat} {first second following : List Char}
    {tokens others : List Token}
    (scans : HeaderScans offset first (second ++ following) tokens)
    (further : HeaderScans (offset + byteLength first) second following others) :
    HeaderScans offset (first ++ second) following (tokens ++ others) :=
  fun opener depth => (scans opener depth).append (further opener depth)

/-- Blanks are skipped. -/
theorem HeaderScans.blanks {run : List Char} (blanks : Blanks run) (offset : Nat)
    (following : List Char) : HeaderScans offset run following [] := by
  intro opener depth
  rw [ScansInto, scanHeader_eq, scanHeader_eq opener depth (offset + byteLength run),
    List.takeWhile_append_of_pos blanks, List.dropWhile_append_of_pos blanks,
    byteLength_append, Nat.add_assoc]
  simp [Scan.prepend]

/-- What one item of a header gives. -/
theorem HeaderScans.item {offset : Nat} {character : Char} {others following : List Char}
    {lead : ItemLead} {tokens : List Token}
    (visible : isBlank character = false)
    (leads : headerLead character (others ++ following) = .item lead)
    (scan : scanItem lead offset character (others ++ following) =
      ⟨tokens, [], offset + byteLength (character :: others), following⟩) :
    HeaderScans offset (character :: others) following tokens := by
  intro opener depth
  rw [ScansInto, scanHeader_eq, List.cons_append, List.takeWhile_cons, List.dropWhile_cons]
  simp [visible, scanHeaderFrom, leads, scan]

theorem HeaderScans.comma (offset : Nat) (following : List Char) :
    HeaderScans offset [','] following [punctuationToken .comma offset] :=
  .item (by decide) rfl rfl

theorem HeaderScans.assign (offset : Nat) (following : List Char) :
    HeaderScans offset ['='] following [punctuationToken .assign offset] :=
  .item (by decide) rfl rfl

section Classes

variable {class? : Char → Bool} {character : Char} (holds : class? character)

include holds

theorem ne_of_class (other : Char) (no : class? other = false) : character ≠ other := by
  rintro rfl
  rw [holds] at no
  cases no

theorem isBlank_of_class (noBlank : [' ', '\t', '\r', '\n'].all (!class? ·)) :
    isBlank character = false := by
  simp only [List.all_cons, List.all_nil, Bool.and_true, Bool.and_eq_true,
    Bool.not_eq_true'] at noBlank
  obtain ⟨space, tab, carriage, newline⟩ := noBlank
  have differs := ne_of_class holds
  simp [isBlank, differs _ space, differs _ tab, differs _ carriage, differs _ newline]

/-- A character of a class without punctuation announces a number or a word, if
anything. -/
theorem headerLead_of_class
    (noSign : ['(', ')', '"', '\'', ',', '=', '.', '[', ']', '$', '@'].all (!class? ·))
    (rest : List Char) :
    headerLead character rest = .item
      (if character.isDigit ∨ (character = '-' ∧ startsWith Char.isDigit rest) then .number
      else if isNameStart character then .word
      else .stray) := by
  have differs (sign : Char)
      (isSign : sign ∈ ['(', ')', '"', '\'', ',', '=', '.', '[', ']', '$', '@']) :
      character ≠ sign :=
    ne_of_class holds sign (by simpa using List.all_eq_true.mp noSign sign isSign)
  simp only [List.mem_cons, forall_eq_or_imp] at differs
  obtain ⟨opening, closing, quote, apostrophe, comma, equals, dot, leftBracket,
    rightBracket, dollar, at', -⟩ := differs
  rw [headerLead, if_neg opening, if_neg closing, if_neg (not_or.mpr ⟨quote, apostrophe⟩),
    itemLead, headerPunctuation?, if_neg comma, if_neg equals, if_neg dot,
    if_neg leftBracket, if_neg rightBracket]
  simp only [dollar, at', false_and, if_false]

end Classes

theorem isDigit_of_isNameStart {character : Char} (starts : isNameStart character) :
    character.isDigit = false := by
  have beyondDigits (least : Nat) (beyond : 57 < least)
      (letter : least ≤ character.val.toNat) : character.isDigit = false := by
    rw [Char.isDigit, Bool.and_eq_false_iff]
    right
    rw [decide_eq_false_iff_not]
    intro (digit : character.val.toNat ≤ 57)
    omega
  rcases (Bool.or_eq_true _ _).mp starts with letter | underscore
  · change (character.isUpper || character.isLower) = true at letter
    rcases (Bool.or_eq_true _ _).mp letter with upper | lower
    · have ⟨low, _⟩ := of_decide_eq_true upper
      exact beyondDigits 65 (by decide) low
    · have low := of_decide_eq_true ((Bool.and_eq_true _ _).mp lower).1
      exact beyondDigits 97 (by decide) low
  · rw [eq_of_beq underscore]
    decide

/-- A character that starts a name announces a word. -/
theorem headerLead_of_isNameStart {character : Char} (starts : isNameStart character)
    (rest : List Char) : headerLead character rest = .item .word := by
  have noDigit := isDigit_of_isNameStart starts
  have noMinus := ne_of_class starts '-' (by decide)
  simp [headerLead_of_class starts (by decide) rest, starts, noDigit, noMinus]

/-- A name is a character that starts one and further name characters. -/
theorem exists_of_isName {name : String} (proper : isName name) :
    ∃ first rest, name.toList = first :: rest ∧ isNameStart first ∧
      ∀ character ∈ first :: rest, isNameCharacter character := by
  simp only [isName, Bool.and_eq_true, List.all_eq_true] at proper
  obtain ⟨starts, all⟩ := proper
  cases split : name.toList with
  | nil => simp [split, startsWith] at starts
  | cons first rest =>
      rw [split] at starts all
      exact ⟨first, rest, rfl, starts, all⟩

theorem takeWhile_append_of_startsWith {class? : Char → Bool} {own following : List Char}
    (all : ∀ character ∈ own, class? character)
    (stops : startsWith class? following = false) :
    (own ++ following).takeWhile class? = own ∧
      (own ++ following).dropWhile class? = following := by
  rw [List.takeWhile_append_of_pos all, List.dropWhile_append_of_pos all]
  cases following with
  | nil => simp
  | cons character rest =>
      have stops : class? character = false := stops
      simp [stops]

theorem takeName_append_of_stops {name following : List Char}
    (all : ∀ character ∈ name, isNameCharacter character)
    (stops : startsWith isNameCharacter following = false) :
    takeName (name ++ following) = name ∧ dropName (name ++ following) = following :=
  takeWhile_append_of_startsWith all stops

theorem startsWith_of_endsItem {class? : Char → Bool} {following : List Char}
    (stops : startsWith endsItem following)
    (differs : ∀ character, endsItem character → class? character = false) :
    startsWith class? following = false := by
  cases following with
  | nil => rfl
  | cons character rest => exact differs character stops

theorem eq_of_endsItem {character : Char} (ends : endsItem character) :
    character = ' ' ∨ character = '\t' ∨ character = '\r' ∨ character = '\n' ∨
      character = ',' ∨ character = ')' ∨ character = '=' := by
  simpa [endsItem, isBlank, or_assoc] using ends

theorem isNameCharacter_of_endsItem (character : Char) (ends : endsItem character) :
    isNameCharacter character = false := by
  rcases eq_of_endsItem ends with rfl | rfl | rfl | rfl | rfl | rfl | rfl <;> decide

/-- A word is scanned as far as it goes. -/
theorem HeaderScans.word {name : String} (proper : isName name) (offset : Nat)
    {following : List Char} (stops : startsWith endsItem following) :
    HeaderScans offset name.toList following
      [⟨wordKind name, ⟨offset, offset + byteLength name.toList⟩⟩] := by
  obtain ⟨first, rest, split, starts, all⟩ := exists_of_isName proper
  obtain ⟨-, others⟩ := List.forall_mem_cons.mp all
  obtain ⟨taken, dropped⟩ := takeName_append_of_stops others
    (startsWith_of_endsItem stops isNameCharacter_of_endsItem)
  rw [split]
  refine .item (isBlank_of_class starts (by decide)) (headerLead_of_isNameStart starts _) ?_
  simp [scanItem, scanWord, taken, dropped, ← split]

def writtenSteps (segments : List PathSegment) : List Char :=
  segments.flatMap fun segment => segment.text.toList

theorem VariablePath.text_toList (path : VariablePath) :
    path.text.toList = '$' :: (path.root.toList ++ writtenSteps path.segments) := by
  simp [VariablePath.text, writtenSteps, List.flatMap_map]

theorem writtenSteps_field (name : String) (segments : List PathSegment) :
    writtenSteps (.field name :: segments) =
      '.' :: (name.toList ++ writtenSteps segments) := by
  simp [writtenSteps, PathSegment.text]

theorem writtenSteps_index (position : Nat) (segments : List PathSegment) :
    writtenSteps (.index position :: segments) =
      '[' :: (decimalDigits position ++ ']' :: writtenSteps segments) := by
  simp [writtenSteps, PathSegment.text, decimalDigits]

theorem readPathPiece?_field {name : String} (proper : isName name)
    {following : List Char} (stops : startsWith isNameCharacter following = false) :
    readPathPiece? ('.' :: (name.toList ++ following)) =
      some (.field name.toList, following) := by
  obtain ⟨first, rest, split, starts, all⟩ := exists_of_isName proper
  obtain ⟨taken, dropped⟩ := takeName_append_of_stops all stops
  rw [readPathPiece?, split, taken, dropped, if_pos (by exact starts)]

theorem readPathPiece?_index (position : Nat) (following : List Char) :
    readPathPiece? ('[' :: (decimalDigits position ++ ']' :: following)) =
      some (.index (decimalDigits position), following) := by
  obtain ⟨taken, dropped⟩ := takeWhile_append_of_startsWith
    (decimalDigits_isDigit position)
    (show startsWith Char.isDigit (']' :: following) = false by rfl)
  rw [readPathPiece?, taken, dropped]
  obtain ⟨digit, digits, split⟩ := List.exists_cons_of_ne_nil (decimalDigits_ne_nil position)
  simp [split]

theorem startsWith_writtenSteps {segments : List PathSegment} {following : List Char}
    (stops : segments = [] → startsWith isNameCharacter following = false) :
    startsWith isNameCharacter (writtenSteps segments ++ following) = false := by
  cases segments with
  | nil => exact stops rfl
  | cons segment segments =>
      cases segment with
      | field name =>
          rw [writtenSteps_field]
          rfl
      | index position =>
          rw [writtenSteps_index]
          rfl

theorem endsWithIndex_cons {segment : PathSegment} {segments : List PathSegment}
    (nonempty : segments ≠ []) :
    endsWithIndex (segment :: segments) = endsWithIndex segments := by
  obtain ⟨others, last, rfl⟩ := (List.eq_nil_or_concat segments).resolve_left nonempty
  simp [endsWithIndex, List.getLast?_cons]

/-- A path goes on after one of its steps. -/
theorem scanPathPieces_step {offset : Nat} {characters following : List Char}
    {piece : PathPiece} {own tokens : List Token} {stop : Nat} {rest : List Char}
    (read : readPathPiece? characters = some (piece, following))
    (scanned : piece.scan offset = (own, []))
    (scan : scanPathPieces (offset + piece.byteSize) following = ⟨tokens, [], stop, rest⟩) :
    scanPathPieces offset characters = ⟨own ++ tokens, [], stop, rest⟩ := by
  rw [scanPathPieces_eq, read]
  simp [scanned, scan, Scan.prepend]

theorem PathPiece.scan_index (offset : Nat) {position : Nat}
    (small : position < Nat.pow 2 63) :
    (PathPiece.index (decimalDigits position)).scan offset =
      ([punctuationToken .leftBracket offset,
        ⟨.integer (Int64.ofNat position),
          ⟨offset + 1, offset + 1 + byteLength (decimalDigits position)⟩⟩,
        punctuationToken .rightBracket
          (offset + 1 + byteLength (decimalDigits position))], []) := by
  simp [PathPiece.scan, readWord?_decimalDigits small]

/-- The steps of a path are scanned up to a text that does not go on with them. -/
theorem scanPathPieces_printed {following : List Char}
    (noStep : readPathPiece? following = none) (segments : List PathSegment) :
    segments.all PathSegment.wellFormed →
    (segments ≠ [] → endsWithIndex segments ∨
      startsWith isNameCharacter following = false) →
    ∀ offset, ∃ tokens,
      scanPathPieces offset (writtenSteps segments ++ following) =
        ⟨tokens, [], offset + byteLength (writtenSteps segments), following⟩ ∧
      StepsSpelledBy offset (offset + byteLength (writtenSteps segments)) segments
        tokens := by
  induction segments with
  | nil =>
      intro _ _ offset
      refine ⟨[], ?_, rfl, rfl⟩
      change scanPathPieces offset following = _
      rw [scanPathPieces_eq, noStep]
      rfl
  | cons segment segments ih =>
      intro wellFormed stops offset
      obtain ⟨segmentFormed, othersFormed⟩ : segment.wellFormed ∧
          segments.all PathSegment.wellFormed := by
        simpa using wellFormed
      have othersStop (nonempty : segments ≠ []) :
          endsWithIndex segments ∨ startsWith isNameCharacter following = false := by
        rw [← endsWithIndex_cons nonempty]
        exact stops (List.cons_ne_nil _ _)
      cases segment with
      | field name =>
          have apart : startsWith isNameCharacter (writtenSteps segments ++ following) =
              false := by
            apply startsWith_writtenSteps
            intro empty
            subst empty
            simpa [endsWithIndex] using stops
          obtain ⟨tokens, scan, spelled⟩ := ih othersFormed othersStop
            (offset + (PathPiece.field name.toList).byteSize)
          have stop : offset + (PathPiece.field name.toList).byteSize +
              byteLength (writtenSteps segments) =
                offset + byteLength (writtenSteps (.field name :: segments)) := by
            simp [PathPiece.byteSize, writtenSteps_field, Nat.add_assoc,
              show '.'.utf8Size = 1 by decide]
          rw [stop] at scan spelled
          refine ⟨_, scanPathPieces_step ?_ rfl scan, ?_⟩
          · rw [writtenSteps_field, List.cons_append, List.append_assoc]
            exact readPathPiece?_field segmentFormed apart
          · refine ⟨⟨offset, offset + 1⟩, ⟨offset + 1, offset + 1 + byteLength name.toList⟩,
              tokens, by simp [punctuationToken], rfl, ?_⟩
            rwa [PathPiece.byteSize, ← Nat.add_assoc] at spelled
      | index position =>
          have small : position < Nat.pow 2 63 := of_decide_eq_true segmentFormed
          obtain ⟨tokens, scan, spelled⟩ := ih othersFormed othersStop
            (offset + (PathPiece.index (decimalDigits position)).byteSize)
          have stop : offset + (PathPiece.index (decimalDigits position)).byteSize +
              byteLength (writtenSteps segments) =
                offset + byteLength (writtenSteps (.index position :: segments)) := by
            simp [PathPiece.byteSize, writtenSteps_index,
              show '['.utf8Size = 1 by decide, show ']'.utf8Size = 1 by decide]
            omega
          rw [stop] at scan spelled
          refine ⟨_, scanPathPieces_step ?_
            (PathPiece.scan_index offset small) scan, ?_⟩
          · rw [writtenSteps_index, List.cons_append, List.append_assoc]
            exact readPathPiece?_index position _
          · refine ⟨_, _, _, _, tokens, rfl, rfl, Int64.toInt_ofNat_of_lt small, ?_⟩
            have after : offset + (PathPiece.index (decimalDigits position)).byteSize =
                offset + 1 + byteLength (decimalDigits position) + 1 := by
              simp only [PathPiece.byteSize]
              omega
            rwa [after] at spelled

theorem byteLength_path (path : VariablePath) :
    byteLength path.text.toList =
      1 + (byteLength path.root.toList + byteLength (writtenSteps path.segments)) := by
  simp [VariablePath.text_toList, show '$'.utf8Size = 1 by decide]

/-- A path is scanned up to a text that does not go on with it. -/
theorem scanPath_printed {path : VariablePath} (wellFormed : path.wellFormed)
    {following : List Char} (ends : path.endsBefore following) (offset : Nat) :
    ∃ tokens,
      scanPath offset (path.root.toList ++ (writtenSteps path.segments ++ following)) =
        ⟨tokens, [], offset + byteLength path.text.toList, following⟩ ∧
      (Expression.path path ⟨offset, offset + byteLength path.text.toList⟩).SpelledBy
        tokens := by
  obtain ⟨rootProper, stepsFormed⟩ := Bool.and_eq_true_iff.mp wellFormed
  obtain ⟨noStep, apart⟩ := Bool.and_eq_true_iff.mp ends
  have stops (_ : path.segments ≠ []) : endsWithIndex path.segments ∨
      startsWith isNameCharacter following = false := by
    simpa using apart
  have rootStops : startsWith isNameCharacter (writtenSteps path.segments ++ following) =
      false := by
    apply startsWith_writtenSteps
    intro empty
    simpa [empty, endsWithIndex] using apart
  obtain ⟨first, rest, split, -, all⟩ := exists_of_isName rootProper
  obtain ⟨taken, dropped⟩ := takeName_append_of_stops (split ▸ all) rootStops
  obtain ⟨tokens, scan, spelled⟩ := scanPathPieces_printed
    (Option.isNone_iff_eq_none.mp noStep) path.segments stepsFormed stops
    (offset + 1 + byteLength path.root.toList)
  have stop : offset + 1 + byteLength path.root.toList +
      byteLength (writtenSteps path.segments) = offset + byteLength path.text.toList := by
    rw [byteLength_path]
    omega
  rw [stop] at scan spelled
  refine ⟨_ :: _ :: tokens, ?_, ⟨offset, offset + 1⟩,
    ⟨offset + 1, offset + 1 + byteLength path.root.toList⟩, tokens, rfl, rfl, spelled⟩
  simp [scanPath, taken, dropped, scan, Scan.prepend, punctuationToken]

theorem endsBefore_of_endsItem (path : VariablePath) {following : List Char}
    (stops : startsWith endsItem following) : path.endsBefore following := by
  have noName := startsWith_of_endsItem stops isNameCharacter_of_endsItem
  have noStep : readPathPiece? following = none := by
    cases following with
    | nil => rfl
    | cons character rest =>
        rcases eq_of_endsItem stops with rfl | rfl | rfl | rfl | rfl | rfl | rfl <;> rfl
  simp [VariablePath.endsBefore, noStep, noName]

theorem HeaderScans.path {path : VariablePath} (wellFormed : path.wellFormed)
    (offset : Nat) {following : List Char} (stops : startsWith endsItem following) :
    ∃ tokens, HeaderScans offset path.text.toList following tokens ∧
      (Expression.path path ⟨offset, offset + byteLength path.text.toList⟩).SpelledBy
        tokens := by
  obtain ⟨tokens, scan, spelled⟩ :=
    scanPath_printed wellFormed (endsBefore_of_endsItem path stops) offset
  obtain ⟨rootProper, -⟩ := Bool.and_eq_true_iff.mp wellFormed
  obtain ⟨first, rest, split, starts, -⟩ := exists_of_isName rootProper
  refine ⟨tokens, ?_, spelled⟩
  rw [byteLength_path] at scan
  rw [VariablePath.text_toList]
  refine .item (by decide) (show headerLead _ _ = .item .path from ?_) ?_
  · simp [headerLead, itemLead, headerPunctuation?, split, startsWith, starts]
  · simpa [scanItem, show '$'.utf8Size = 1 by decide] using scan

/-- A string is read back from its written form. -/
theorem readString?_writtenContent (content following : List Char) :
    readString? '"' (writtenContent content ++ '"' :: following) =
      some ⟨content, writtenContent content ++ ['"'], following⟩ := by
  induction content with
  | nil => rfl
  | cons character content ih =>
      by_cases escaped : character = '\\' ∨ character = '"'
      · have written : writtenContent (character :: content) =
            '\\' :: character :: writtenContent content := by
          simp [writtenContent, escaped]
        have stands : unescape character = [character] := by
          rcases escaped with rfl | rfl <;> rfl
        rw [written, List.cons_append, List.cons_append, readString?, ih]
        simp [StringBody.prepend, stands]
      · have written : writtenContent (character :: content) =
            character :: writtenContent content := by
          simp [writtenContent, escaped]
        obtain ⟨noEscape, noQuote⟩ := not_or.mp escaped
        rw [written, List.cons_append, readString?_cons '"' noEscape, if_neg noQuote, ih]
        simp [StringBody.prepend]

theorem Literal.written_string (content : String) :
    (Literal.string content).written =
      '"' :: (writtenContent content.toList ++ ['"']) :=
  rfl

theorem HeaderScans.string (content : String) (offset : Nat) (following : List Char) :
    HeaderScans offset (Literal.string content).written following
      [⟨.string content,
        ⟨offset, offset + byteLength (Literal.string content).written⟩⟩] := by
  intro opener depth
  have read := readString?_writtenContent content.toList following
  have written : '"' :: (writtenContent content.toList ++ ['"']) ++ following =
      '"' :: (writtenContent content.toList ++ '"' :: following) := by
    simp
  have lead : headerLead '"' (writtenContent content.toList ++ '"' :: following) = .quote :=
    rfl
  rw [Literal.written_string, ScansInto, written, scanHeader_eq,
    List.takeWhile_cons_of_neg (by decide), List.dropWhile_cons_of_neg (by decide)]
  simp [scanHeaderFrom, lead, read, show '"'.utf8Size = 1 by decide,
    Nat.add_assoc]

theorem fraction_of_endsItem {following : List Char}
    (stops : startsWith endsItem following) : NumberLiteral.fraction following = [] := by
  cases following with
  | nil => rfl
  | cons character rest =>
      rcases eq_of_endsItem stops with rfl | rfl | rfl | rfl | rfl | rfl | rfl <;> rfl

theorem exponent_of_endsItem {following : List Char}
    (stops : startsWith endsItem following) : NumberLiteral.exponent following = [] := by
  cases following with
  | nil => rfl
  | cons character rest =>
      rcases eq_of_endsItem stops with rfl | rfl | rfl | rfl | rfl | rfl | rfl <;> rfl

theorem isDigit_of_endsItem (character : Char) (ends : endsItem character) :
    character.isDigit = false := by
  rcases eq_of_endsItem ends with rfl | rfl | rfl | rfl | rfl | rfl | rfl <;> decide

/-- An integer is scanned as far as its digits go. -/
theorem scanNumber_digits {first : Char} {digits following : List Char}
    (areDigits : ∀ digit ∈ digits, digit.isDigit)
    (stops : startsWith endsItem following) {number : Int64}
    (reads : readWord? 64 (first :: digits) = some number) (offset : Nat) :
    scanNumber offset first (digits ++ following) =
      ⟨[⟨.integer number, ⟨offset, offset + byteLength (first :: digits)⟩⟩], [],
        offset + byteLength (first :: digits), following⟩ := by
  obtain ⟨taken, dropped⟩ := takeWhile_append_of_startsWith areDigits
    (startsWith_of_endsItem stops isDigit_of_endsItem)
  have literal : NumberLiteral.ofFront first (digits ++ following) =
      ⟨first :: digits, true, following⟩ := by
    simp [NumberLiteral.ofFront, taken, dropped, fraction_of_endsItem stops,
      exponent_of_endsItem stops]
  simp [scanNumber, literal, NumberLiteral.kind?, reads]

theorem headerLead_of_isDigit {digit : Char} (isDigit : digit.isDigit)
    (rest : List Char) : headerLead digit rest = .item .number := by
  simp [headerLead_of_class isDigit (by decide) rest, isDigit]

theorem Literal.written_integer (number : Int64) :
    (Literal.integer number).written = (integerText number.toInt).toList :=
  rfl

theorem HeaderScans.integer (number : Int64) (offset : Nat) {following : List Char}
    (stops : startsWith endsItem following) :
    HeaderScans offset (Literal.integer number).written following
      [⟨.integer number,
        ⟨offset, offset + byteLength (Literal.integer number).written⟩⟩] := by
  have reads := readWord?_integerText number
  obtain ⟨digit, digits, split⟩ :=
    List.exists_cons_of_ne_nil (decimalDigits_ne_nil number.toInt.natAbs)
  have areDigits := decimalDigits_isDigit number.toInt.natAbs
  rw [split] at areDigits
  obtain ⟨first, others⟩ := List.forall_mem_cons.mp areDigits
  rw [Literal.written_integer]
  rw [integerText_toList, split] at reads ⊢
  by_cases negative : number.toInt < 0
  · rw [if_pos negative] at reads ⊢
    refine .item (by decide) (show headerLead _ _ = .item .number from ?_)
      (scanNumber_digits areDigits stops reads offset)
    simp [headerLead, itemLead, headerPunctuation?, startsWith, first]
  · rw [if_neg negative] at reads ⊢
    exact .item (isBlank_of_class first (by decide)) (headerLead_of_isDigit first _)
      (scanNumber_digits others stops reads offset)

/-- A constant is scanned as one token. -/
theorem HeaderScans.literal {value : Literal} (wellFormed : value.wellFormed)
    (offset : Nat) {following : List Char} (stops : startsWith endsItem following) :
    HeaderScans offset value.written following
      [⟨value.kind, ⟨offset, offset + byteLength value.written⟩⟩] := by
  cases value with
  | string content => exact .string content offset following
  | integer number => exact .integer number offset stops
  | float number => cases wellFormed
  | boolean holds =>
      cases holds with
      | true => exact .word (show isName "true" by decide) offset stops
      | false => exact .word (show isName "false" by decide) offset stops
  | null => exact .word (show isName "null" by decide) offset stops

/-- A parenthesis inside a header opens a group. -/
theorem scanHeader_opens (opener depth offset : Nat) (following : List Char) :
    scanHeader opener depth offset ('(' :: following) =
      (scanHeader opener (depth + 1) (offset + 1) following).prepend
        [punctuationToken .leftParen offset] [] := by
  rw [scanHeader_eq]
  rfl

/-- The parenthesis that closes the innermost group of several. -/
theorem scanHeader_closesInner (opener depth offset : Nat) (following : List Char) :
    scanHeader opener (depth + 1) offset (')' :: following) =
      (scanHeader opener depth (offset + 1) following).prepend
        [punctuationToken .rightParen offset] [] := by
  rw [scanHeader_eq]
  rfl

/-- The parenthesis that closes a header. -/
theorem scanHeader_closesHeader (opener offset : Nat) (following : List Char) :
    scanHeader opener 0 offset (')' :: following) =
      ⟨[punctuationToken .rightParen offset], [], offset + 1, following⟩ := by
  rw [scanHeader_eq]
  rfl

end Stencil
