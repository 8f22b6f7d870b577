import Stencil.Proofs.WrittenTokens

/-!
# Constants as they are written

Every constant that may stand in a header, in all of its written forms, is scanned as one
token: strings in either quotes and with any escapes, whole numbers of sixty-four bits,
numbers with a fraction or an exponent, and the three words.
-/

namespace Stencil

/-- At least one decimal digit. -/
def IsDigits (characters : List Char) : Prop :=
  characters ≠ [] ∧ ∀ character ∈ characters, character.isDigit

def IsSign (signs sign : List Char) : Prop :=
  sign = [] ∨ ∃ character ∈ signs, sign = [character]

/-- A fraction that may be absent: a point and digits. -/
def IsFraction (characters : List Char) : Prop :=
  characters = [] ∨ ∃ digits, IsDigits digits ∧ characters = '.' :: digits

/-- An exponent that may be absent: a mark, a sign that may be absent, and digits. -/
def IsExponent (characters : List Char) : Prop :=
  characters = [] ∨ ∃ mark sign digits, (mark = 'e' ∨ mark = 'E') ∧
    IsSign ['+', '-'] sign ∧ IsDigits digits ∧ characters = mark :: (sign ++ digits)

/-- A constant as it may be written in a header. -/
inductive WritesConstant : List Char → Prop where
  | string {quote : Char} {written content : List Char} :
      quote = '"' ∨ quote = '\'' → QuotedAs quote written content →
        WritesConstant (quote :: (written ++ [quote]))
  | integer {characters : List Char} {number : Int} :
      DenotesInteger characters number →
        -9223372036854775808 ≤ number ∧ number < 9223372036854775808 →
          WritesConstant characters
  | float {sign digits fraction exponent : List Char} :
      IsSign ['-'] sign → IsDigits digits → IsFraction fraction → IsExponent exponent →
        fraction ++ exponent ≠ [] →
          WritesConstant (sign ++ digits ++ fraction ++ exponent)
  | word {spelling : String} : spelling ∈ ["true", "false", "null"] →
      WritesConstant spelling.toList

theorem readString?_of_quotedAs {quote : Char} (plainQuote : quote ≠ '\\')
    {written content : List Char} (quoted : QuotedAs quote written content)
    (following : List Char) :
    readString? quote (written ++ quote :: following) =
      some ⟨content, written ++ [quote], following⟩ := by
  induction quoted with
  | nil => rw [List.nil_append, readString?_cons quote plainQuote, if_pos rfl]; rfl
  | escape escaped _ ih =>
      rw [List.cons_append, List.cons_append, readString?, ih]
      rfl
  | plain noEscape noQuote _ ih =>
      rw [List.cons_append, readString?_cons quote noEscape, if_neg noQuote, ih]
      rfl

theorem HeaderScans.quoted {quote : Char} (isQuote : quote = '"' ∨ quote = '\'')
    {written content : List Char} (quoted : QuotedAs quote written content) (offset : Nat)
    (following : List Char) :
    HeaderScans offset (quote :: (written ++ [quote])) following
      [⟨.string (String.ofList content),
        ⟨offset, offset + byteLength (quote :: (written ++ [quote]))⟩⟩] := by
  intro opener depth
  have plainQuote : quote ≠ '\\' := by rcases isQuote with rfl | rfl <;> decide
  have read := readString?_of_quotedAs plainQuote quoted following
  have visible : isBlank quote = false := by rcases isQuote with rfl | rfl <;> rfl
  have small : quote.utf8Size = 1 := by rcases isQuote with rfl | rfl <;> rfl
  have text : quote :: (written ++ [quote]) ++ following =
      quote :: (written ++ quote :: following) := by
    simp
  have lead : headerLead quote (written ++ quote :: following) = .quote := by
    rcases isQuote with rfl | rfl <;> rfl
  rw [ScansInto, text, scanHeader_eq, List.takeWhile_cons_of_neg (by simp [visible]),
    List.dropWhile_cons_of_neg (by simp [visible])]
  simp [scanHeaderFrom, lead, read, small, Nat.add_assoc]

theorem readWord?_of_denotes {characters : List Char} {number : Int}
    (denotes : DenotesInteger characters number)
    (inRange : -9223372036854775808 ≤ number ∧ number < 9223372036854775808) :
    readWord? 64 characters = some (Int64.ofInt number) := by
  obtain ⟨digits, nonempty, areDigits, forms⟩ := denotes
  have reads : readInteger? characters = some number := by
    rcases forms with ⟨rfl, rfl⟩ | ⟨rfl, rfl⟩
    · simp [readInteger?, splitSign_of_isDigit (List.all_eq_true.mp areDigits), nonempty,
        areDigits, signedInteger]
    · simp [readInteger?, splitSign, nonempty, areDigits, signedInteger]
  rw [readWord?, reads, Option.bind_some, if_pos ((fitsWord_64 number).mpr inRange)]

section Numbers

variable {digits fraction exponent following : List Char}

theorem IsExponent.startsWith_isDigit (isExponent : IsExponent exponent)
    (stops : startsWith endsItem following) :
    startsWith Char.isDigit (exponent ++ following) = false := by
  rcases isExponent with rfl | ⟨mark, sign, digits, rfl | rfl, -, -, rfl⟩
  · exact startsWith_of_endsItem stops isDigit_of_endsItem
  · rfl
  · rfl

theorem IsFraction.startsWith_isDigit (isFraction : IsFraction fraction)
    (isExponent : IsExponent exponent) (stops : startsWith endsItem following) :
    startsWith Char.isDigit (fraction ++ (exponent ++ following)) = false := by
  rcases isFraction with rfl | ⟨digits, -, rfl⟩
  · exact isExponent.startsWith_isDigit stops
  · rfl

theorem NumberLiteral.exponent_written (isExponent : IsExponent exponent)
    (stops : startsWith endsItem following) :
    NumberLiteral.exponent (exponent ++ following) = exponent := by
  rcases isExponent with rfl | ⟨mark, sign, digits, isMark, signed, ⟨nonempty, areDigits⟩, rfl⟩
  · exact exponent_of_endsItem stops
  · obtain ⟨taken, -⟩ := takeWhile_append_of_startsWith areDigits
      (startsWith_of_endsItem stops isDigit_of_endsItem)
    obtain ⟨digit, others, rfl⟩ := List.exists_cons_of_ne_nil nonempty
    have isDigit := areDigits digit List.mem_cons_self
    have noPlus := ne_of_class isDigit '+' (by decide)
    have noMinus := ne_of_class isDigit '-' (by decide)
    rcases signed with rfl | ⟨sign, isSign, rfl⟩
    · simp only [List.nil_append, List.cons_append] at taken ⊢
      simp [NumberLiteral.exponent, isMark, noPlus, noMinus, taken]
    · have isSign : sign = '+' ∨ sign = '-' := by simpa using isSign
      simp only [List.cons_append, List.nil_append] at taken ⊢
      simp [NumberLiteral.exponent, isMark, isSign, taken]

theorem NumberLiteral.fraction_written (isFraction : IsFraction fraction)
    (isExponent : IsExponent exponent) (stops : startsWith endsItem following) :
    NumberLiteral.fraction (fraction ++ (exponent ++ following)) = fraction := by
  rcases isFraction with rfl | ⟨digits, ⟨nonempty, areDigits⟩, rfl⟩
  · rcases isExponent with rfl | ⟨mark, sign, digits, rfl | rfl, -, -, rfl⟩
    · exact fraction_of_endsItem stops
    · rfl
    · rfl
  · obtain ⟨taken, -⟩ := takeWhile_append_of_startsWith areDigits
      (isExponent.startsWith_isDigit stops)
    obtain ⟨digit, others, rfl⟩ := List.exists_cons_of_ne_nil nonempty
    simp only [List.cons_append] at taken ⊢
    simp [NumberLiteral.fraction, taken]

/-- A literal goes on as far as its digits, its fraction and its exponent go. -/
theorem NumberLiteral.ofFront_written (first : Char)
    (areDigits : ∀ digit ∈ digits, digit.isDigit) (isFraction : IsFraction fraction)
    (isExponent : IsExponent exponent) (stops : startsWith endsItem following) :
    ofFront first (digits ++ (fraction ++ (exponent ++ following))) =
      ⟨first :: (digits ++ (fraction ++ exponent)), fraction.isEmpty && exponent.isEmpty,
        following⟩ := by
  obtain ⟨taken, dropped⟩ := takeWhile_append_of_startsWith areDigits
    (isFraction.startsWith_isDigit isExponent stops)
  simp [ofFront, taken, dropped, fraction_written isFraction isExponent stops,
    exponent_written isExponent stops]

/-- A number is scanned as one token. -/
theorem HeaderScans.number {sign : List Char} {kind : TokenKind} (signed : IsSign ['-'] sign)
    (isDigits : IsDigits digits) (isFraction : IsFraction fraction)
    (isExponent : IsExponent exponent) (offset : Nat) (stops : startsWith endsItem following)
    (reads : NumberLiteral.kind? ⟨sign ++ digits ++ fraction ++ exponent,
      fraction.isEmpty && exponent.isEmpty, following⟩ = some kind) :
    HeaderScans offset (sign ++ digits ++ fraction ++ exponent) following
      [⟨kind, ⟨offset, offset + byteLength (sign ++ digits ++ fraction ++ exponent)⟩⟩] := by
  obtain ⟨nonempty, areDigits⟩ := isDigits
  obtain ⟨digit, others, rfl⟩ := List.exists_cons_of_ne_nil nonempty
  obtain ⟨isDigit, othersDigits⟩ := List.forall_mem_cons.mp areDigits
  rcases signed with rfl | ⟨minus, isMinus, rfl⟩
  · have literal := NumberLiteral.ofFront_written digit othersDigits isFraction isExponent stops
    simp only [List.nil_append, List.cons_append, List.append_assoc] at reads ⊢
    refine .item (isBlank_of_class isDigit (by decide)) (headerLead_of_isDigit isDigit _) ?_
    simp only [scanItem, scanNumber, List.append_assoc, literal, reads]
  · obtain rfl := List.mem_singleton.mp isMinus
    have literal := NumberLiteral.ofFront_written '-' areDigits isFraction isExponent stops
    simp only [List.nil_append, List.cons_append, List.append_assoc] at literal reads ⊢
    refine .item (by decide) (show headerLead _ _ = .item .number from ?_) ?_
    · simp [headerLead, itemLead, headerPunctuation?, startsWith, isDigit]
    · simp only [scanItem, scanNumber, List.append_assoc, List.cons_append, literal, reads]

theorem readInteger?_isSome {sign : List Char} (signed : IsSign ['+', '-'] sign)
    (isDigits : IsDigits digits) : ∃ number, readInteger? (sign ++ digits) = some number := by
  obtain ⟨nonempty, areDigits⟩ := isDigits
  have all : digits.all Char.isDigit := List.all_eq_true.mpr areDigits
  rcases signed with rfl | ⟨sign, isSign, rfl⟩
  · simp [readInteger?, splitSign_of_isDigit areDigits, nonempty, all]
  · have isSign : sign = '+' ∨ sign = '-' := by simpa using isSign
    rcases isSign with rfl | rfl <;> simp [readInteger?, splitSign, nonempty, all]

theorem readExponent?_isSome (isExponent : IsExponent exponent) :
    ∃ power, DecimalLiteral.readExponent? exponent = some power := by
  rcases isExponent with rfl | ⟨mark, sign, digits, isMark, signed, isDigits, rfl⟩
  · exact ⟨0, rfl⟩
  · simpa [DecimalLiteral.readExponent?, isMark] using readInteger?_isSome signed isDigits

theorem readMagnitude?_isSome (negative : Bool) (isDigits : IsDigits digits)
    (isFraction : IsFraction fraction) (isExponent : IsExponent exponent) :
    ∃ literal, DecimalLiteral.readMagnitude? negative
      (digits ++ (fraction ++ exponent)) = some literal := by
  obtain ⟨nonempty, areDigits⟩ := isDigits
  obtain ⟨power, reads⟩ := readExponent?_isSome isExponent
  have noDigit : startsWith Char.isDigit exponent = false := by
    rcases isExponent with rfl | ⟨mark, sign, digits, rfl | rfl, -, -, rfl⟩ <;> rfl
  rcases isFraction with rfl | ⟨decimals, ⟨-, areDecimals⟩, rfl⟩
  · obtain ⟨taken, dropped⟩ := takeWhile_append_of_startsWith areDigits noDigit
    rw [List.nil_append, DecimalLiteral.readMagnitude?, taken, dropped]
    rcases isExponent with rfl | ⟨mark, sign, others, rfl | rfl, -, -, rfl⟩ <;>
      simp [nonempty, reads]
  · obtain ⟨taken, dropped⟩ := takeWhile_append_of_startsWith areDigits
      (show startsWith Char.isDigit ('.' :: decimals ++ exponent) = false from rfl)
    obtain ⟨decimalsTaken, decimalsDropped⟩ :=
      takeWhile_append_of_startsWith areDecimals noDigit
    rw [DecimalLiteral.readMagnitude?, taken, dropped]
    simp [decimalsTaken, decimalsDropped, nonempty, reads]

/-- A number with a fraction or an exponent is read, whatever its size. -/
theorem readDecimal?_isSome {sign : List Char} (signed : IsSign ['-'] sign)
    (isDigits : IsDigits digits) (isFraction : IsFraction fraction)
    (isExponent : IsExponent exponent) :
    ∃ number, readDecimal? (sign ++ digits ++ fraction ++ exponent) = some number := by
  have magnitude (negative : Bool) :=
    readMagnitude?_isSome negative isDigits isFraction isExponent
  obtain ⟨nonempty, areDigits⟩ := isDigits
  obtain ⟨digit, others, rfl⟩ := List.exists_cons_of_ne_nil nonempty
  have isDigit := areDigits digit List.mem_cons_self
  rcases signed with rfl | ⟨minus, isMinus, rfl⟩
  · have plain (rest : List Char) : splitSign (digit :: rest) = (false, digit :: rest) := by
      have noPlus := ne_of_class isDigit '+' (by decide)
      have noMinus := ne_of_class isDigit '-' (by decide)
      simp [splitSign, noPlus, noMinus]
    obtain ⟨literal, reads⟩ := magnitude false
    simp only [List.nil_append, List.cons_append, List.append_assoc] at reads ⊢
    exact ⟨literal.toBinary64, by simp [readDecimal?, plain, reads]⟩
  · obtain rfl := List.mem_singleton.mp isMinus
    obtain ⟨literal, reads⟩ := magnitude true
    simp only [List.nil_append, List.cons_append, List.append_assoc] at reads ⊢
    exact ⟨literal.toBinary64, by simp [readDecimal?, splitSign, reads]⟩

end Numbers

/-- Every constant is scanned as one token, which is that of a constant. -/
theorem WritesConstant.scans {own : List Char} (writes : WritesConstant own) (offset : Nat)
    {following : List Char} (stops : startsWith endsItem following) :
    ∃ kind literal, Literal.ofKind? kind = some literal ∧
      HeaderScans offset own following [⟨kind, ⟨offset, offset + byteLength own⟩⟩] := by
  cases writes with
  | string isQuote quoted => exact ⟨_, _, rfl, .quoted isQuote quoted offset following⟩
  | @integer _ number denotes inRange =>
      have reads := readWord?_of_denotes denotes inRange
      obtain ⟨digits, nonempty, areDigits, forms⟩ := denotes
      have isDigits : IsDigits digits := ⟨nonempty, List.all_eq_true.mp areDigits⟩
      refine ⟨.integer (Int64.ofInt number), _, rfl, ?_⟩
      rcases forms with ⟨same, -⟩ | ⟨same, -⟩ <;> rw [same] at reads ⊢
      · have scans : HeaderScans offset ([] ++ digits ++ [] ++ []) following
            [⟨.integer (Int64.ofInt number), _⟩] :=
          .number (.inl rfl) isDigits (.inl rfl) (.inl rfl) offset stops
            (by simp [NumberLiteral.kind?, reads])
        simpa using scans
      · have scans : HeaderScans offset (['-'] ++ digits ++ [] ++ []) following
            [⟨.integer (Int64.ofInt number), _⟩] :=
          .number (.inr ⟨'-', List.mem_singleton_self _, rfl⟩) isDigits (.inl rfl) (.inl rfl)
            offset stops (by simp [NumberLiteral.kind?, reads])
        simpa using scans
  | float signed isDigits isFraction isExponent beyond =>
      obtain ⟨number, reads⟩ := readDecimal?_isSome signed isDigits isFraction isExponent
      refine ⟨.float number, _, rfl, .number signed isDigits isFraction isExponent offset stops ?_⟩
      have notInteger : (List.isEmpty _ && List.isEmpty _) = false :=
        Bool.eq_false_iff.mpr fun empty => beyond (by simpa using empty)
      simp only [NumberLiteral.kind?, notInteger, Bool.false_eq_true, if_false, reads,
        Option.map_some]
  | @word spelling member =>
      obtain ⟨proper, literal, constant⟩ : isName spelling ∧
          ∃ literal, Literal.ofKind? (wordKind spelling) = some literal := by
        simp only [List.mem_cons, List.not_mem_nil, or_false] at member
        rcases member with rfl | rfl | rfl <;> exact ⟨by decide, _, rfl⟩
      exact ⟨_, literal, constant, .word proper offset stops⟩

end Stencil
