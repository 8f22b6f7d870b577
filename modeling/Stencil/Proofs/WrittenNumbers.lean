import Stencil.Proofs.Rounding
import Stencil.Proofs.WrittenConstants

/-!
# Numbers as they are written

A number has a sign, digits, and a fraction and an exponent that may be absent.  At the front of
a text the longest written number is taken.  Without a fraction and an exponent it is read as
the integer that it denotes, as long as that fits into sixty-four bits, and otherwise as the
floating-point number nearest to what it denotes, whatever its size.
-/

namespace Stencil

/-- An exponent as it is written: a mark, a sign that may be absent, and digits. -/
structure WrittenExponent where
  mark : Char
  sign : List Char
  digits : List Char
  isMark : mark = 'e' ∨ mark = 'E'
  isSign : IsSign ['+', '-'] sign
  isDigits : IsDigits digits

namespace WrittenExponent

def characters (exponent : WrittenExponent) : List Char :=
  exponent.mark :: (exponent.sign ++ exponent.digits)

def value (exponent : WrittenExponent) : Int :=
  signedInteger (exponent.sign = ['-']) (decimalValue exponent.digits)

end WrittenExponent

def writtenFraction : Option (List Char) → List Char
  | none => []
  | some digits => '.' :: digits

def writtenExponent : Option WrittenExponent → List Char
  | none => []
  | some exponent => exponent.characters

def minusSign (negative : Bool) : List Char :=
  if negative then ['-'] else []

/-- A number as it is written: a minus sign if it is negative, digits, and a fraction and an
exponent that may be absent. -/
structure WrittenNumber where
  negative : Bool
  whole : List Char
  /-- The digits behind the point. -/
  fraction? : Option (List Char)
  exponent? : Option WrittenExponent
  isWhole : IsDigits whole
  isFraction : ∀ digits ∈ fraction?, IsDigits digits

namespace WrittenNumber

/-- A number without its sign. -/
def unsigned (number : WrittenNumber) : List Char :=
  number.whole ++ (writtenFraction number.fraction? ++ writtenExponent number.exponent?)

def characters (number : WrittenNumber) : List Char :=
  minusSign number.negative ++ number.unsigned

/-- Whether there is neither a fraction nor an exponent. -/
def isInteger (number : WrittenNumber) : Bool :=
  number.fraction?.isNone && number.exponent?.isNone

/-- What the digits in front of the point denote, with the sign. -/
def integer (number : WrittenNumber) : Int :=
  signedInteger number.negative (decimalValue number.whole)

def power (number : WrittenNumber) : Int :=
  number.exponent?.elim 0 WrittenExponent.value

/-- What a number denotes, apart from its sign. -/
def magnitude (number : WrittenNumber) : ℚ :=
  (decimalValue number.whole +
    decimalValue (number.fraction?.getD []) / 10 ^ (number.fraction?.getD []).length) *
    10 ^ number.power

end WrittenNumber

theorem isDigits_takeWhile {text : List Char} (nonempty : text.takeWhile Char.isDigit ≠ []) :
    IsDigits (text.takeWhile Char.isDigit) :=
  ⟨nonempty, List.all_eq_true.mp List.all_takeWhile⟩

namespace NumberLiteral

theorem exists_fraction (text : List Char) : ∃ fraction? : Option (List Char),
    (∀ digits ∈ fraction?, IsDigits digits) ∧ fraction text = writtenFraction fraction? := by
  unfold fraction
  split
  · rename_i rest
    split
    · exact ⟨none, by simp, rfl⟩
    · rename_i nonempty
      exact ⟨some (rest.takeWhile Char.isDigit),
        by simpa using isDigits_takeWhile nonempty, rfl⟩
  · exact ⟨none, by simp, rfl⟩

theorem exists_exponent (text : List Char) : ∃ exponent? : Option WrittenExponent,
    exponent text = writtenExponent exponent? := by
  unfold exponent
  split
  · exact ⟨none, rfl⟩
  · rename_i mark rest
    split
    · rename_i isMark
      split
      · exact ⟨none, rfl⟩
      · rename_i sign tail
        split
        · rename_i isSign
          split
          · exact ⟨none, rfl⟩
          · rename_i nonempty
            exact ⟨some ⟨mark, [sign], tail.takeWhile Char.isDigit, isMark,
              .inr ⟨sign, by simpa using isSign, rfl⟩, isDigits_takeWhile nonempty⟩, rfl⟩
        · split
          · exact ⟨none, rfl⟩
          · rename_i nonempty
            exact ⟨some ⟨mark, [], (sign :: tail).takeWhile Char.isDigit, isMark, .inl rfl,
              isDigits_takeWhile nonempty⟩, rfl⟩
    · exact ⟨none, rfl⟩

/-- Digits that are written at the front of a text go no further than those that are taken: they
are all of them, or else a digit follows. -/
theorem digits_longest {own : List Char} (areDigits : ∀ digit ∈ own, digit.isDigit)
    (following : List Char) :
    (own.length < ((own ++ following).takeWhile Char.isDigit).length ∧
        startsWith Char.isDigit following) ∨
      (own = (own ++ following).takeWhile Char.isDigit ∧
        following = (own ++ following).dropWhile Char.isDigit) := by
  cases goesOn : startsWith Char.isDigit following with
  | false =>
      obtain ⟨taken, dropped⟩ := takeWhile_append_of_startsWith areDigits goesOn
      exact .inr ⟨taken.symm, dropped.symm⟩
  | true =>
      refine .inl ⟨?_, rfl⟩
      cases following with
      | nil => cases goesOn
      | cons digit rest =>
          have isDigit : digit.isDigit := goesOn
          rw [List.takeWhile_append_of_pos areDigits, List.takeWhile_cons_of_pos isDigit]
          simp

theorem exponent_longest (exponent? : Option WrittenExponent) (following : List Char) :
    (writtenExponent exponent?).length ≤
      (exponent (writtenExponent exponent? ++ following)).length := by
  rcases exponent? with _ | ⟨mark, sign, digits, isMark, isSign, nonempty, areDigits⟩
  · exact Nat.zero_le _
  obtain ⟨digit, others, rfl⟩ := List.exists_cons_of_ne_nil nonempty
  have isDigit := areDigits digit List.mem_cons_self
  have taken : (digit :: (others ++ following)).takeWhile Char.isDigit =
      digit :: others ++ following.takeWhile Char.isDigit :=
    List.takeWhile_append_of_pos areDigits
  rcases isSign with rfl | ⟨sign, isSign, rfl⟩
  · have noSign : ¬ (digit = '+' ∨ digit = '-') := by
      rintro (rfl | rfl) <;> cases isDigit
    simp [writtenExponent, WrittenExponent.characters, exponent, isMark, noSign, taken]
  · have isSign : sign = '+' ∨ sign = '-' := by simpa using isSign
    simp [writtenExponent, WrittenExponent.characters, exponent, isMark, isSign, taken]

theorem exponent_eq_none {exponent? : Option WrittenExponent} {following : List Char}
    (digitNext : startsWith Char.isDigit (writtenExponent exponent? ++ following)) :
    exponent? = none := by
  rcases exponent? with _ | ⟨mark, sign, digits, rfl | rfl, isSign, isDigits⟩
  · rfl
  · exact absurd digitNext (show ¬ startsWith Char.isDigit ('e' :: _) from nofun)
  · exact absurd digitNext (show ¬ startsWith Char.isDigit ('E' :: _) from nofun)

theorem fraction_exponent_longest {fraction? : Option (List Char)}
    {exponent? : Option WrittenExponent} {text following : List Char}
    (isFraction : ∀ digits ∈ fraction?, IsDigits digits)
    (isText : text = writtenFraction fraction? ++ (writtenExponent exponent? ++ following)) :
    (writtenFraction fraction?).length + (writtenExponent exponent?).length ≤
      (fraction text).length + (exponent (text.drop (fraction text).length)).length := by
  subst isText
  cases fraction? with
  | none =>
      cases exponent? with
      | none => exact Nat.zero_le _
      | some written =>
          have longest := exponent_longest (some written) following
          have noFraction : fraction (written.characters ++ following) = [] := by
            obtain ⟨mark, sign, digits, rfl | rfl, isSign, isDigits⟩ := written <;> rfl
          simpa [writtenFraction, writtenExponent, noFraction] using longest
  | some digits =>
      obtain ⟨nonempty, areDigits⟩ := isFraction digits rfl
      have taken : fraction ('.' :: (digits ++ (writtenExponent exponent? ++ following))) =
          '.' :: (digits ++ (writtenExponent exponent? ++ following)).takeWhile Char.isDigit := by
        obtain ⟨digit, others, rfl⟩ := List.exists_cons_of_ne_nil nonempty
        have isDigit := areDigits digit List.mem_cons_self
        simp [fraction, List.takeWhile_cons_of_pos isDigit]
      rw [writtenFraction, List.cons_append, taken]
      rcases digits_longest areDigits (writtenExponent exponent? ++ following) with
        ⟨shorter, digitNext⟩ | ⟨same, rest⟩
      · obtain rfl := exponent_eq_none digitNext
        simp only [writtenExponent, List.length_cons, List.length_nil]
        exact Nat.le_trans (Nat.succ_le_succ shorter.le) (Nat.le_add_right _ _)
      · have longest := exponent_longest exponent? following
        rw [← same, List.length_cons, List.drop_succ_cons, List.drop_left]
        exact Nat.add_le_add_left longest _

/-- What is taken is a written number, and no longer one stands there. -/
structure IsTaken (number : WrittenNumber) (first : Char) (text : List Char) : Prop where
  characters : (ofFront first text).characters = number.characters
  isInteger : (ofFront first text).isInteger = number.isInteger
  longest : ∀ other : WrittenNumber, other.characters <+: first :: text →
    other.characters.length ≤ number.characters.length

/-- What is taken of a text that begins with a digit. -/
def unsigned (text : List Char) : List Char :=
  text.takeWhile Char.isDigit ++ (fraction (text.dropWhile Char.isDigit) ++
    exponent ((text.dropWhile Char.isDigit).drop
      (fraction (text.dropWhile Char.isDigit)).length))

/-- Without its sign, no number at the front of a text is longer than the one that is taken. -/
theorem unsigned_longest {other : WrittenNumber} {text : List Char}
    (isPrefix : other.unsigned <+: text) : other.unsigned.length ≤ (unsigned text).length := by
  obtain ⟨following, rfl⟩ := isPrefix
  obtain ⟨nonempty, areDigits⟩ := other.isWhole
  simp only [WrittenNumber.unsigned, unsigned, List.append_assoc, List.length_append]
  rcases digits_longest areDigits
      (writtenFraction other.fraction? ++ (writtenExponent other.exponent? ++ following)) with
    ⟨shorter, digitNext⟩ | ⟨same, rest⟩
  · have noFraction : other.fraction? = none := by
      cases isSome : other.fraction? with
      | none => rfl
      | some digits =>
          rw [isSome] at digitNext
          cases digitNext
    rw [noFraction] at digitNext shorter ⊢
    have noExponent := exponent_eq_none digitNext
    rw [noExponent] at shorter ⊢
    simp only [writtenFraction, writtenExponent, List.length_nil] at shorter ⊢
    omega
  · rw [← same, ← rest]
    exact Nat.add_le_add_left (fraction_exponent_longest other.isFraction rfl) _

/-- The sign of a number at the front of a text is the minus sign that stands there. -/
theorem unsigned_isPrefix {other : WrittenNumber} {negative : Bool} {text : List Char}
    (starts : startsWith Char.isDigit text)
    (isPrefix : other.characters <+: minusSign negative ++ text) :
    other.negative = negative ∧ other.unsigned <+: text := by
  obtain ⟨nonempty, areDigits⟩ := other.isWhole
  obtain ⟨digit, others, isWhole⟩ := List.exists_cons_of_ne_nil nonempty
  have isDigit := areDigits digit (isWhole ▸ List.mem_cons_self)
  unfold WrittenNumber.characters at isPrefix
  cases negative <;> cases otherNegative : other.negative <;> rw [otherNegative] at isPrefix
  · exact ⟨rfl, isPrefix⟩
  · cases text with
    | nil => cases starts
    | cons first rest =>
        obtain rfl := (List.cons_prefix_cons.mp isPrefix).1
        cases starts
  · rw [WrittenNumber.unsigned, isWhole] at isPrefix
    obtain rfl := (List.cons_prefix_cons.mp isPrefix).1
    cases isDigit
  · exact ⟨rfl, (List.cons_prefix_cons.mp isPrefix).2⟩

/-- What is taken behind a sign that may be absent is a written number. -/
theorem exists_isTaken_of_unsigned {negative : Bool} {first : Char} {text rest : List Char}
    (starts : startsWith Char.isDigit text) (split : first :: rest = minusSign negative ++ text)
    (characters : (ofFront first rest).characters = minusSign negative ++ unsigned text)
    (isInteger : (ofFront first rest).isInteger =
      ((fraction (text.dropWhile Char.isDigit)).isEmpty &&
        (exponent ((text.dropWhile Char.isDigit).drop
          (fraction (text.dropWhile Char.isDigit)).length)).isEmpty)) :
    ∃ number, IsTaken number first rest := by
  obtain ⟨fraction?, isFraction, fractionTaken⟩ := exists_fraction (text.dropWhile Char.isDigit)
  obtain ⟨exponent?, exponentTaken⟩ := exists_exponent
    ((text.dropWhile Char.isDigit).drop (fraction (text.dropWhile Char.isDigit)).length)
  have isWhole : IsDigits (text.takeWhile Char.isDigit) := by
    refine isDigits_takeWhile ?_
    cases text with
    | nil => cases starts
    | cons digit rest =>
        rw [List.takeWhile_cons_of_pos (show digit.isDigit from starts)]
        exact List.cons_ne_nil _ _
  have same : unsigned text = text.takeWhile Char.isDigit ++
      (writtenFraction fraction? ++ writtenExponent exponent?) := by
    rw [unsigned, exponentTaken, fractionTaken]
  refine ⟨⟨negative, _, fraction?, exponent?, isWhole, isFraction⟩, ?_, ?_,
    fun other isPrefix => ?_⟩
  · rw [characters, same]
    rfl
  · rw [isInteger, exponentTaken, fractionTaken]
    cases fraction? <;> cases exponent? <;> rfl
  · rw [split] at isPrefix
    obtain ⟨sign, isPrefix⟩ := unsigned_isPrefix starts isPrefix
    have longest := unsigned_longest isPrefix
    rw [same] at longest
    rw [WrittenNumber.characters, WrittenNumber.characters, sign, List.length_append,
      List.length_append]
    exact Nat.add_le_add_left longest _

/-- A digit, or a minus sign and a digit, begin a written number. -/
theorem exists_isTaken {first : Char} {text : List Char}
    (begins : first.isDigit ∨ first = '-' ∧ startsWith Char.isDigit text) :
    ∃ number, IsTaken number first text := by
  rcases begins with isDigit | ⟨rfl, starts⟩
  · have dropped : (first :: text).dropWhile Char.isDigit = text.dropWhile Char.isDigit :=
      List.dropWhile_cons_of_pos isDigit
    refine exists_isTaken_of_unsigned (show startsWith Char.isDigit (first :: text) from isDigit)
      (show first :: text = minusSign false ++ (first :: text) from rfl) ?_ ?_
    · rw [unsigned, dropped, List.takeWhile_cons_of_pos isDigit]
      simp [ofFront, minusSign]
    · rw [dropped]
      rfl
  · refine exists_isTaken_of_unsigned starts
      (show '-' :: text = minusSign true ++ text from rfl) ?_ rfl
    simp [ofFront, minusSign, unsigned]

end NumberLiteral

theorem decimalValue_append (first second : List Char) :
    decimalValue (first ++ second) =
      decimalValue first * 10 ^ second.length + decimalValue second := by
  have shifted : Nat.ofDigitChars 10 second (decimalValue first) =
      10 ^ second.length * decimalValue first + decimalValue second :=
    Nat.ofDigitChars_eq_ofDigitChars_zero
  rw [Nat.mul_comm, ← shifted]
  exact Nat.ofDigitChars_append 0

theorem readInteger?_signed {sign digits : List Char} (isSign : IsSign ['+', '-'] sign)
    (isDigits : IsDigits digits) :
    readInteger? (sign ++ digits) = some (signedInteger (sign = ['-']) (decimalValue digits)) := by
  obtain ⟨nonempty, areDigits⟩ := isDigits
  have all : digits.all Char.isDigit := List.all_eq_true.mpr areDigits
  rcases isSign with rfl | ⟨sign, isSign, rfl⟩
  · simp [readInteger?, splitSign_of_isDigit areDigits, nonempty, all]
  · have isSign : sign = '+' ∨ sign = '-' := by simpa using isSign
    rcases isSign with rfl | rfl <;> simp [readInteger?, splitSign, nonempty, all]

theorem readExponent?_written (exponent? : Option WrittenExponent) :
    DecimalLiteral.readExponent? (writtenExponent exponent?) =
      some (exponent?.elim 0 WrittenExponent.value) := by
  rcases exponent? with _ | ⟨mark, sign, digits, isMark, isSign, isDigits⟩
  · rfl
  · simp [writtenExponent, WrittenExponent.characters, DecimalLiteral.readExponent?, isMark,
      readInteger?_signed isSign isDigits, WrittenExponent.value]

namespace WrittenNumber

variable (number : WrittenNumber)

theorem splitSign_characters :
    splitSign number.characters = (number.negative, number.unsigned) := by
  obtain ⟨nonempty, areDigits⟩ := number.isWhole
  obtain ⟨digit, others, isWhole⟩ := List.exists_cons_of_ne_nil nonempty
  have isDigit := areDigits digit (isWhole ▸ List.mem_cons_self)
  have noPlus := ne_of_class isDigit '+' (by decide)
  have noMinus := ne_of_class isDigit '-' (by decide)
  unfold characters
  cases number.negative with
  | false => simp [minusSign, unsigned, isWhole, splitSign, noPlus, noMinus]
  | true => rfl

theorem readInteger?_characters (isInteger : number.isInteger) :
    readInteger? number.characters = some number.integer := by
  obtain ⟨noFraction, noExponent⟩ :
      number.fraction? = none ∧ number.exponent? = none := by
    simpa [WrittenNumber.isInteger] using isInteger
  obtain ⟨nonempty, areDigits⟩ := number.isWhole
  have all : number.whole.all Char.isDigit := List.all_eq_true.mpr areDigits
  have unsigned : number.unsigned = number.whole := by
    simp [WrittenNumber.unsigned, noFraction, noExponent, writtenFraction, writtenExponent]
  simp [readInteger?, splitSign_characters, unsigned, nonempty, all, integer]

theorem readMagnitude?_unsigned :
    DecimalLiteral.readMagnitude? number.negative number.unsigned =
      some ⟨number.negative, number.whole, number.fraction?.getD [], number.power⟩ := by
  obtain ⟨nonempty, areDigits⟩ := number.isWhole
  have noDigit : startsWith Char.isDigit (writtenExponent number.exponent?) = false := by
    rcases number.exponent? with _ | ⟨mark, sign, digits, rfl | rfl, isSign, isDigits⟩ <;> rfl
  have reads := readExponent?_written number.exponent?
  unfold unsigned power
  cases isFraction : number.fraction? with
  | none =>
      obtain ⟨taken, dropped⟩ := takeWhile_append_of_startsWith areDigits noDigit
      rw [writtenFraction, List.nil_append, DecimalLiteral.readMagnitude?, taken, dropped]
      have noPoint (tail : List Char) : writtenExponent number.exponent? ≠ '.' :: tail := by
        rcases number.exponent? with _ | ⟨mark, sign, digits, rfl | rfl, isSign, isDigits⟩ <;>
          simp [writtenExponent, WrittenExponent.characters]
      dsimp only
      split
      · exact absurd ‹_› (noPoint _)
      · simp [nonempty, reads]
  | some decimals =>
      obtain ⟨-, areDecimals⟩ := number.isFraction decimals isFraction
      obtain ⟨taken, dropped⟩ := takeWhile_append_of_startsWith areDigits
        (show startsWith Char.isDigit ('.' :: decimals ++ writtenExponent number.exponent?) =
          false from rfl)
      obtain ⟨decimalsTaken, decimalsDropped⟩ :=
        takeWhile_append_of_startsWith areDecimals noDigit
      rw [writtenFraction, DecimalLiteral.readMagnitude?, taken, dropped]
      simp [decimalsTaken, decimalsDropped, nonempty, reads]

/-- What is read of a number is what the number denotes, rounded. -/
theorem readDecimal?_characters : ∃ rounded, readDecimal? number.characters = some rounded ∧
    Binary64.RoundedWithSign number.negative number.magnitude rounded := by
  have reads : readDecimal? number.characters = some (DecimalLiteral.toBinary64
      ⟨number.negative, number.whole, number.fraction?.getD [], number.power⟩) := by
    rw [readDecimal?, splitSign_characters]
    exact congrArg (Option.map _) number.readMagnitude?_unsigned
  refine ⟨_, reads, ?_⟩
  have rounded := Binary64.ofDecimal_rounded number.negative
    (decimalValue (number.whole ++ number.fraction?.getD []))
    (number.power - (number.fraction?.getD []).length)
  have same : number.magnitude =
      (decimalValue (number.whole ++ number.fraction?.getD []) : ℚ) *
        10 ^ (number.power - ((number.fraction?.getD []).length : Int)) := by
    have weight : (10 : ℚ) ^ (number.fraction?.getD []).length ≠ 0 := by positivity
    rw [magnitude, decimalValue_append, zpow_sub₀ (by norm_num), zpow_natCast]
    push_cast
    field_simp
  rw [same]
  exact rounded

end WrittenNumber

end Stencil
