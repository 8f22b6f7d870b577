import Stencil.Proofs.IntegerWords

/-!
# Dates and their texts

The macro `date` reads a text by the first of the usual patterns that fits.  What it reads is a
day of the calendar and a time without a fraction of a second, and every such moment is read
back from its own text: in years before year zero and after year 9999, which have a sign, and in
a leap second, which is second sixty.
-/

namespace Stencil

open Builtin PatternItem

namespace CalendarDate

/-- A day that is in the calendar: one of the months of a year in range has it. -/
def IsDay (date : CalendarDate) : Prop :=
  (firstYear ≤ date.year ∧ date.year ≤ lastYear) ∧ (1 ≤ date.month ∧ date.month ≤ 12) ∧
    1 ≤ date.day ∧ date.day ≤ (monthLengths date.year).getD (date.month - 1) 0

instance (date : CalendarDate) : Decidable date.IsDay :=
  inferInstanceAs (Decidable (_ ∧ _))

theorem IsDay.day_le {date : CalendarDate} (isDay : date.IsDay) : date.day ≤ 31 := by
  obtain ⟨-, -, -, inMonth⟩ := isDay
  have lengths : ∀ length ∈ monthLengths date.year, length ≤ 31 := by
    unfold monthLengths
    split <;> decide
  rw [List.getD_eq_getElem?_getD] at inMonth
  cases found : (monthLengths date.year)[date.month - 1]? with
  | none => simp only [found, Option.getD_none] at inMonth; omega
  | some length =>
      simp only [found, Option.getD_some] at inMonth
      exact inMonth.trans (lengths length (List.mem_of_getElem? found))

theorem ofMonthDay?_eq_some_iff {year : Int} {month day : Nat} {date : CalendarDate} :
    ofMonthDay? year month day = some date ↔ ⟨year, month, day⟩ = date ∧ date.IsDay := by
  have inMonth : (1 ≤ month ∧ 1 ≤ day) ∧ (monthLengths year)[month - 1]?.any (day ≤ ·) = true ↔
      (1 ≤ month ∧ month ≤ 12) ∧ 1 ≤ day ∧ day ≤ (monthLengths year).getD (month - 1) 0 := by
    rw [List.getD_eq_getElem?_getD]
    cases found : (monthLengths year)[month - 1]? with
    | none => simp; omega
    | some length =>
        obtain ⟨inYear, -⟩ := List.getElem?_eq_some_iff.mp found
        have months : (monthLengths year).length = 12 := rfl
        simp
        omega
  rw [ofMonthDay?, Option.ite_none_right_eq_some, Option.some.injEq, and_comm]
  refine and_congr_right fun same => ?_
  subst same
  rw [IsDay, ← inMonth, isYearInRange]
  simp only [Bool.and_eq_true, decide_eq_true_eq, and_assoc]

end CalendarDate

/-- A time of day without a fraction of a second.  It may be a leap second. -/
def ClockTime.IsWhole (time : ClockTime) : Prop :=
  (time.hour < 24 ∧ time.minute < 60) ∧
    (time.second < 60 ∧ time.nanosecond = 0 ∨
      time.second = 59 ∧ time.nanosecond = 1000000000)

instance (time : ClockTime) : Decidable time.IsWhole :=
  inferInstanceAs (Decidable (_ ∧ _))

/-- A moment on a day of the calendar without a fraction of a second. -/
def Moment.IsWhole (moment : Moment) : Prop :=
  moment.date.IsDay ∧ moment.time.IsWhole

instance (moment : Moment) : Decidable moment.IsWhole :=
  inferInstanceAs (Decidable (_ ∧ _))

theorem agree?_eq_some_iff {α : Type} [DecidableEq α] {known : Option α} {fact : α}
    {agreed : Option α} :
    agree? known fact = some agreed ↔ agreed = some fact ∧ ∀ old ∈ known, old = fact := by
  cases known with
  | none => simp [agree?, eq_comm]
  | some old =>
      simp only [agree?, Option.ite_none_right_eq_some, Option.some.injEq, Option.mem_def,
        forall_eq']
      constructor
      · rintro ⟨rfl, rfl⟩
        exact ⟨rfl, rfl⟩
      · rintro ⟨rfl, rfl⟩
        exact ⟨rfl, rfl⟩

theorem isBetween_iff {low high number : Int} :
    isBetween low high number ↔ low ≤ number ∧ number ≤ high := by
  simp [isBetween]

/-- The numbers of the usual patterns. -/
def civilNumbers : List DateNumber :=
  [.year, .month, .day, .hour, .minute, .second]

/-- Whether an item is one of those that the usual patterns are made of. -/
def PatternItem.isCivil : PatternItem → Bool
  | .literal _ | .blanks => true
  | .number kind => kind ∈ civilNumbers
  | _ => false

namespace DateFields

/-- What a text says that has at most a year, a month, a day and a time to the second. -/
def civil (year : Option Int) (month day dayHalf hourOfHalf minute second : Option Nat) :
    DateFields :=
  { year, month, day, dayHalf, hourOfHalf, minute, second }

section Civil

variable {year : Option Int} {month day dayHalf hourOfHalf minute second : Option Nat}

/-- The date is that of year, month and day, and nothing else contradicts it. -/
theorem resolveDate_civil :
    (civil year month day dayHalf hourOfHalf minute second).resolveDate =
      match year, month, day with
      | some year, some month, some day =>
          orContradictory (CalendarDate.ofMonthDay? year month day)
      | _, _, _ => .error .incomplete := by
  rcases year with _ | year
  · rfl
  rcases month with _ | month
  · rfl
  rcases day with _ | day
  · rfl
  let fields := civil (some year) (some month) (some day) dayHalf hourOfHalf minute second
  have agrees (date : CalendarDate) :
      fields.confirmsIsoWeek date && fields.confirmsDayOfYear date := by
    simp [fields, civil, confirmsIsoWeek, confirmsDayOfYear, confirms]
  have accepted (date : CalendarDate) : fields.verified
      (fields.confirmsIsoWeek date && fields.confirmsDayOfYear date) date = .ok date := by
    rw [verified, agrees date]
    rfl
  calc fields.resolveDate
    _ = (orContradictory (CalendarDate.ofMonthDay? year month day)).bind fun date =>
          fields.verified
            (fields.confirmsIsoWeek date && fields.confirmsDayOfYear date) date := rfl
    _ = orContradictory (CalendarDate.ofMonthDay? year month day) := by
      simp only [accepted]
      cases CalendarDate.ofMonthDay? year month day <;> rfl

end Civil

/-- A text that has at most a year, a month, a day and a time to the second, each number of
the time in its range. -/
structure IsCivil (fields : DateFields) : Prop where
  only : fields = civil fields.year fields.month fields.day fields.dayHalf fields.hourOfHalf
    fields.minute fields.second
  dayHalf : ∀ half ∈ fields.dayHalf, half < 2
  hourOfHalf : ∀ hour ∈ fields.hourOfHalf, hour < 12
  minute : ∀ minute ∈ fields.minute, minute < 60
  second : ∀ second ∈ fields.second, second ≤ 60

theorem IsCivil.default : (default : DateFields).IsCivil := by
  constructor
  · rfl
  all_goals exact fun _ known => absurd known (Option.not_mem_none _)

theorem IsCivil.setNumber? {fields others : DateFields} (isCivil : fields.IsCivil)
    {kind : DateNumber} (known : kind ∈ civilNumbers) {number : Int}
    (set : fields.setNumber? kind number = some others) : others.IsCivil := by
  obtain ⟨only, dayHalf, hourOfHalf, minute, second⟩ := isCivil
  simp only [civilNumbers, List.mem_cons, List.not_mem_nil, or_false] at known
  rcases known with rfl | rfl | rfl | rfl | rfl | rfl <;>
    simp only [DateFields.setNumber?, setMonth?, setHour?, isBetween_iff,
      Option.ite_none_right_eq_some, Option.bind_eq_bind, Option.bind_eq_some_iff,
      Option.some.injEq, agree?_eq_some_iff] at set
  -- Year, month and day leave the time as it is.
  iterate 3
    · obtain ⟨-, _, -, rfl⟩ := set
      exact ⟨by rw [only]; rfl, dayHalf, hourOfHalf, minute, second⟩
  · obtain ⟨-, inDay, _, ⟨rfl, -⟩, _, ⟨rfl, -⟩, rfl⟩ := set
    refine ⟨by rw [only]; rfl, ?_, ?_, minute, second⟩
    · rintro _ ⟨⟩
      omega
    · rintro _ ⟨⟩
      omega
  · obtain ⟨inHour, _, ⟨rfl, -⟩, rfl⟩ := set
    refine ⟨by rw [only]; rfl, dayHalf, hourOfHalf, ?_, second⟩
    rintro _ ⟨⟩
    omega
  · obtain ⟨inMinute, _, ⟨rfl, -⟩, rfl⟩ := set
    refine ⟨by rw [only]; rfl, dayHalf, hourOfHalf, minute, ?_⟩
    rintro _ ⟨⟩
    omega

theorem IsCivil.matchItem? {fields others : DateFields} (isCivil : fields.IsCivil)
    {item : PatternItem} (known : item.isCivil) {text rest : List Char}
    (matched : fields.matchItem? item text = some (others, rest)) : others.IsCivil := by
  cases item with
  | literal character =>
      cases text with
      | nil => cases matched
      | cons first text =>
          obtain ⟨-, same⟩ := Option.ite_none_right_eq_some.mp matched
          cases same
          exact isCivil
  | blanks =>
      cases matched
      exact isCivil
  | number kind =>
      simp only [DateFields.matchItem?, matchNumber?, Option.bind_eq_bind, Option.bind_eq_some_iff,
        Option.some.injEq, Prod.mk.injEq] at matched
      obtain ⟨⟨number, _⟩, -, _, set, rfl, -⟩ := matched
      exact isCivil.setNumber? (of_decide_eq_true known) set
  | _ => cases known

theorem IsCivil.matchItems? {items : List PatternItem} (known : ∀ item ∈ items, item.isCivil)
    {fields others : DateFields} (isCivil : fields.IsCivil) {text rest : List Char}
    (matched : fields.matchItems? items text = some (others, rest)) : others.IsCivil := by
  induction items generalizing fields text with
  | nil =>
      cases matched
      exact isCivil
  | cons item items ih =>
      obtain ⟨⟨next, left⟩, first, further⟩ := Option.bind_eq_some_iff.mp matched
      obtain ⟨knownFirst, knownOthers⟩ := List.forall_mem_cons.mp known
      exact ih knownOthers (isCivil.matchItem? knownFirst first) further

variable {fields : DateFields}

theorem IsCivil.isDay (isCivil : fields.IsCivil) {date : CalendarDate}
    (resolved : fields.resolveDate = .ok date) : date.IsDay := by
  rw [isCivil.only, resolveDate_civil] at resolved
  split at resolved
  · rename_i year month day _ _ _
    cases found : CalendarDate.ofMonthDay? year month day with
    | none => simp [found, orContradictory] at resolved
    | some other =>
        simp only [found, orContradictory] at resolved
        cases resolved
        exact (CalendarDate.ofMonthDay?_eq_some_iff.mp found).2
  · cases resolved

theorem IsCivil.isWhole (isCivil : fields.IsCivil) {time : ClockTime}
    (resolved : fields.resolveTime = .ok time) : time.IsWhole := by
  obtain ⟨only, dayHalves, hoursOfHalf, minutes, seconds⟩ := isCivil
  have noFraction : fields.nanosecond = none := by rw [only]; rfl
  unfold resolveTime at resolved
  split at resolved
  · rename_i half hour minute isHalf isHour isMinute
    have inDay : half * 12 + hour < 24 := by
      have := dayHalves half isHalf
      have := hoursOfHalf hour isHour
      omega
    have inHour := minutes minute isMinute
    rw [noFraction] at resolved
    split at resolved
    · rename_i impossible
      cases impossible
    · cases resolved
      exact ⟨⟨inDay, inHour⟩, .inl ⟨Nat.zero_lt_of_lt inHour, rfl⟩⟩
    · rename_i second isSecond
      have inMinute := seconds second isSecond
      dsimp only at resolved
      split at resolved
      · cases resolved
        exact ⟨⟨inDay, inHour⟩, .inr ⟨rfl, rfl⟩⟩
      · rename_i notLeap
        cases resolved
        exact ⟨⟨inDay, inHour⟩, .inl ⟨Nat.lt_of_le_of_ne inMinute notLeap, rfl⟩⟩
  · cases resolved

theorem IsCivil.isWhole_of_resolveMoment? (isCivil : fields.IsCivil) {moment : Moment}
    (resolved : fields.resolveMoment? = some moment) : moment.IsWhole := by
  have noTimestamp : fields.timestamp = none := by rw [isCivil.only]; rfl
  unfold resolveMoment? at resolved
  split at resolved
  · rename_i isDate isTime
    obtain ⟨-, same⟩ := Option.ite_none_right_eq_some.mp resolved
    cases same
    exact ⟨isCivil.isDay isDate, isCivil.isWhole isTime⟩
  · cases resolved
  · cases resolved
  · cases resolved
  · rename_i isTimestamp _ _ _
    cases noTimestamp.symm.trans isTimestamp

end DateFields

theorem midnight_isWhole : midnight.IsWhole := by decide

theorem isWhole_of_readMoment? {items : List PatternItem} (known : ∀ item ∈ items, item.isCivil)
    {text : String} {moment : Moment} (read : readMoment? items text = some moment) :
    moment.IsWhole := by
  obtain ⟨fields, readFields, resolved⟩ := Option.bind_eq_some_iff.mp read
  have isCivil : fields.IsCivil := by
    unfold readDateFields? at readFields
    split at readFields
    · rename_i matched
      cases readFields
      exact .matchItems? known .default matched
    · cases readFields
  split at resolved
  · rename_i found
    cases resolved
    exact isCivil.isWhole_of_resolveMoment? found
  · obtain ⟨date, isDate, rfl⟩ := Option.map_eq_some_iff.mp resolved
    refine ⟨isCivil.isDay ?_, midnight_isWhole⟩
    cases isResolved : fields.resolveDate with
    | error => simp [isResolved, Except.toOption] at isDate
    | ok => simpa [isResolved, Except.toOption] using isDate

/-- The usual patterns, read: a date with a time behind the letter T or behind blanks, and a
date alone. -/
theorem readPattern?_usual : usualDatePatterns.map (readPattern? ·.toList) =
    [some (separated '-' [.year, .month, .day] ++ .literal 'T' :: clock),
      some (separated '-' [.year, .month, .day] ++ .blanks :: clock),
      some (separated '-' [.year, .month, .day])] := by
  decide +kernel

theorem isWhole_of_readDateBy? {text pattern : String} (usual : pattern ∈ usualDatePatterns)
    {value : Value} (read : readDateBy? text pattern = some value) :
    ∃ moment : Moment, moment.IsWhole ∧ value = .date moment := by
  have civil : ∀ items? ∈ usualDatePatterns.map (readPattern? ·.toList),
      ∀ items ∈ items?, ∀ item ∈ items, item.isCivil := by
    rw [readPattern?_usual]
    decide
  obtain ⟨items, isPattern, isDate⟩ := Option.bind_eq_some_iff.mp read
  obtain ⟨moment, isMoment, rfl⟩ := Option.map_eq_some_iff.mp isDate
  exact ⟨moment, isWhole_of_readMoment?
    (civil _ (List.mem_map_of_mem usual) items isPattern) isMoment, rfl⟩

/-- What is read without a pattern is a day of the calendar and a time to the second. -/
theorem isWhole_of_readUsualDate {text : String} {value : Value}
    (read : readUsualDate text = .ok value) :
    ∃ moment : Moment, moment.IsWhole ∧ value = .date moment := by
  obtain ⟨pattern, usual, isDate⟩ :=
    List.exists_of_findSome?_eq_some (orUnreadable_eq_ok_iff.mp read)
  exact isWhole_of_readDateBy? usual isDate

section Padded

open Moment

variable (width number : Nat)

theorem toList_padded : (padded width number).toList =
    List.replicate (width - (decimalDigits number).length) '0' ++ decimalDigits number :=
  String.toList_ofList

theorem isDigits_padded : IsDigits (padded width number).toList := by
  rw [toList_padded]
  refine ⟨List.append_ne_nil_of_right_ne_nil _ (decimalDigits_ne_nil number), ?_⟩
  intro character member
  rcases List.mem_append.mp member with zero | digit
  · rw [List.eq_of_mem_replicate zero]
    rfl
  · exact decimalDigits_isDigit number character digit

theorem decimalValue_padded : decimalValue (padded width number).toList = number := by
  have zeros (count : Nat) : decimalValue (List.replicate count '0') = 0 :=
    Nat.ofDigitChars_replicate_zero.trans (Nat.mul_zero _)
  rw [toList_padded, decimalValue_append, zeros, decimalValue_decimalDigits, Nat.zero_mul,
    Nat.zero_add]

variable {width number}

theorem length_padded (nonempty : 0 < width) (fits : number < 10 ^ width) :
    (padded width number).toList.length = width := by
  have shorter : (decimalDigits number).length ≤ width :=
    (Nat.length_toDigits_le_iff (by decide) nonempty).mpr fits
  rw [toList_padded, List.length_append, List.length_replicate]
  omega

theorem toList_yearText (year : Int) : (yearText year).toList =
    if 0 ≤ year ∧ year ≤ 9999 then (padded 4 year.toNat).toList
    else (if year < 0 then '-' else '+') :: (padded 4 year.natAbs).toList := by
  unfold yearText
  split
  · rfl
  · split <;> simp

end Padded

section Reading

variable {digits following : List Char}

/-- Digits are read together if the width is reached, or if there is no width and no digit
follows. -/
theorem readDigits?_append {width : Option Nat} (isDigits : IsDigits digits)
    (ends : width = some digits.length ∨
      width = none ∧ startsWith Char.isDigit following = false) :
    readDigits? width (digits ++ following) = some (digits, following) := by
  obtain ⟨nonempty, areDigits⟩ := isDigits
  rcases ends with rfl | ⟨rfl, stops⟩
  · simp [readDigits?, List.takeWhile_append_of_pos areDigits, nonempty]
  · obtain ⟨taken, -⟩ := takeWhile_append_of_startsWith areDigits stops
    simp [readDigits?, taken, nonempty]

theorem readNumber?_append {width : Option Nat} (isDigits : IsDigits digits)
    (ends : width = some digits.length ∨
      width = none ∧ startsWith Char.isDigit following = false)
    (small : decimalValue digits < 10 ^ 18) :
    readNumber? width (digits ++ following) = some (↑(decimalValue digits), following) := by
  have fits : fitsWord 64 (decimalValue digits) := by
    rw [fitsWord_64]
    omega
  rw [readNumber?, readDigits?_append isDigits ends, Option.bind_some]
  -- Rewriting, unlike `simp`, leaves the bounds of a word alone.
  dsimp only
  rw [fits]
  rfl

theorem isWhiteSpace_of_isDigit {character : Char} (digit : character.isDigit) :
    isWhiteSpace character = false := by
  obtain ⟨low, high⟩ := Char.isDigit_iff_toNat.mp digit
  change 48 ≤ character.toNat at low
  change character.toNat ≤ 57 at high
  simp [isWhiteSpace]
  omega

namespace DateNumber

/-- A number without a sign is read up to its width. -/
theorem read?_append {kind : DateNumber} (isDigits : IsDigits digits)
    (ends : kind.width? = some digits.length) (small : decimalValue digits < 10 ^ 18)
    (following : List Char) :
    kind.read? (digits ++ following) = some (↑(decimalValue digits), following) := by
  have read : readNumber? kind.width? (digits ++ following) = _ :=
    readNumber?_append isDigits (.inl ends) small
  obtain ⟨first, others, rfl⟩ := List.exists_cons_of_ne_nil isDigits.1
  have digit : first.isDigit := isDigits.2 first List.mem_cons_self
  have shown : dropWhiteSpace (first :: others ++ following) = first :: others ++ following :=
    List.dropWhile_cons_of_neg (by simp [isWhiteSpace_of_isDigit digit])
  unfold read?
  rw [shown]
  split
  · rename_i same
    cases (List.cons.inj same).1
    cases digit
  · rename_i same
    cases (List.cons.inj same).1
    cases digit
  · exact read

theorem read?_padded {kind : DateNumber} {width number : Nat} (isWidth : kind.width? = some width)
    (nonempty : 0 < width) (narrow : width ≤ 18) (fits : number < 10 ^ width)
    (following : List Char) :
    kind.read? ((Moment.padded width number).toList ++ following) = some (↑number, following) := by
  have ends : kind.width? = some (Moment.padded width number).toList.length := by
    rw [isWidth, length_padded nonempty fits]
  have small : decimalValue (Moment.padded width number).toList < 10 ^ 18 := by
    rw [decimalValue_padded]
    exact fits.trans_le (Nat.pow_le_pow_right (by decide) narrow)
  rw [read?_append (isDigits_padded width number) ends small, decimalValue_padded]

/-- A year is read with its sign, if it has one, and then to its last digit. -/
theorem read?_yearText {year : Int} (small : year.natAbs < 10 ^ 18)
    (stops : startsWith Char.isDigit following = false) :
    DateNumber.year.read? ((Moment.yearText year).toList ++ following) =
      some (year, following) := by
  have read : readNumber? none ((Moment.padded 4 year.natAbs).toList ++ following) =
      some (↑year.natAbs, following) := by
    rw [readNumber?_append (isDigits_padded 4 year.natAbs) (.inr ⟨rfl, stops⟩)
      (by rwa [decimalValue_padded]), decimalValue_padded]
  have minus (text : List Char) : DateNumber.year.read? ('-' :: text) =
      (readNumber? none text).map fun read => (-read.1, read.2) := rfl
  have plus (text : List Char) : DateNumber.year.read? ('+' :: text) = readNumber? none text :=
    rfl
  rw [toList_yearText]
  by_cases unsigned : 0 ≤ year ∧ year ≤ 9999
  · rw [if_pos unsigned, read?_padded rfl (by decide) (by decide) (by omega),
      Int.toNat_of_nonneg unsigned.1]
  · rw [if_neg unsigned]
    by_cases negative : year < 0
    · have restored : -(year.natAbs : Int) = year := by omega
      rw [if_pos negative, List.cons_append, minus, read]
      simp only [Option.map_some, restored]
    · have restored : (year.natAbs : Int) = year := by omega
      rw [if_neg negative, List.cons_append, plus, read, restored]

end DateNumber

end Reading

namespace DateFields

variable {fields next : DateFields} {items : List PatternItem} {text rest : List Char}

theorem matchItems?_number {kind : DateNumber} {number : Int}
    (read : kind.read? text = some (number, rest))
    (set : fields.setNumber? kind number = some next) :
    fields.matchItems? (.number kind :: items) text = next.matchItems? items rest := by
  simp [matchItems?, matchItem?, matchNumber?, read, set]

theorem matchItems?_literal (character : Char) :
    fields.matchItems? (.literal character :: items) (character :: rest) =
      fields.matchItems? items rest := by
  simp [matchItems?, matchItem?, matchLiteral?]

section Set

variable {year : Option Int} {month day dayHalf hourOfHalf minute second : Option Nat}

theorem setNumber?_year {number : Int} (fits : fitsWord 32 number) :
    (civil none month day dayHalf hourOfHalf minute second).setNumber? .year number =
      some (civil (some number) month day dayHalf hourOfHalf minute second) :=
  if_pos fits

theorem setNumber?_month {number : Nat} (inYear : 1 ≤ number ∧ number ≤ 12) :
    (civil year none day dayHalf hourOfHalf minute second).setNumber? .month number =
      some (civil year (some number) day dayHalf hourOfHalf minute second) :=
  if_pos (isBetween_iff.mpr (by omega))

theorem setNumber?_day {number : Nat} (inMonth : 1 ≤ number ∧ number ≤ 31) :
    (civil year month none dayHalf hourOfHalf minute second).setNumber? .day number =
      some (civil year month (some number) dayHalf hourOfHalf minute second) :=
  if_pos (isBetween_iff.mpr (by omega))

theorem setNumber?_hour {number : Nat} (inDay : number < 24) :
    (civil year month day none none minute second).setNumber? .hour number =
      some (civil year month day (some (number / 12)) (some (number % 12)) minute second) :=
  (if_pos (isBetween_iff.mpr (by omega))).trans (if_pos inDay)

theorem setNumber?_minute {number : Nat} (inHour : number < 60) :
    (civil year month day dayHalf hourOfHalf none second).setNumber? .minute number =
      some (civil year month day dayHalf hourOfHalf (some number) second) :=
  if_pos (isBetween_iff.mpr (by omega))

theorem setNumber?_second {number : Nat} (inMinute : number ≤ 60) :
    (civil year month day dayHalf hourOfHalf minute none).setNumber? .second number =
      some (civil year month day dayHalf hourOfHalf minute (some number)) :=
  if_pos (isBetween_iff.mpr (by omega))

end Set

end DateFields

namespace Moment

open DateFields

/-- The second as it is written; that of a leap second is sixty. -/
def writtenSecond (moment : Moment) : Nat :=
  moment.time.second + moment.time.nanosecond / 1000000000

/-- What the text of a moment says. -/
def fields (moment : Moment) : DateFields :=
  .civil (some moment.date.year) (some moment.date.month) (some moment.date.day)
    (some (moment.time.hour / 12)) (some (moment.time.hour % 12)) (some moment.time.minute)
    (some moment.writtenSecond)

theorem toList_text (moment : Moment) : moment.text.toList =
    (yearText moment.date.year).toList ++
      '-' :: ((padded 2 moment.date.month).toList ++
        '-' :: ((padded 2 moment.date.day).toList ++
          'T' :: ((padded 2 moment.time.hour).toList ++
            ':' :: ((padded 2 moment.time.minute).toList ++
              ':' :: (padded 2 moment.writtenSecond).toList)))) := by
  simp [text, writtenSecond]

variable {moment : Moment}

theorem IsWhole.writtenSecond_le (isWhole : moment.IsWhole) : moment.writtenSecond ≤ 60 := by
  obtain ⟨-, -, ⟨inMinute, noFraction⟩ | ⟨second, leap⟩⟩ := isWhole
  · simp only [writtenSecond, noFraction]
    omega
  · simp [writtenSecond, second, leap]

/-- The text of a moment fits the first of the usual patterns. -/
theorem IsWhole.readDateFields?_text (isWhole : moment.IsWhole) :
    readDateFields? (separated '-' [.year, .month, .day] ++ .literal 'T' :: clock)
      moment.text.toList = some moment.fields := by
  have inMinute := isWhole.writtenSecond_le
  have inMonth := isWhole.1.day_le
  obtain ⟨⟨⟨notBefore, notAfter⟩, inYear, firstDay, -⟩, ⟨inDay, inHour⟩, -⟩ := isWhole
  have years : -262143 ≤ moment.date.year ∧ moment.date.year ≤ 262142 := ⟨notBefore, notAfter⟩
  have fits : fitsWord 32 moment.date.year := by
    rw [fitsWord_iff, IsWord]
    omega
  have read {kind : DateNumber} (isWidth : kind.width? = some 2) {number : Nat}
      (small : number ≤ 60) (following : List Char) :
      kind.read? ((padded 2 number).toList ++ following) = some (↑number, following) :=
    DateNumber.read?_padded isWidth (by decide) (by decide) (by omega) following
  have matched : (default : DateFields).matchItems?
      (separated '-' [.year, .month, .day] ++ .literal 'T' :: clock) moment.text.toList =
        some (moment.fields, []) := by
    rw [toList_text]
    refine (matchItems?_number (DateNumber.read?_yearText (by omega) rfl)
      (setNumber?_year fits)).trans ((matchItems?_literal _).trans ?_)
    refine (matchItems?_number (read rfl (by omega) _)
      (setNumber?_month inYear)).trans ((matchItems?_literal _).trans ?_)
    refine (matchItems?_number (read rfl (by omega) _)
      (setNumber?_day ⟨firstDay, inMonth⟩)).trans ((matchItems?_literal _).trans ?_)
    refine (matchItems?_number (read rfl (by omega) _)
      (setNumber?_hour inDay)).trans ((matchItems?_literal _).trans ?_)
    refine (matchItems?_number (read rfl (by omega) _)
      (setNumber?_minute inHour)).trans ((matchItems?_literal _).trans ?_)
    refine (matchItems?_number (List.append_nil _ ▸ read rfl inMinute [])
      (setNumber?_second inMinute)).trans ?_
    rfl
  rw [readDateFields?, matched]

theorem IsWhole.resolveMoment?_fields (isWhole : moment.IsWhole) :
    moment.fields.resolveMoment? = some moment := by
  have isDate : moment.fields.resolveDate = .ok moment.date := by
    rw [fields, resolveDate_civil]
    simp only [CalendarDate.ofMonthDay?_eq_some_iff.mpr ⟨rfl, isWhole.1⟩, orContradictory]
  have isTime : moment.fields.resolveTime = .ok moment.time := by
    obtain ⟨date, hour, minute, second, nanosecond⟩ := moment
    have hours : hour / 12 * 12 + hour % 12 = hour := Nat.div_add_mod' hour 12
    obtain ⟨-, -, ⟨inMinute, rfl⟩ | ⟨rfl, rfl⟩⟩ := isWhole
    · have notLeap : second ≠ 60 := Nat.ne_of_lt inMinute
      simp [resolveTime, fields, civil, writtenSecond, hours, notLeap]
    · simp [resolveTime, fields, civil, writtenSecond, hours]
  have confirmed : moment.fields.confirmsTimestamp moment := rfl
  rw [resolveMoment?, isDate, isTime]
  exact if_pos confirmed

theorem IsWhole.readUsualDate_text (isWhole : moment.IsWhole) :
    readUsualDate moment.text = .ok (.date moment) := by
  have pattern : readPattern? "%Y-%m-%dT%H:%M:%S".toList = _ :=
    (List.cons.inj readPattern?_usual).1
  have read : readDateBy? moment.text "%Y-%m-%dT%H:%M:%S" = some (.date moment) := by
    rw [readDateBy?, pattern, Option.bind_some, readMoment?, isWhole.readDateFields?_text,
      Option.bind_some, isWhole.resolveMoment?_fields]
    rfl
  rw [readUsualDate, usualDatePatterns, List.findSome?_cons, read]
  rfl

end Moment

end Stencil
