import Mathlib.Data.Nat.Digits.Defs
import Stencil.Macro.Builtin
import Stencil.Proofs.WrittenNumbers

/-!
# Reading integers

The macros for integers read a sign that may be absent and at least one decimal digit, whatever
the number of digits.  What the digits denote has to fit into a word of sixty-four bits, or of
thirty-two bits, and nothing is cut off or wrapped around to make it fit.
-/

namespace Stencil

/-- A text spells an integer: a sign that may be absent and at least one decimal digit.  The
last digit counts ones, the one before it tens, and so on. -/
def SpellsInteger (text : List Char) (integer : Int) : Prop :=
  ∃ sign digits, IsSign ['+', '-'] sign ∧ IsDigits digits ∧ text = sign ++ digits ∧
    integer = signedInteger (sign = ['-']) (Nat.ofDigits 10 (digits.reverse.map digitValue))

/-- An integer of a two's complement word. -/
def IsWord (width : Nat) (integer : Int) : Prop :=
  -2 ^ (width - 1) ≤ integer ∧ integer ≤ 2 ^ (width - 1) - 1

theorem decimalValue_eq_ofDigits (digits : List Char) :
    decimalValue digits = Nat.ofDigits 10 (digits.reverse.map digitValue) := by
  induction digits using List.reverseRecOn with
  | nil => rfl
  | append_singleton digits digit ih =>
      have last : decimalValue [digit] = digitValue digit := Nat.zero_add _
      rw [decimalValue_append, ih, last, List.reverse_concat, List.map_cons, Nat.ofDigits_cons,
        List.length_singleton, pow_one, Nat.mul_comm, Nat.add_comm]

theorem fitsWord_iff (width : Nat) (integer : Int) :
    fitsWord width integer ↔ IsWord width integer := by
  rw [fitsWord, Bool.and_eq_true, decide_eq_true_eq, decide_eq_true_eq, IsWord,
    Int.le_sub_one_iff]
  norm_cast

/-- An integer that fits into a narrower word fits into a wider one. -/
theorem IsWord.mono {narrow wide : Nat} {integer : Int} (le : narrow ≤ wide)
    (isWord : IsWord narrow integer) : IsWord wide integer := by
  have powers : (2 : Int) ^ (narrow - 1) ≤ 2 ^ (wide - 1) :=
    pow_le_pow_right₀ (by decide) (Nat.sub_le_sub_right le 1)
  unfold IsWord at *
  omega

/-- What is split off a text is its sign. -/
theorem exists_splitSign (text : List Char) :
    ∃ sign, IsSign ['+', '-'] sign ∧ text = sign ++ (splitSign text).2 ∧
      (splitSign text).1 = decide (sign = ['-']) := by
  fun_cases splitSign text with
  | case1 rest => exact ⟨['-'], .inr ⟨'-', by simp, rfl⟩, rfl, rfl⟩
  | case2 rest => exact ⟨['+'], .inr ⟨'+', by simp, rfl⟩, rfl, rfl⟩
  | case3 => exact ⟨[], .inl rfl, rfl, rfl⟩

theorem readInteger?_eq_some_iff {text : List Char} {integer : Int} :
    readInteger? text = some integer ↔ SpellsInteger text integer := by
  constructor
  · intro read
    obtain ⟨sign, isSign, split, isNegative⟩ := exists_splitSign text
    obtain ⟨⟨nonempty, areDigits⟩, isInteger⟩ := Option.ite_none_right_eq_some.mp read
    refine ⟨sign, (splitSign text).2, isSign,
      ⟨nonempty, List.all_eq_true.mp areDigits⟩, split, ?_⟩
    rw [← decimalValue_eq_ofDigits, ← isNegative]
    exact (Option.some.inj isInteger).symm
  · rintro ⟨sign, digits, isSign, isDigits, rfl, rfl⟩
    rw [readInteger?_signed isSign isDigits, decimalValue_eq_ofDigits]

/-- Of the words of up to sixty-four bits those are read that are spelled. -/
theorem readWord?_eq_some_iff {width : Nat} (narrow : width ≤ 64) {text : List Char}
    {number : Int64} : readWord? width text = some number ↔
      SpellsInteger text number.toInt ∧ IsWord width number.toInt := by
  have word {integer : Int} (isWord : IsWord width integer) :
      (Int64.ofInt integer).toInt = integer := by
    obtain ⟨low, high⟩ := isWord.mono narrow
    exact Int64.toInt_ofInt_of_le low (by omega)
  simp only [readWord?, Option.bind_eq_some_iff, Option.ite_none_right_eq_some,
    readInteger?_eq_some_iff, fitsWord_iff, Option.some.injEq]
  constructor
  · rintro ⟨integer, spelled, isWord, rfl⟩
    rw [word isWord]
    exact ⟨spelled, isWord⟩
  · rintro ⟨spelled, isWord⟩
    exact ⟨number.toInt, spelled, isWord, Int64.ofInt_toInt number⟩

example : readWord? 32 "-0002147483648".toList = some (-2147483648) ∧
    readWord? 32 "+2147483648".toList = none := by decide +kernel

theorem readWord?_eq_none_iff {width : Nat} {text : List Char} :
    readWord? width text = none ↔
      ∀ integer, SpellsInteger text integer → ¬ IsWord width integer := by
  simp [readWord?, Option.bind_eq_none_iff, readInteger?_eq_some_iff, fitsWord_iff]

section Macros

variable {width : Nat} {text : String}

theorem readInteger_eq_ok_iff {number : Int64} :
    Builtin.readInteger width text = .ok (.integer number) ↔
      readWord? width text.toList = some number := by
  simp [Builtin.readInteger, Builtin.orUnreadable_eq_ok_iff]

theorem readInteger_eq_error_iff :
    Builtin.readInteger width text =
        .error (.unreadable text ("a " ++ toString width ++ "-bit integer")) ↔
      readWord? width text.toList = none :=
  Builtin.orUnreadable_eq_error_iff.trans Option.map_eq_none_iff

end Macros

/-- The macro `long` gives the integer that the text of its argument spells, and an error if
there is none of sixty-four bits.  The macro `int` gives the same integer if it has thirty-two
bits, and otherwise an error.  Every integer is read from its own text. -/
theorem integers_read (value : Value) :
    (∀ number, Builtin.long.toMacro.apply [value] = .ok (.integer number) ↔
      SpellsInteger value.text.toList number.toInt ∧ IsWord 64 number.toInt) ∧
    (Builtin.long.toMacro.apply [value] = .error (.unreadable value.text "a 64-bit integer") ↔
      ∀ integer, SpellsInteger value.text.toList integer → ¬ IsWord 64 integer) ∧
    (∀ number, Builtin.int.toMacro.apply [value] = .ok (.integer number) ↔
      Builtin.long.toMacro.apply [value] = .ok (.integer number) ∧ IsWord 32 number.toInt) ∧
    (Builtin.int.toMacro.apply [value] = .error (.unreadable value.text "a 32-bit integer") ↔
      ∀ number, Builtin.int.toMacro.apply [value] ≠ .ok (.integer number)) ∧
    ∀ number, Builtin.long.toMacro.apply [.integer number] = .ok (.integer number) := by
  have reads (width : Nat) (narrow : width ≤ 64) (number : Int64) :
      Builtin.readInteger width value.text = .ok (.integer number) ↔
        SpellsInteger value.text.toList number.toInt ∧ IsWord width number.toInt :=
    readInteger_eq_ok_iff.trans (readWord?_eq_some_iff narrow)
  refine ⟨reads 64 le_rfl, readInteger_eq_error_iff.trans readWord?_eq_none_iff,
    fun number => ?_, ?_, fun number => ?_⟩
  · refine (reads 32 (by decide) number).trans
      ⟨fun ⟨spelled, isWord⟩ => ⟨(reads 64 le_rfl number).mpr ⟨spelled, ?_⟩, isWord⟩,
        fun ⟨read, isWord⟩ => ⟨((reads 64 le_rfl number).mp read).1, isWord⟩⟩
    exact isWord.mono (by decide)
  · refine readInteger_eq_error_iff.trans (Option.eq_none_iff_forall_ne_some.trans ?_)
    exact forall_congr' fun number => not_congr readInteger_eq_ok_iff.symm
  · exact readInteger_eq_ok_iff.mpr (readWord?_integerText number)

end Stencil
