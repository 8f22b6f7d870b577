import Mathlib.Data.String.Basic
import Mathlib.Tactic.SplitIfs
import Stencil.SortedNames

/-!
# The order of names

Names are compared character by character.  That is also the order of their bytes in
UTF-8, where the greater of two characters has the greater bytes.  So sorted names are
strictly increasing in either order.
-/

namespace Stencil

/-- Of two numbers, the smaller one has the smaller leading digits, or else the same
ones and the smaller last digit. -/
theorem div_lt_or_mod_lt {first second : Nat} (base : Nat) (less : first < second) :
    first / base < second / base ∨
      (first / base = second / base ∧ first % base < second % base) := by
  rcases Nat.lt_or_eq_of_le (Nat.div_le_div_right (c := base) less.le) with lead | lead
  · exact .inl lead
  · refine .inr ⟨lead, ?_⟩
    have firstParts := Nat.div_add_mod first base
    have secondParts := Nat.div_add_mod second base
    rw [lead] at firstParts
    omega

theorem cons_ofNat_lt {first second : Nat} (less : first < second) (fits : second < 2 ^ 8)
    (rest others : List UInt8) :
    UInt8.ofNat first :: rest < UInt8.ofNat second :: others := by
  apply List.cons_lt_cons_iff.mpr
  left
  rw [UInt8.lt_iff_toNat_lt, UInt8.toNat_ofNat', UInt8.toNat_ofNat']
  omega

/-- The last `count` digits of a number in base 64, each marked as the continuation of
a character. -/
def continuationBytes : Nat → Nat → List UInt8
  | 0, _ => []
  | count + 1, number =>
      continuationBytes count (number / 64) ++ [UInt8.ofNat (number % 64 + 128)]

theorem continuationBytes_lt {count first second : Nat}
    (same : first / 64 ^ count = second / 64 ^ count) (less : first < second)
    (rest others : List UInt8) :
    continuationBytes count first ++ rest < continuationBytes count second ++ others := by
  induction count generalizing first second rest others with
  | zero =>
      rw [Nat.pow_zero, Nat.div_one, Nat.div_one] at same
      omega
  | succ count ih =>
      simp only [continuationBytes, List.append_assoc]
      rcases div_lt_or_mod_lt 64 less with lead | ⟨lead, last⟩
      · rw [Nat.pow_succ', ← Nat.div_div_eq_div_mul, ← Nat.div_div_eq_div_mul] at same
        exact ih same lead _ _
      · rw [lead]
        exact List.append_left_lt (cons_ofNat_lt (by omega) (by omega) _ _)

/-- A code point as its leading digits with a mark, and its last digits. -/
def markedBytes (mark count number : Nat) : List UInt8 :=
  UInt8.ofNat (number / 64 ^ count + mark) :: continuationBytes count number

theorem markedBytes_lt {mark count first second : Nat}
    (fits : second / 64 ^ count + mark < 2 ^ 8) (less : first < second)
    (rest others : List UInt8) :
    markedBytes mark count first ++ rest < markedBytes mark count second ++ others := by
  unfold markedBytes
  rcases Nat.lt_or_eq_of_le (Nat.div_le_div_right (c := 64 ^ count) less.le) with
    lead | lead
  · exact cons_ofNat_lt (by omega) fits _ _
  · rw [lead, List.cons_append, List.cons_append]
    exact List.cons_lt_cons_iff.mpr (.inr ⟨rfl, continuationBytes_lt lead less rest others⟩)

theorem val_toNat_lt (character : Char) : character.val.toNat < 0x110000 := by
  have valid := character.valid
  simp only [UInt32.isValidChar, Nat.isValidChar] at valid
  omega

theorem utf8EncodeChar_eq (character : Char) :
    String.utf8EncodeChar character =
      if character.val.toNat ≤ 0x7f then markedBytes 0 0 character.val.toNat
      else if character.val.toNat ≤ 0x7ff then markedBytes 192 1 character.val.toNat
      else if character.val.toNat ≤ 0xffff then markedBytes 224 2 character.val.toNat
      else markedBytes 240 3 character.val.toNat := by
  have bound := val_toNat_lt character
  simp only [String.utf8EncodeChar, markedBytes, continuationBytes]
  generalize character.val.toNat = code at *
  split_ifs <;> simp [Nat.div_div_eq_div_mul] <;> congr 1 <;> omega

/-- The bytes of the smaller of two characters come first, whatever follows them. -/
theorem utf8EncodeChar_append_lt {first second : Char} (less : first < second)
    (rest others : List UInt8) :
    String.utf8EncodeChar first ++ rest < String.utf8EncodeChar second ++ others := by
  have codes : first.val.toNat < second.val.toNat := less
  have bound := val_toNat_lt second
  rw [utf8EncodeChar_eq, utf8EncodeChar_eq]
  -- Of unequal numbers of bytes, the leading bytes decide.
  split_ifs <;> first
    | exact markedBytes_lt (by omega) codes rest others
    | exact cons_ofNat_lt (by omega) (by omega) _ _

/-- The bytes of a name in UTF-8. -/
def nameBytes (name : String) : List UInt8 :=
  name.toUTF8.data.toList

theorem nameBytes_eq (name : String) :
    nameBytes name = name.toList.flatMap String.utf8EncodeChar := by
  rw [nameBytes, String.toUTF8_eq_toByteArray, ← String.utf8Encode_toList,
    List.utf8Encode, List.toList_data_toByteArray]

theorem flatMap_utf8EncodeChar_lt {characters others : List Char}
    (less : characters < others) :
    characters.flatMap String.utf8EncodeChar < others.flatMap String.utf8EncodeChar := by
  induction characters generalizing others with
  | nil =>
      cases others with
      | nil => exact absurd less (List.lt_irrefl [])
      | cons other others =>
          rw [List.flatMap_nil, List.flatMap_cons, utf8EncodeChar_eq]
          split_ifs <;> exact List.nil_lt_cons _ _
  | cons character characters ih =>
      cases others with
      | nil => exact absurd less (List.not_lt_nil _)
      | cons other others =>
          rw [List.flatMap_cons, List.flatMap_cons]
          rcases List.cons_lt_cons_iff.mp less with below | ⟨rfl, below⟩
          · exact utf8EncodeChar_append_lt below _ _
          · exact List.append_left_lt (ih below)

/-- Names are in the order of their bytes. -/
theorem nameBytes_lt {first second : String} (less : first < second) :
    nameBytes first < nameBytes second := by
  rw [nameBytes_eq, nameBytes_eq]
  exact flatMap_utf8EncodeChar_lt (String.lt_iff_toList_lt.mp less)

theorem mem_sortedNames {names : List String} {name : String} :
    name ∈ sortedNames names ↔ name ∈ names := by
  rw [sortedNames, List.mem_eraseDups, List.mem_mergeSort]

/-- Without its duplicates, an increasing list is strictly increasing. -/
theorem pairwise_lt_eraseDups {names : List String} (increasing : names.Pairwise (· ≤ ·)) :
    names.eraseDups.Pairwise (· < ·) := by
  match names, increasing with
  | [], _ => exact List.Pairwise.nil
  | name :: others, increasing =>
      obtain ⟨least, othersIncreasing⟩ := List.pairwise_cons.mp increasing
      rw [List.eraseDups_cons]
      refine List.pairwise_cons.mpr
        ⟨?_, pairwise_lt_eraseDups (othersIncreasing.filter _)⟩
      intro other member
      obtain ⟨known, apart⟩ := List.mem_filter.mp (List.mem_eraseDups.mp member)
      refine lt_of_le_of_ne (least other known) ?_
      rintro rfl
      simp at apart
termination_by names.length
decreasing_by exact Nat.lt_succ_of_le (List.length_filter_le _ _)

theorem sortedNames_pairwise_lt (names : List String) :
    (sortedNames names).Pairwise (· < ·) := by
  apply pairwise_lt_eraseDups
  have transitive (first second third : String) (le : decide (first ≤ second) = true)
      (further : decide (second ≤ third) = true) : decide (first ≤ third) = true :=
    decide_eq_true (le_trans (of_decide_eq_true le) (of_decide_eq_true further))
  have total (first second : String) :
      (decide (first ≤ second) || decide (second ≤ first)) = true := by
    simpa using le_total first second
  exact (List.pairwise_mergeSort transitive total names).imp of_decide_eq_true

/-- Sorted names are strictly increasing in their bytes, so that each occurs once. -/
theorem sortedNames_increasing (names : List String) :
    (sortedNames names).Pairwise fun first second => nameBytes first < nameBytes second :=
  (sortedNames_pairwise_lt names).imp nameBytes_lt

end Stencil
