import Mathlib.Data.List.Infix
import Stencil.Macro.Builtin

/-!
# Parts between delimiters

A text is cut at its leftmost delimiters, one behind the other without overlaps, and nothing
but the delimiters is lost.  Its parts are the only ones that can be joined to the text by
delimiters so that each delimiter stands as far to the left as it can.
-/

namespace Stencil

/-- A delimiter stands at a place of a text, and at no earlier one. -/
structure StandsFirstAt (delimiter text : List Char) (place : Nat) : Prop where
  here : delimiter <+: text.drop place
  notEarlier : ∀ earlier < place, ¬ delimiter <+: text.drop earlier

/-- The parts of a text between its leftmost delimiters. -/
structure CutInto (delimiter text : List Char) (parts : List (List Char)) : Prop where
  nonempty : parts ≠ []
  joined : delimiter.intercalate parts = text
  /-- Behind each part comes the first delimiter there is from the start of the part on. -/
  leftmost : ∀ part ∈ parts.dropLast, StandsFirstAt delimiter (part ++ delimiter) part.length
  noneLeft : ∀ last ∈ parts.getLast?, ¬ delimiter <:+: last

variable {delimiter text part : List Char} {parts : List (List Char)}

theorem standsFirstAt_part_iff :
    StandsFirstAt delimiter (part ++ delimiter) part.length ↔
      ∀ earlier < part.length, ¬ delimiter <+: (part ++ delimiter).drop earlier :=
  ⟨StandsFirstAt.notEarlier, fun notEarlier => ⟨by rw [List.drop_left], notEarlier⟩⟩

/-- Whether a delimiter begins within a part does not depend on what comes behind the
delimiter at its end. -/
theorem prefix_drop_part_iff {place : Nat} (within : place ≤ part.length) (rest : List Char) :
    delimiter <+: (part ++ (delimiter ++ rest)).drop place ↔
      delimiter <+: (part ++ delimiter).drop place := by
  have long : delimiter.length ≤ ((part ++ delimiter).drop place).length := by
    rw [List.length_drop, List.length_append]
    omega
  rw [← List.append_assoc, List.drop_append_of_le_length
    (within.trans (part.length_append.symm ▸ Nat.le_add_right _ _))]
  exact ⟨fun stands => List.prefix_of_prefix_length_le stands (List.prefix_append _ _) long,
    fun stands => stands.trans (List.prefix_append _ _)⟩

/-- Where one part ends with the first delimiter, no part of the same text ends earlier. -/
theorem length_le_of_standsFirstAt {other rest otherRest : List Char}
    (first : StandsFirstAt delimiter (part ++ delimiter) part.length)
    (same : part ++ (delimiter ++ rest) = other ++ (delimiter ++ otherRest)) :
    part.length ≤ other.length := by
  refine not_lt.mp fun below => first.notEarlier _ below ?_
  rw [← prefix_drop_part_iff below.le rest, same, List.drop_left]
  exact List.prefix_append _ _

namespace CutInto

theorem single_iff : CutInto delimiter text [part] ↔ text = part ∧ ¬ delimiter <:+: part := by
  constructor
  · intro cut
    exact ⟨by simpa using cut.joined.symm, cut.noneLeft part rfl⟩
  · rintro ⟨rfl, absent⟩
    exact ⟨List.cons_ne_nil _ _, by simp, nofun, by simpa using absent⟩

theorem cons_iff (nonempty : parts ≠ []) : CutInto delimiter text (part :: parts) ↔
    StandsFirstAt delimiter (part ++ delimiter) part.length ∧
      ∃ rest, text = part ++ (delimiter ++ rest) ∧ CutInto delimiter rest parts := by
  obtain ⟨second, others, rfl⟩ := List.exists_cons_of_ne_nil nonempty
  constructor
  · intro cut
    obtain ⟨first, leftmost⟩ := List.forall_mem_cons.mp cut.leftmost
    refine ⟨first, _, ?_, nonempty, rfl, leftmost, by simpa using cut.noneLeft⟩
    rw [← cut.joined, List.intercalate_cons_cons, List.append_assoc]
  · rintro ⟨first, rest, rfl, cut⟩
    refine ⟨List.cons_ne_nil _ _, ?_, List.forall_mem_cons.mpr ⟨first, cut.leftmost⟩,
      by simpa using cut.noneLeft⟩
    rw [List.intercalate_cons_cons, cut.joined, List.append_assoc]

/-- A text of several parts has a delimiter. -/
theorem isInfix (cut : CutInto delimiter text (part :: parts)) (more : parts ≠ []) :
    delimiter <:+: text := by
  obtain ⟨-, rest, rfl, -⟩ := (cons_iff more).mp cut
  exact ⟨part, rest, List.append_assoc _ _ _⟩

/-- A text has no other parts. -/
theorem unique {others : List (List Char)} (cut : CutInto delimiter text parts)
    (otherCut : CutInto delimiter text others) : others = parts := by
  induction parts generalizing text others with
  | nil => exact absurd rfl cut.nonempty
  | cons part parts ih =>
      obtain ⟨other, others, rfl⟩ := List.exists_cons_of_ne_nil otherCut.nonempty
      rcases eq_or_ne parts [] with rfl | more <;> rcases eq_or_ne others [] with rfl | otherMore
      · rw [single_iff] at cut otherCut
        rw [← cut.1, ← otherCut.1]
      · obtain ⟨rfl, absent⟩ := single_iff.mp cut
        exact absurd (otherCut.isInfix otherMore) absent
      · obtain ⟨rfl, absent⟩ := single_iff.mp otherCut
        exact absurd (cut.isInfix more) absent
      · obtain ⟨first, rest, isText, restCut⟩ := (cons_iff more).mp cut
        obtain ⟨otherFirst, otherRest, isOther, otherRestCut⟩ :=
          (cons_iff otherMore).mp otherCut
        have same := isText.symm.trans isOther
        have sameLength := Nat.le_antisymm (length_le_of_standsFirstAt first same)
          (length_le_of_standsFirstAt otherFirst same.symm)
        obtain ⟨rfl, restSame⟩ := List.append_inj same sameLength
        obtain rfl := List.append_cancel_left restSame
        rw [ih restCut otherRestCut]

/-- Where no delimiter begins, a character belongs to the part behind it. -/
theorem prepend {character : Char} (notHere : ¬ delimiter <+: character :: text)
    (cut : CutInto delimiter text parts) :
    CutInto delimiter (character :: text) (prependToFirst character parts) := by
  obtain ⟨part, parts, rfl⟩ := List.exists_cons_of_ne_nil cut.nonempty
  rw [prependToFirst]
  rcases eq_or_ne parts [] with rfl | more
  · obtain ⟨rfl, absent⟩ := single_iff.mp cut
    exact single_iff.mpr ⟨rfl, mt List.infix_cons_iff.mp (not_or.mpr ⟨notHere, absent⟩)⟩
  · obtain ⟨first, rest, rfl, restCut⟩ := (cons_iff more).mp cut
    refine (cons_iff more).mpr
      ⟨standsFirstAt_part_iff.mpr fun earlier below => ?_, rest, rfl, restCut⟩
    cases earlier with
    | zero => exact mt (prefix_drop_part_iff (Nat.zero_le _) rest).mpr notHere
    | succ earlier => exact first.notEarlier earlier (Nat.lt_of_succ_lt_succ below)

end CutInto

theorem cutInto_splitAtEach (first : Char) (others text : List Char) :
    CutInto (first :: others) text (splitAtEach first others text) := by
  fun_induction splitAtEach first others text with
  | case1 => exact CutInto.single_iff.mpr ⟨rfl, by simp⟩
  | case2 character rest here ih =>
      obtain ⟨rfl, begins⟩ := here
      have split : rest = others ++ rest.drop others.length :=
        List.prefix_iff_eq_append.mp (List.isPrefixOf_iff_prefix.mp begins) |>.symm
      exact (CutInto.cons_iff ih.nonempty).mpr
        ⟨standsFirstAt_part_iff.mpr nofun, _, congrArg (character :: ·) split, ih⟩
  | case3 character rest notHere ih =>
      refine ih.prepend fun begins => notHere ?_
      obtain ⟨same, begins⟩ := List.cons_prefix_cons.mp begins
      exact ⟨same.symm, List.isPrefixOf_iff_prefix.mpr begins⟩

/-- The macro `split` gives an array of strings.  They are the parts of the text between its
leftmost delimiters, and there are no other such parts; with an empty delimiter they are the
characters of the text. -/
theorem split_between_delimiters (value delimiter : Value) :
    ∃ parts : List String,
      Builtin.split.toMacro.apply [value, delimiter] = .ok (.array (parts.map Value.string)) ∧
        (delimiter.text ≠ "" →
          CutInto delimiter.text.toList value.text.toList (parts.map String.toList) ∧
            ∀ others, CutInto delimiter.text.toList value.text.toList others →
              others = parts.map String.toList) ∧
        (delimiter.text = "" →
          parts = value.text.toList.map Char.toString ∧ String.join parts = value.text) := by
  refine ⟨splitText delimiter.text value.text, rfl, fun nonempty => ?_, fun empty => ?_⟩
  · obtain ⟨first, others, isDelimiter⟩ :=
      List.exists_cons_of_ne_nil (mt String.toList_eq_nil_iff.mp nonempty)
    have cut := cutInto_splitAtEach first others value.text.toList
    have parts : (splitText delimiter.text value.text).map String.toList =
        splitAtEach first others value.text.toList := by
      simp [splitText, isDelimiter]
    rw [parts, isDelimiter]
    exact ⟨cut, fun _ => cut.unique⟩
  · have characters : splitText delimiter.text value.text =
        value.text.toList.map Char.toString := by
      rw [splitText, empty]
      rfl
    refine ⟨characters, String.toList_inj.mp ?_⟩
    simp [characters, List.flatMap_map]

/-- A delimiter that overlaps itself is found at its leftmost place only. -/
theorem split_between_delimiters_overlapping :
    Builtin.split.toMacro.apply [.string "aaa", .string "aa"] =
        .ok (.array [.string "", .string "a"]) ∧
      CutInto "aa".toList "aaa".toList ["".toList, "a".toList] := by
  obtain ⟨parts, isResult, cut, -⟩ := split_between_delimiters (.string "aaa") (.string "aa")
  have result : Builtin.split.toMacro.apply [.string "aaa", .string "aa"] =
      .ok (.array (["", "a"].map Value.string)) := by cbv
  have sameParts := Value.array.inj (Except.ok.inj (isResult.symm.trans result))
  obtain rfl := List.map_injective_iff.mpr (fun _ _ => Value.string.inj) sameParts
  exact ⟨result, (cut (by decide)).1⟩

end Stencil
