import Mathlib.Data.List.DropRight
import Stencil.Source

/-!
# Positions between characters

The position of a byte offset that does not cut a character in two: its line counts the
line feeds before it, and its column the characters since the last one.
-/

namespace Stencil

/-- The characters before the line in which a text ends. -/
def beforeLine (before : List Char) : List Char :=
  before.rdropWhile (· ≠ '\n')

/-- The characters of the line in which a text ends. -/
def onLine (before : List Char) : List Char :=
  before.rtakeWhile (· ≠ '\n')

theorem beforeLine_append_onLine (before : List Char) :
    beforeLine before ++ onLine before = before :=
  List.rdropWhile_append_rtakeWhile

theorem byteLength_line (before : List Char) :
    byteLength (beforeLine before) + byteLength (onLine before) = byteLength before := by
  rw [← byteLength_append, beforeLine_append_onLine]

theorem beforeLine_concat (before : List Char) (character : Char) :
    beforeLine (before ++ [character]) =
      if character = '\n' then before ++ [character] else beforeLine before := by
  by_cases isFeed : character = '\n' <;> simp [beforeLine, isFeed]

theorem onLine_concat (before : List Char) (character : Char) :
    onLine (before ++ [character]) =
      if character = '\n' then [] else onLine before ++ [character] := by
  by_cases isFeed : character = '\n' <;> simp [onLine, isFeed]

theorem onLine_append (before : List Char) {inside : List Char} (noFeed : '\n' ∉ inside) :
    onLine (before ++ inside) = onLine before ++ inside := by
  induction inside using List.reverseRecOn with
  | nil => rw [List.append_nil, List.append_nil]
  | append_singleton inside character ih =>
      have ⟨earlier, here⟩ := not_or.mp (mt List.mem_append.mpr noFeed)
      have other : character ≠ '\n' := fun isFeed => here (List.mem_singleton.mpr isFeed.symm)
      rw [← List.append_assoc, onLine_concat, if_neg other, ih earlier, List.append_assoc]

namespace Place

/-- Walking over whole characters passes one after the other. -/
theorem walk_append (place : Place) (before after : List Char) :
    place.walk (byteLength before) (before ++ after) = before.foldl Place.after place := by
  induction before generalizing place with
  | nil => cases after <;> rfl
  | cons character before ih =>
      have positive := character.utf8Size_pos
      rw [List.cons_append, byteLength_cons, walk, if_neg (by omega), if_neg (by omega),
        Nat.add_sub_cancel_left, ih]
      rfl

/-- Walking into a character passes over those before it. -/
theorem walk_inside {character : Char} {bytes : Nat} (positive : 0 < bytes)
    (notAll : bytes < character.utf8Size) (place : Place) (before rest : List Char) :
    place.walk (byteLength before + bytes) (before ++ character :: rest) =
      let reached := before.foldl Place.after place
      ⟨reached.line, reached.bytesIntoLine + bytes + 1, reached.bytesIntoLine + bytes⟩ := by
  induction before generalizing place with
  | nil =>
      rw [byteLength_nil, Nat.zero_add, List.nil_append, walk, if_neg (by omega), if_pos notAll]
      rfl
  | cons first before ih =>
      have := first.utf8Size_pos
      rw [byteLength_cons, List.cons_append, walk, if_neg (by omega), if_neg (by omega),
        Nat.add_assoc, Nat.add_sub_cancel_left, ih]
      rfl

theorem foldl_after (before : List Char) :
    before.foldl Place.after origin =
      ⟨1 + before.count '\n', 1 + (onLine before).length, byteLength (onLine before)⟩ := by
  induction before using List.reverseRecOn with
  | nil => rfl
  | append_singleton before character ih =>
      rw [List.foldl_append, ih, onLine_concat, List.count_append]
      by_cases isFeed : character = '\n'
      · simp [Place.after, isFeed, Nat.add_assoc]
      · simp [Place.after, isFeed, Nat.add_assoc]

end Place

namespace Source

variable {source : Source} {before after : List Char}

theorem positionAt_boundary (split : source.characters = before ++ after) :
    source.positionAt (byteLength before) =
      ⟨1 + before.count '\n', 1 + (onLine before).length, byteLength before⟩ := by
  have within : byteLength before ≤ source.byteSize := by
    rw [byteSize, split, byteLength_append]
    omega
  simp only [positionAt, Nat.min_eq_left within, split, Place.walk_append, Place.foldl_after]

theorem positionAt_byteLength (split : source.characters = before ++ after) :
    source.positionAt (byteLength before) =
      ⟨1 + before.count '\n', 1 + (before.reverse.takeWhile (· ≠ '\n')).length,
        byteLength before⟩ := by
  rw [positionAt_boundary split, onLine, List.rtakeWhile, List.length_reverse]

theorem positionAt_zero (source : Source) : source.positionAt 0 = ⟨1, 1, 0⟩ :=
  positionAt_byteLength (show source.characters = [] ++ source.characters from rfl)

end Source

end Stencil
