import Stencil.Proofs.Positions

/-!
# Line tables

The offsets at which the lines of a text begin make a table.  The line of an offset is found
in it by bisection, and the column from what stands between the beginning of that line and the
offset.  This gives the same position as walking over the text from its beginning.
-/

namespace Stencil

/-- The first index from `low` on that lacks a property, if the property is lost once and for
all before `high`. -/
def bisect (holds : Nat → Bool) (low high : Nat) : Nat :=
  if low < high then
    let middle := low + (high - low) / 2
    if holds middle then bisect holds (middle + 1) high else bisect holds low middle
  else
    low
termination_by high - low

theorem bisect_eq {holds : Nat → Bool} {low high point : Nat} (least : low ≤ point)
    (most : point ≤ high) (kept : ∀ index < point, holds index = true)
    (lost : ∀ index, point ≤ index → index < high → holds index = false) :
    bisect holds low high = point := by
  fun_induction bisect holds low high with
  | case1 low high inside middle isKept ih =>
      have early : middle < point := by
        apply Nat.lt_of_not_le
        intro late
        rw [lost middle late (by omega)] at isKept
        cases isKept
      exact ih early most lost
  | case2 low high inside middle isLost ih =>
      have late : point ≤ middle := by
        apply Nat.le_of_not_lt
        intro early
        exact isLost (kept middle early)
      exact ih least late fun index behind below => lost index behind (by omega)
  | case3 low high outside => omega

/-- The number of entries at the front of a list that pass a test. -/
def partitionPoint (test : Nat → Bool) (entries : List Nat) : Nat :=
  bisect (fun index => entries[index]?.any test) 0 entries.length

theorem partitionPoint_append {test : Nat → Bool} {front back : List Nat}
    (passes : ∀ entry ∈ front, test entry = true) (fails : ∀ entry ∈ back, test entry = false) :
    partitionPoint test (front ++ back) = front.length := by
  apply bisect_eq (Nat.zero_le _)
  · rw [List.length_append]
    exact Nat.le_add_right _ _
  · intro index inFront
    rw [List.getElem?_append_left inFront, List.getElem?_eq_getElem inFront]
    exact passes _ (List.getElem_mem inFront)
  · intro index behind below
    rw [List.length_append] at below
    have inBack : index - front.length < back.length := by omega
    rw [List.getElem?_append_right behind, List.getElem?_eq_getElem inBack]
    exact fails _ (List.getElem_mem inBack)

/-- The offsets behind the line feeds of characters that begin at `offset`. -/
def lineStartsFrom (offset : Nat) : List Char → List Nat
  | [] => []
  | character :: rest =>
      if character = '\n' then
        (offset + 1) :: lineStartsFrom (offset + 1) rest
      else
        lineStartsFrom (offset + character.utf8Size) rest

theorem lineStartsFrom_append (offset : Nat) (first second : List Char) :
    lineStartsFrom offset (first ++ second) =
      lineStartsFrom offset first ++ lineStartsFrom (offset + byteLength first) second := by
  have ascii : '\n'.utf8Size = 1 := by decide
  induction first generalizing offset with
  | nil => rfl
  | cons character first ih =>
      rw [List.cons_append, lineStartsFrom, lineStartsFrom, byteLength_cons, ← Nat.add_assoc]
      split
      · rename_i isFeed
        rw [isFeed, ascii, ih, List.cons_append]
      · rw [ih]

theorem length_lineStartsFrom (offset : Nat) (characters : List Char) :
    (lineStartsFrom offset characters).length = characters.count '\n' := by
  induction characters generalizing offset with
  | nil => rfl
  | cons character characters ih =>
      rw [lineStartsFrom]
      split
      · rename_i isFeed
        rw [isFeed, List.length_cons, ih, List.count_cons_self]
      · rename_i other
        rw [ih, List.count_cons_of_ne other]

/-- Every line but the first one begins behind a line feed of the text. -/
theorem lineStartsFrom_bounds (offset : Nat) (characters : List Char) :
    ∀ start ∈ lineStartsFrom offset characters,
      offset < start ∧ start ≤ offset + byteLength characters := by
  induction characters generalizing offset with
  | nil => simp [lineStartsFrom]
  | cons character characters ih =>
      intro start member
      rw [lineStartsFrom] at member
      have positive := character.utf8Size_pos
      rw [byteLength_cons]
      split at member
      · rcases List.mem_cons.mp member with rfl | later
        · omega
        · have := ih _ start later
          omega
      · have := ih _ start member
        omega

namespace Source

/-- The offsets at which the lines of a text begin. -/
def lineStarts (source : Source) : List Nat :=
  0 :: lineStartsFrom 0 source.characters

end Source

/-- The characters before a byte offset and those from it on, unless it is inside a character
or behind the end. -/
def splitAtByte? : Nat → List Char → Option (List Char × List Char)
  | 0, characters => some ([], characters)
  | _ + 1, [] => none
  | offset + 1, character :: rest =>
      if offset + 1 < character.utf8Size then
        none
      else
        (splitAtByte? (offset + 1 - character.utf8Size) rest).map fun cut =>
          (character :: cut.1, cut.2)

theorem splitAtByte?_cons {character : Char} {offset : Nat} (within : character.utf8Size ≤ offset)
    (rest : List Char) :
    splitAtByte? offset (character :: rest) =
      (splitAtByte? (offset - character.utf8Size) rest).map fun cut =>
        (character :: cut.1, cut.2) := by
  have positive := character.utf8Size_pos
  cases offset with
  | zero => omega
  | succ offset => rw [splitAtByte?, if_neg (by omega)]

theorem splitAtByte?_append (before after : List Char) :
    splitAtByte? (byteLength before) (before ++ after) = some (before, after) := by
  induction before with
  | nil => rw [byteLength_nil, splitAtByte?, List.nil_append]
  | cons character before ih =>
      rw [byteLength_cons, List.cons_append, splitAtByte?_cons (Nat.le_add_right _ _),
        Nat.add_sub_cancel_left, ih]
      rfl

/-- No cut goes through a character. -/
theorem splitAtByte?_inside {character : Char} {bytes : Nat} (positive : 0 < bytes)
    (notAll : bytes < character.utf8Size) (before rest : List Char) :
    splitAtByte? (byteLength before + bytes) (before ++ character :: rest) = none := by
  induction before with
  | nil =>
      obtain ⟨bytes, rfl⟩ := Nat.exists_eq_succ_of_ne_zero (Nat.ne_of_gt positive)
      rw [byteLength_nil, Nat.zero_add, List.nil_append, splitAtByte?, if_pos notAll]
  | cons first before ih =>
      rw [byteLength_cons, List.cons_append, Nat.add_assoc,
        splitAtByte?_cons (Nat.le_add_right _ _), Nat.add_sub_cancel_left, ih]
      rfl

namespace Source

/-- The characters between two offsets, unless one of them is inside a character. -/
def slice? (source : Source) (start stop : Nat) : Option (List Char) :=
  (splitAtByte? start source.characters).bind fun cut =>
    (splitAtByte? (stop - start) cut.2).map Prod.fst

theorem slice?_eq {source : Source} {earlier inside later : List Char}
    (split : source.characters = earlier ++ (inside ++ later)) :
    source.slice? (byteLength earlier) (byteLength earlier + byteLength inside) =
      some inside := by
  rw [slice?, split, splitAtByte?_append, Option.bind_some, Nat.add_sub_cancel_left,
    splitAtByte?_append]
  rfl

/-- There is no slice that ends inside a character. -/
theorem slice?_inside {source : Source} {earlier inside rest : List Char} {character : Char}
    {bytes : Nat} (split : source.characters = earlier ++ (inside ++ character :: rest))
    (positive : 0 < bytes) (notAll : bytes < character.utf8Size) :
    source.slice? (byteLength earlier) (byteLength earlier + (byteLength inside + bytes)) =
      none := by
  rw [slice?, split, splitAtByte?_append, Option.bind_some, Nat.add_sub_cancel_left,
    splitAtByte?_inside positive notAll]
  rfl

end Source

/-- The line in which a text ends begins at the last entry of the table. -/
theorem lineStartsFrom_line (before : List Char) :
    (0 :: lineStartsFrom 0 before)[before.count '\n']? = some (byteLength (beforeLine before)) := by
  have ascii : '\n'.utf8Size = 1 := by decide
  induction before using List.reverseRecOn with
  | nil => rfl
  | append_singleton before character ih =>
      have length := length_lineStartsFrom 0 before
      rw [lineStartsFrom_append, beforeLine_concat, List.count_append]
      by_cases isFeed : character = '\n'
      · simp [isFeed, lineStartsFrom, length, ascii]
      · have short : before.count '\n' < (0 :: lineStartsFrom 0 before).length := by
          rw [List.length_cons, length]
          exact Nat.lt_succ_self _
        simp only [lineStartsFrom, isFeed, if_false, List.append_nil]
        simpa [isFeed] using ih

namespace Source

/-- The position of an offset by the table of lines.  Inside a character the column counts
bytes. -/
def positionByTable (source : Source) (offset : Nat) : Position :=
  let clamped := min offset source.byteSize
  let line := partitionPoint (fun start => decide (start ≤ clamped)) source.lineStarts - 1
  let start := source.lineStarts.getD line 0
  let column :=
    match source.slice? start clamped with
    | some front => front.length + 1
    | none => clamped - start + 1
  ⟨line + 1, column, clamped⟩

variable {source : Source} {before after : List Char} {offset : Nat}

/-- As many lines begin up to an offset as there are line feeds before it, and one more. -/
theorem partitionPoint_lineStarts (split : source.characters = before ++ after)
    (behind : byteLength before ≤ offset)
    (ahead : ∀ start ∈ lineStartsFrom (byteLength before) after, offset < start) :
    partitionPoint (fun start => decide (start ≤ offset)) source.lineStarts =
      before.count '\n' + 1 := by
  have table : source.lineStarts =
      (0 :: lineStartsFrom 0 before) ++ lineStartsFrom (byteLength before) after := by
    rw [lineStarts, split, lineStartsFrom_append, Nat.zero_add, List.cons_append]
  rw [table, partitionPoint_append, List.length_cons, length_lineStartsFrom]
  · refine List.forall_mem_cons.mpr ⟨decide_eq_true (Nat.zero_le _), fun start member => ?_⟩
    have := lineStartsFrom_bounds 0 before start member
    exact decide_eq_true (by omega)
  · intro start member
    have := ahead start member
    exact decide_eq_false (by omega)

theorem lineStarts_line (split : source.characters = before ++ after) :
    source.lineStarts.getD (before.count '\n') 0 = byteLength (beforeLine before) := by
  have short : before.count '\n' < (0 :: lineStartsFrom 0 before).length := by
    rw [List.length_cons, length_lineStartsFrom]
    exact Nat.lt_succ_self _
  rw [lineStarts, split, lineStartsFrom_append, ← List.cons_append, List.getD_eq_getElem?_getD,
    List.getElem?_append_left short, lineStartsFrom_line]
  rfl

/-- An offset within a text stands between two characters or inside one. -/
theorem exists_split (characters : List Char) {offset : Nat}
    (within : offset ≤ byteLength characters) :
    (∃ before after, characters = before ++ after ∧ offset = byteLength before) ∨
      ∃ before character rest bytes, characters = before ++ character :: rest ∧
        offset = byteLength before + bytes ∧ 0 < bytes ∧ bytes < character.utf8Size := by
  induction characters generalizing offset with
  | nil => exact .inl ⟨[], [], rfl, Nat.le_zero.mp within⟩
  | cons character rest ih =>
      rw [byteLength_cons] at within
      by_cases start : offset = 0
      · exact .inl ⟨[], character :: rest, rfl, start⟩
      by_cases inside : offset < character.utf8Size
      · exact .inr ⟨[], character, rest, offset, rfl, (Nat.zero_add _).symm,
          Nat.pos_of_ne_zero start, inside⟩
      have further : offset - character.utf8Size ≤ byteLength rest := by omega
      obtain ⟨before, after, split, place⟩ | ⟨before, other, later, bytes, split, place, proper⟩ :=
        ih further
      · refine .inl ⟨character :: before, after, ?_, ?_⟩
        · rw [split, List.cons_append]
        · rw [byteLength_cons]
          omega
      · refine .inr ⟨character :: before, other, later, bytes, ?_, ?_, proper⟩
        · rw [split, List.cons_append]
        · rw [byteLength_cons]
          omega

/-- Looking a position up in the table of lines gives what walking over the text does. -/
theorem positionByTable_eq (source : Source) (offset : Nat) :
    source.positionByTable offset = source.positionAt offset := by
  unfold positionByTable positionAt
  have within : min offset source.byteSize ≤ byteLength source.characters := Nat.min_le_right _ _
  generalize min offset source.byteSize = clamped at within ⊢
  dsimp only
  obtain ⟨before, after, split, place⟩ |
    ⟨before, character, rest, bytes, split, place, positive, notAll⟩ :=
    exists_split source.characters within
  · -- between two characters: the column counts those of the line before the offset
    have ahead : ∀ start ∈ lineStartsFrom (byteLength before) after, clamped < start := by
      intro start member
      have := lineStartsFrom_bounds _ _ start member
      omega
    have cut : source.characters = beforeLine before ++ (onLine before ++ after) := by
      rw [← List.append_assoc, beforeLine_append_onLine, split]
    have slice := slice?_eq cut
    rw [byteLength_line, ← place] at slice
    rw [partitionPoint_lineStarts split (Nat.le_of_eq place.symm) ahead, Nat.add_sub_cancel,
      lineStarts_line split, slice, split, place, Place.walk_append, Place.foldl_after]
    simp only [Nat.add_comm]
  · -- inside a character, which is no line feed since it has more than one byte
    have notFeed : character ≠ '\n' := by
      rintro rfl
      have ascii : '\n'.utf8Size = 1 := by decide
      omega
    have ahead : ∀ start ∈ lineStartsFrom (byteLength before) (character :: rest),
        clamped < start := by
      intro start member
      rw [lineStartsFrom, if_neg notFeed] at member
      have := lineStartsFrom_bounds _ _ start member
      omega
    have cut : source.characters = beforeLine before ++ (onLine before ++ character :: rest) := by
      rw [← List.append_assoc, beforeLine_append_onLine, split]
    have slice := slice?_inside cut positive notAll
    rw [← Nat.add_assoc, byteLength_line, ← place] at slice
    rw [partitionPoint_lineStarts split (by omega) ahead, Nat.add_sub_cancel,
      lineStarts_line split, slice, split, place, Place.walk_inside positive notAll,
      Place.foldl_after]
    have line := byteLength_line before
    simp only [Position.mk.injEq, and_true]
    constructor <;> omega

end Source

end Stencil
