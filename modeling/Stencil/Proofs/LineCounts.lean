import Stencil.Proofs.LineTable

/-!
# Lines and columns count

Lines are looked up in the table of lines, or by splitting the text at its line feeds, which is
the same.  The position of an offset counts the line feeds before it and the characters since
the last one, and the order of positions is that of the offsets.
-/

namespace Stencil

namespace Source

/-- A line by the table: what stands between its beginning and that of the next one, without
line feeds and carriage returns at its end. -/
def lineByTable? (source : Source) (number : Nat) : Option String :=
  match number with
  | 0 => none
  | index + 1 =>
      source.lineStarts[index]?.bind fun start =>
        (source.slice? start (source.lineStarts[index + 1]?.getD source.byteSize)).map
          fun shown => String.ofList (shown.rdropWhile fun character =>
            character == '\n' || character == '\r')

end Source

theorem exists_splitLines (characters : List Char) :
    ∃ first others, splitLines characters = first :: others := by
  cases characters with
  | nil => exact ⟨[], [], rfl⟩
  | cons character rest =>
      rw [splitLines]
      split
      · exact ⟨[], splitLines rest, rfl⟩
      · split
        · exact ⟨[character], [], rfl⟩
        · exact ⟨_, _, rfl⟩

theorem splitLines_feed (rest : List Char) : splitLines ('\n' :: rest) = [] :: splitLines rest := by
  rw [splitLines, if_pos rfl]

theorem splitLines_plain {character : Char} (other : character ≠ '\n') {rest first : List Char}
    {others : List (List Char)} (lines : splitLines rest = first :: others) :
    splitLines (character :: rest) = (character :: first) :: others := by
  rw [splitLines, if_neg other, lines]

theorem splitLines_eq_splitOn (characters : List Char) :
    splitLines characters = characters.splitOn '\n' := by
  induction characters with
  | nil => rfl
  | cons character rest ih =>
      rw [List.splitOn_cons_eq_if_modifyHead, ← ih]
      by_cases isFeed : character = '\n'
      · rw [if_pos (beq_iff_eq.mpr isFeed), isFeed, splitLines_feed]
      · obtain ⟨first, others, lines⟩ := exists_splitLines rest
        rw [if_neg (mt beq_iff_eq.mp isFeed), splitLines_plain isFeed lines, lines]
        rfl

theorem length_splitLines (characters : List Char) :
    (splitLines characters).length = characters.count '\n' + 1 := by
  induction characters with
  | nil => rfl
  | cons character rest ih =>
      by_cases isFeed : character = '\n'
      · rw [isFeed, splitLines_feed, List.length_cons, ih, List.count_cons_self]
      · obtain ⟨first, others, lines⟩ := exists_splitLines rest
        rw [splitLines_plain isFeed lines, List.count_cons_of_ne isFeed, ← ih, lines]
        rfl

/-- Where the table says that a piece begins and ends. -/
theorem lineStartsFrom_piece (offset : Nat) (characters : List Char) {index : Nat}
    {piece : List Char} (isPiece : (splitLines characters)[index]? = some piece) :
    ∃ front back, characters = front ++ (piece ++ back) ∧ '\n' ∉ piece ∧
      (offset :: lineStartsFrom offset characters)[index]? = some (offset + byteLength front) ∧
        (back = [] ∧ (lineStartsFrom offset characters)[index]? = none ∨
          ∃ later, back = '\n' :: later ∧
            (lineStartsFrom offset characters)[index]? =
              some (offset + byteLength front + byteLength piece + 1)) := by
  have ascii : '\n'.utf8Size = 1 := by decide
  induction characters generalizing offset index piece with
  | nil =>
      cases index with
      | zero =>
          obtain rfl := Option.some.inj isPiece
          exact ⟨[], [], rfl, List.not_mem_nil, rfl, .inl ⟨rfl, rfl⟩⟩
      | succ index => cases isPiece
  | cons character rest ih =>
      by_cases isFeed : character = '\n'
      · rw [isFeed, splitLines_feed] at isPiece
        rw [isFeed, lineStartsFrom, if_pos rfl]
        cases index with
        | zero =>
            obtain rfl := Option.some.inj isPiece
            exact ⟨[], '\n' :: rest, rfl, List.not_mem_nil, rfl, .inr ⟨rest, rfl, rfl⟩⟩
        | succ index =>
            obtain ⟨front, back, split, noFeed, begins, ends⟩ := ih (offset + 1) isPiece
            have shifted : offset + byteLength ('\n' :: front) =
                offset + 1 + byteLength front := by
              rw [byteLength_cons, ascii, Nat.add_assoc]
            refine ⟨'\n' :: front, back, congrArg _ split, noFeed, ?_, ?_⟩
            · rw [shifted]
              exact begins
            · rw [shifted]
              exact ends
      · obtain ⟨first, others, lines⟩ := exists_splitLines rest
        rw [splitLines_plain isFeed lines] at isPiece
        rw [lineStartsFrom, if_neg isFeed]
        cases index with
        | zero =>
            obtain rfl := Option.some.inj isPiece
            have isFirst : (splitLines rest)[0]? = some first := by
              rw [lines]
              rfl
            obtain ⟨front, back, split, noFeed, begins, ends⟩ :=
              ih (offset + character.utf8Size) isFirst
            obtain rfl : front = [] := by
              have atStart := Option.some.inj begins
              cases front with
              | nil => rfl
              | cons own front =>
                  have := own.utf8Size_pos
                  rw [byteLength_cons] at atStart
                  omega
            refine ⟨[], back, congrArg _ split, ?_, rfl, ?_⟩
            · exact List.not_mem_cons_of_ne_of_not_mem (Ne.symm isFeed) noFeed
            · rw [byteLength_nil, byteLength_cons, Nat.add_zero, ← Nat.add_assoc]
              exact ends
        | succ index =>
            have later : (splitLines rest)[index + 1]? = some piece := by
              rw [lines]
              exact isPiece
            obtain ⟨front, back, split, noFeed, begins, ends⟩ :=
              ih (offset + character.utf8Size) later
            have shifted : offset + byteLength (character :: front) =
                offset + character.utf8Size + byteLength front := by
              rw [byteLength_cons, Nat.add_assoc]
            refine ⟨character :: front, back, congrArg _ split, noFeed, ?_, ?_⟩
            · rw [shifted]
              exact begins
            · rw [shifted]
              exact ends

theorem rdropWhile_returns {piece : List Char} (noFeed : '\n' ∉ piece) :
    (piece.rdropWhile fun character => character == '\n' || character == '\r') =
      dropTrailingReturns piece := by
  change _ = piece.rdropWhile (· == '\r')
  induction piece using List.reverseRecOn with
  | nil => rfl
  | append_singleton piece character ih =>
      have ⟨before, here⟩ := not_or.mp (mt List.mem_append.mpr noFeed)
      have other : (character == '\n') = false :=
        beq_eq_false_iff_ne.mpr fun isFeed => here (by simp [isFeed])
      rw [List.rdropWhile_concat, List.rdropWhile_concat, other, Bool.false_or, ih before]

namespace Source

variable (source : Source)

theorem length_lineStarts : source.lineStarts.length = (splitLines source.characters).length := by
  rw [lineStarts, List.length_cons, length_lineStartsFrom, length_splitLines]

/-- Looking a line up in the table gives what splitting the text does. -/
theorem lineByTable?_eq (number : Nat) : source.lineByTable? number = source.line? number := by
  cases number with
  | zero => rfl
  | succ index =>
      simp only [lineByTable?, line?]
      cases isPiece : (splitLines source.characters)[index]? with
      | none =>
          rw [List.getElem?_eq_none_iff, ← length_lineStarts] at isPiece
          rw [List.getElem?_eq_none isPiece]
          rfl
      | some piece =>
          obtain ⟨front, back, split, noFeed, begins, ends⟩ :=
            lineStartsFrom_piece 0 source.characters isPiece
          have start : source.lineStarts[index]? = some (byteLength front) := by
            rw [lineStarts, begins, Nat.zero_add]
          have next : source.lineStarts[index + 1]? =
            (lineStartsFrom 0 source.characters)[index]? := List.getElem?_cons_succ
          rw [start, next, Option.bind_some, Option.map_some]
          obtain ⟨rfl, last⟩ | ⟨later, rfl, stop⟩ := ends
          · have whole : source.byteSize = byteLength front + byteLength piece := by
              rw [byteSize, split, List.append_nil, byteLength_append]
            rw [last, Option.getD_none, whole, slice?_eq split, Option.map_some,
              rdropWhile_returns noFeed]
          · have ascii : '\n'.utf8Size = 1 := by decide
            have terminated : source.characters = front ++ ((piece ++ ['\n']) ++ later) := by
              rw [split, List.append_assoc]
              rfl
            have shown := slice?_eq terminated
            rw [byteLength_append, byteLength_cons, ascii, byteLength_nil, ← Nat.add_assoc]
              at shown
            rw [stop, Option.getD_some, Nat.zero_add, shown, Option.map_some,
              List.rdropWhile_concat_pos _ _ _ rfl, rdropWhile_returns noFeed]

/-- An offset that stands between two characters of a text, or at one of its ends. -/
def IsBoundary (source : Source) (offset : Nat) : Prop :=
  ∃ before after, source.characters = before ++ after ∧ offset = byteLength before

end Source

/-- A position is on an earlier line than another one, or further to the left on the same. -/
def Position.Precedes (first second : Position) : Prop :=
  first.line < second.line ∨ first.line = second.line ∧ first.column < second.column

namespace Source

variable {source : Source}

theorem positionAt_precedes {before inside after : List Char} (nonempty : inside ≠ [])
    (split : source.characters = before ++ (inside ++ after)) :
    (source.positionAt (byteLength before)).Precedes
      (source.positionAt (byteLength (before ++ inside))) := by
  rw [positionAt_boundary split,
    positionAt_boundary (show source.characters = (before ++ inside) ++ after by
      rw [split, List.append_assoc]), List.count_append]
  by_cases feed : '\n' ∈ inside
  · have := List.count_pos_iff.mpr feed
    exact .inl (by dsimp only; omega)
  · have := List.length_pos_iff.mpr nonempty
    refine .inr ⟨?_, ?_⟩
    · rw [List.count_eq_zero.mpr feed, Nat.add_zero]
    · rw [onLine_append before feed, List.length_append]
      dsimp only
      omega

theorem positionAt_lt {first second : Nat} (isFirst : source.IsBoundary first)
    (isSecond : source.IsBoundary second) (earlier : first < second) :
    (source.positionAt first).Precedes (source.positionAt second) := by
  obtain ⟨before, after, split, rfl⟩ := isFirst
  obtain ⟨further, rest, otherSplit, rfl⟩ := isSecond
  rw [split] at otherSplit
  obtain ⟨inside, rfl, isAfter⟩ | ⟨inside, rfl, -⟩ := List.append_eq_append_iff.mp otherSplit
  · refine positionAt_precedes ?_ (split.trans (congrArg _ isAfter))
    rintro rfl
    rw [List.append_nil] at earlier
    exact Nat.lt_irrefl _ earlier
  · rw [byteLength_append] at earlier
    omega

theorem isSome_line?_iff (source : Source) (number : Nat) :
    (source.line? number).isSome ↔
      1 ≤ number ∧ number ≤ 1 + source.characters.count '\n' := by
  cases number with
  | zero => simp [line?]
  | succ index =>
      simp only [line?, Option.isSome_map, isSome_getElem?, length_splitLines]
      omega

/-- Lines and columns count: the position of an offset between two characters has as many line
feeds before it as lines before its own, and its column is that of the next character of the
line.  From one such offset to the next the positions increase, line by line.  A line is there
if its number is one of these, and it is a piece of the text between line feeds, without the
carriage returns at its end.  Looking either up in the table of lines gives the same. -/
theorem positions_count (source : Source) :
    (∀ offset before after, source.characters = before ++ after →
      min offset source.byteSize = byteLength before →
        source.positionAt offset =
          ⟨1 + before.count '\n', 1 + (before.rtakeWhile (· ≠ '\n')).length,
            byteLength before⟩ ∧
          (source.line? (source.positionAt offset).line).isSome) ∧
      (∀ first second, source.IsBoundary first → source.IsBoundary second →
        (first < second → (source.positionAt first).Precedes (source.positionAt second)) ∧
          ((source.positionAt first).line = (source.positionAt second).line →
            (source.positionAt first).column = (source.positionAt second).column →
              first = second)) ∧
      (∀ number, (source.line? number).isSome ↔
        1 ≤ number ∧ number ≤ 1 + source.characters.count '\n') ∧
      (∀ index, source.line? (index + 1) =
        (source.characters.splitOn '\n')[index]?.map fun piece =>
          String.ofList (piece.rdropWhile (· == '\r'))) ∧
      (∀ offset, source.positionAt offset = source.positionByTable offset) ∧
      ∀ number, source.line? number = source.lineByTable? number := by
  refine ⟨?_, ?_, source.isSome_line?_iff, ?_, fun offset => (positionByTable_eq _ offset).symm,
    fun number => (lineByTable?_eq _ number).symm⟩
  · intro offset before after split clamped
    have place : source.positionAt offset = source.positionAt (byteLength before) := by
      have within : byteLength before ≤ source.byteSize := clamped ▸ Nat.min_le_right _ _
      rw [positionAt, positionAt, clamped, Nat.min_eq_left within]
    rw [place, positionAt_boundary split]
    refine ⟨rfl, (source.isSome_line?_iff _).mpr ⟨Nat.le_add_right _ _, ?_⟩⟩
    rw [split, List.count_append]
    dsimp only
    omega
  · intro first second isFirst isSecond
    refine ⟨positionAt_lt isFirst isSecond, fun sameLine sameColumn => ?_⟩
    have apart : ∀ {one other : Position}, one.Precedes other → one.line = other.line →
        one.column ≠ other.column := by
      rintro one other (above | ⟨-, left⟩) sameLine
      · exact absurd sameLine (Nat.ne_of_lt above)
      · exact Nat.ne_of_lt left
    rcases Nat.lt_trichotomy first second with earlier | same | later
    · exact absurd sameColumn (apart (positionAt_lt isFirst isSecond earlier) sameLine)
    · exact same
    · exact absurd sameColumn.symm (apart (positionAt_lt isSecond isFirst later) sameLine.symm)
  · intro index
    rw [line?, splitLines_eq_splitOn]
    rfl

example :
    (Source.mk "" "név:\r\n$x").positionAt 8 = ⟨2, 2, 8⟩ ∧
      (Source.mk "" "név:\r\n$x").line? 1 = some "név:" := by
  decide

end Source

end Stencil
