import Stencil.Proofs.PrintedItems
import Stencil.Proofs.TextRuns

/-!
# How tokens are written

Which characters of a template can make a token.  Literal text is written with its
sigils doubled where they would start something, a string in quotes and with escapes, a
number in decimal, and everything else as it is spelled.
-/

namespace Stencil

/-- Literal text in which every doubled sigil, from left to right, is made single. -/
def singleSigils : List Char → List Char
  | [] => []
  | [character] => [character]
  | character :: next :: rest =>
      if isSigil character ∧ next = character then character :: singleSigils rest
      else character :: singleSigils (next :: rest)

/-- How the content of a string is written between its quotes: every character stands
for itself, apart from the quote and from escapes. -/
inductive QuotedAs (quote : Char) : List Char → List Char → Prop where
  | nil : QuotedAs quote [] []
  | escape (escaped : Char) {written content : List Char} :
      QuotedAs quote written content →
        QuotedAs quote ('\\' :: escaped :: written) (unescape escaped ++ content)
  | plain {character : Char} {written content : List Char} :
      character ≠ '\\' → character ≠ quote → QuotedAs quote written content →
        QuotedAs quote (character :: written) (character :: content)

/-- Whether characters are a whole number in decimal, with a minus sign if it is
negative. -/
def DenotesInteger (characters : List Char) (integer : Int) : Prop :=
  ∃ digits : List Char, digits ≠ [] ∧ digits.all Char.isDigit ∧
    (characters = digits ∧ integer = decimalValue digits ∨
      characters = '-' :: digits ∧ integer = -decimalValue digits)

/-- Whether characters of a template write a token. -/
def TokenKind.WrittenAs : TokenKind → List Char → Prop
  | .text content, slice => slice ≠ [] ∧ singleSigils slice = content.toList
  | .dollar, slice => slice = ['$']
  | .name spelling, slice => slice = spelling.toList
  | .macroName spelling, slice => slice = '@' :: spelling.toList
  | .directive word, slice => slice = '#' :: word.toList
  | .string content, slice => ∃ quote written, (quote = '"' ∨ quote = '\'') ∧
      slice = quote :: (written ++ [quote]) ∧ QuotedAs quote written content.toList
  | .integer number, slice => DenotesInteger slice number.toInt
  | .float number, slice => readDecimal? slice = some number
  | .boolean value, slice => slice = (if value then "true" else "false").toList
  | .null, slice => slice = "null".toList
  | .leftParen, slice => slice = ['(']
  | .rightParen, slice => slice = [')']
  | .leftBracket, slice => slice = ['[']
  | .rightBracket, slice => slice = [']']
  | .comma, slice => slice = [',']
  | .dot, slice => slice = ['.']
  | .assign, slice => slice = ['=']
  | .endOfInput, slice => slice = []

/-- The content of a run of literal text is what is written with single sigils. -/
theorem TextRun.singleSigils_written (characters : List Char) :
    singleSigils (ofFront characters).written = (ofFront characters).content := by
  fun_induction ofFront characters with
  | case1 => rfl
  | case2 => rfl
  | case3 character next rest isDoubled ih => simp [prepend, singleSigils, isDoubled, ih]
  | case4 => rfl
  | case5 character next rest notDoubled _ ih =>
      have split := written_append_rest (next :: rest)
      rcases run : ofFront (next :: rest) with ⟨content, written, left⟩
      rw [run] at ih split
      cases written with
      | nil =>
          obtain rfl : [] = content := ih
          rfl
      | cons first others =>
          obtain ⟨rfl, -⟩ := List.cons.inj split
          simp only [prepend, List.singleton_append, singleSigils, notDoubled, if_false]
          exact congrArg (character :: ·) ih

theorem TextRun.written_eq_nil_iff (characters : List Char) :
    (ofFront characters).written = [] ↔ (ofFront characters).content = [] := by
  fun_cases ofFront characters <;> simp [prepend]

theorem wordKind_writtenAs (word : List Char) :
    (wordKind (String.ofList word)).WrittenAs word := by
  have spelled {other : String} (same : String.ofList word = other) :
      word = other.toList := by
    rw [← same, String.toList_ofList]
  unfold wordKind
  split
  · exact spelled ‹_›
  · split
    · exact spelled ‹_›
    · split
      · exact spelled ‹_›
      · exact spelled rfl

/-- A string that is read ends with its quote, and what is before it is its content,
quoted. -/
theorem readString?_quotedAs {quote : Char} {characters : List Char} {body : StringBody}
    (read : readString? quote characters = some body) :
    ∃ written, body.written = written ++ [quote] ∧
      QuotedAs quote written body.content := by
  fun_induction readString? quote characters generalizing body with
  | case1 => cases read
  | case2 => cases read
  | case3 escaped rest ih =>
      obtain ⟨inner, innerRead, rfl⟩ := Option.map_eq_some_iff.mp read
      obtain ⟨written, split, quoted⟩ := ih innerRead
      exact ⟨'\\' :: escaped :: written, by simp [StringBody.prepend, split],
        quoted.escape escaped⟩
  | case4 rest =>
      cases read
      exact ⟨[], rfl, .nil⟩
  | case5 character rest notLast notEscape other ih =>
      obtain ⟨inner, innerRead, rfl⟩ := Option.map_eq_some_iff.mp read
      obtain ⟨written, split, quoted⟩ := ih innerRead
      have plain : character ≠ '\\' := by
        rintro rfl
        cases rest with
        | nil => exact notLast rfl rfl
        | cons escaped rest => exact notEscape escaped rest rfl rfl
      exact ⟨character :: written, by simp [StringBody.prepend, split],
        quoted.plain plain other⟩

theorem readWord?_denotes {characters : List Char} {number : Int64}
    (read : readWord? 64 characters = some number)
    (noPlus : characters.head? ≠ some '+') :
    DenotesInteger characters number.toInt := by
  obtain ⟨integer, readInteger, fits⟩ := Option.bind_eq_some_iff.mp read
  obtain ⟨inRange, isNumber⟩ := Option.ite_none_right_eq_some.mp fits
  rw [fitsWord_64] at inRange
  have exactly : number.toInt = integer := by
    rw [← Option.some.inj isNumber]
    exact Int64.toInt_ofInt_of_le inRange.1 inRange.2
  unfold readInteger? at readInteger
  dsimp only at readInteger
  split at readInteger
  · rename_i digits
    obtain ⟨nonempty, areDigits⟩ := digits
    rw [exactly, ← Option.some.inj readInteger]
    refine ⟨(splitSign characters).2, nonempty, areDigits, ?_⟩
    fun_cases splitSign characters with
    | case1 rest => exact .inr ⟨rfl, rfl⟩
    | case2 rest => exact absurd rfl noPlus
    | case3 => exact .inl ⟨rfl, rfl⟩
  · cases readInteger

namespace NumberLiteral

theorem characters_append_rest (first : Char) (text : List Char) :
    (ofFront first text).characters ++ (ofFront first text).rest = first :: text := by
  have behind {front whole : List Char} (isPrefix : front <+: whole) :
      front ++ whole.drop front.length = whole := by
    obtain ⟨rest, rfl⟩ := isPrefix
    rw [List.drop_left]
  simp only [ofFront, List.cons_append, List.append_assoc, behind (exponent_isPrefix _),
    behind (fraction_isPrefix _), List.takeWhile_append_dropWhile]

theorem kind?_writtenAs {first : Char} {text : List Char} {kind : TokenKind}
    (found : (ofFront first text).kind? = some kind) (noPlus : first ≠ '+') :
    kind.WrittenAs (ofFront first text).characters := by
  unfold kind? at found
  split at found
  · obtain ⟨number, read, rfl⟩ := Option.map_eq_some_iff.mp found
    exact readWord?_denotes read (by simpa [ofFront] using noPlus)
  · obtain ⟨number, read, rfl⟩ := Option.map_eq_some_iff.mp found
    exact read

end NumberLiteral

theorem takeName_append_dropName (characters : List Char) :
    takeName characters ++ dropName characters = characters :=
  List.takeWhile_append_dropWhile

/-- How a step of a path is written. -/
def PathPiece.written : PathPiece → List Char
  | .field name => '.' :: name
  | .index digits => '[' :: (digits ++ [']'])

theorem readPathPiece?_eq_written {characters rest : List Char} {piece : PathPiece}
    (read : readPathPiece? characters = some (piece, rest)) :
    characters = piece.written ++ rest := by
  unfold readPathPiece? at read
  split at read
  · rename_i tail
    split at read
    · obtain ⟨rfl, rfl⟩ := by simpa using read
      simp [PathPiece.written, takeName_append_dropName]
    · cases read
  · rename_i tail
    split at read
    · rename_i digit digits after taken dropped
      obtain ⟨rfl, rfl⟩ := by simpa using read
      have split := List.takeWhile_append_dropWhile (p := Char.isDigit) (l := tail)
      rw [taken, dropped] at split
      simp [PathPiece.written, ← split]
    · cases read
  · cases read

theorem readPathPiece?_isDigit {characters rest digits : List Char}
    (read : readPathPiece? characters = some (.index digits, rest)) :
    ∀ digit ∈ digits, digit.isDigit := by
  unfold readPathPiece? at read
  split at read
  · split at read <;> cases read
  · rename_i tail
    split at read
    · rename_i digit others after taken dropped
      obtain ⟨rfl, rfl⟩ := by simpa using read
      rw [← taken]
      exact List.all_eq_true.mp List.all_takeWhile
    · cases read
  · cases read

end Stencil
