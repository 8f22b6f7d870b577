import Stencil.Token
import Stencil.Token.Character

/-!
# Literals in headers

Numbers and quoted strings, read from the front of a text.  A number may have a
sign, a fraction and an exponent; a string ends at the quote with which it
began, and a backslash takes the next character with it.
-/

namespace Stencil

/-- A number as it is written, and the text after it. -/
structure NumberLiteral where
  /-- Every character of the literal. -/
  characters : List Char
  /-- Whether it has neither a fraction nor an exponent. -/
  isInteger : Bool
  rest : List Char
  deriving DecidableEq, Repr, Inhabited

namespace NumberLiteral

/-- A point and at least one digit, or nothing. -/
def fraction : List Char → List Char
  | '.' :: rest =>
      match rest.takeWhile Char.isDigit with
      | [] => []
      | digits => '.' :: digits
  | _ => []

/-- An exponent mark, an optional sign and at least one digit, or nothing. -/
def exponent : List Char → List Char
  | [] => []
  | mark :: rest =>
      if mark = 'e' ∨ mark = 'E' then
        match rest with
        | [] => []
        | sign :: tail =>
            if sign = '+' ∨ sign = '-' then
              match tail.takeWhile Char.isDigit with
              | [] => []
              | digits => mark :: sign :: digits
            else
              match rest.takeWhile Char.isDigit with
              | [] => []
              | digits => mark :: digits
      else
        []

/-- The longest number that begins with `first`, a digit or a minus sign, and
goes on in a text that begins with a digit if `first` is a sign. -/
def ofFront (first : Char) (text : List Char) : NumberLiteral :=
  let digits := text.takeWhile Char.isDigit
  let afterDigits := text.dropWhile Char.isDigit
  let fraction := fraction afterDigits
  let afterFraction := afterDigits.drop fraction.length
  let exponent := exponent afterFraction
  { characters := first :: digits ++ fraction ++ exponent
    isInteger := fraction.isEmpty && exponent.isEmpty
    rest := afterFraction.drop exponent.length }

theorem length_rest_ofFront_le (first : Char) (text : List Char) :
    (ofFront first text).rest.length ≤ text.length := by
  have := length_dropWhile_le Char.isDigit text
  simp only [ofFront, List.length_drop]
  omega

/-- The token of a number, unless it is an integer beyond sixty-four bits. -/
def kind? (literal : NumberLiteral) : Option TokenKind :=
  if literal.isInteger then
    (readWord? 64 literal.characters).map .integer
  else
    (readDecimal? literal.characters).map .float

end NumberLiteral

/-- The characters for which an escape inside a string stands. -/
def unescape (character : Char) : List Char :=
  if character = 'n' then ['\n']
  else if character = 't' then ['\t']
  else if character = 'r' then ['\r']
  else if character = '\\' ∨ character = '"' ∨ character = '\'' then [character]
  else ['\\', character]

/-- The body of a quoted string: its content, its written form with the closing
quote, and the text after it. -/
structure StringBody where
  content : List Char
  written : List Char
  rest : List Char
  deriving DecidableEq, Repr, Inhabited

/-- Put a piece in front of the body of a string. -/
def StringBody.prepend (content written : List Char) (body : StringBody) :
    StringBody :=
  ⟨content ++ body.content, written ++ body.written, body.rest⟩

def readString? (quote : Char) : List Char → Option StringBody
  | [] => none
  | ['\\'] => none
  | '\\' :: escaped :: rest =>
      (readString? quote rest).map
        (StringBody.prepend (unescape escaped) ['\\', escaped])
  | character :: rest =>
      if character = quote then
        some ⟨[], [quote], rest⟩
      else
        (readString? quote rest).map
          (StringBody.prepend [character] [character])

theorem length_rest_of_readString? {quote : Char} {characters : List Char}
    {body : StringBody} (read : readString? quote characters = some body) :
    body.rest.length < characters.length := by
  fun_induction readString? quote characters generalizing body with
  | case1 => simp at read
  | case2 => simp at read
  | case3 escaped rest ih =>
      obtain ⟨inner, innerRead, rfl⟩ := Option.map_eq_some_iff.mp read
      have := ih innerRead
      simp only [StringBody.prepend, List.length_cons]
      omega
  | case4 rest => simp_all; subst read; simp
  | case5 character rest _ _ _ ih =>
      obtain ⟨inner, innerRead, rfl⟩ := Option.map_eq_some_iff.mp read
      have := ih innerRead
      simp only [StringBody.prepend, List.length_cons]
      omega

end Stencil
