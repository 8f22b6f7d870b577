/-!
# Template sources

Templates are cut up by byte offsets, while people read lines and columns.
This file holds a named template text, the conversion of a byte offset to a
position, and the lookup of one line for display.  Lines and columns start at
one, and columns count characters.
-/

namespace Stencil

/-- The number of bytes in the UTF-8 form of a list of characters. -/
def byteLength : List Char → Nat
  | [] => 0
  | character :: rest => character.utf8Size + byteLength rest

@[simp] theorem byteLength_nil : byteLength [] = 0 := rfl

@[simp] theorem byteLength_cons (character : Char) (rest : List Char) :
    byteLength (character :: rest) = character.utf8Size + byteLength rest := rfl

@[simp] theorem byteLength_append (left right : List Char) :
    byteLength (left ++ right) = byteLength left + byteLength right := by
  induction left with
  | nil => simp
  | cons character rest ih => simp [ih, Nat.add_assoc]

/-- A half-open range of byte offsets into a template. -/
structure Span where
  start : Nat
  stop : Nat
  deriving DecidableEq, Repr, Inhabited

/-- A point of a template, as a line and column and as a byte offset. -/
structure Position where
  line : Nat
  column : Nat
  offset : Nat
  deriving DecidableEq, Repr, Inhabited

/-- Positions are shown as line, colon, column. -/
def Position.text (position : Position) : String :=
  toString position.line ++ ":" ++ toString position.column

/-- The two end points of a stretch of a template. -/
structure Extent where
  start : Position
  stop : Position
  deriving DecidableEq, Repr, Inhabited

def Extent.isSingleLine (extent : Extent) : Bool :=
  extent.start.line == extent.stop.line

/-- A template text with the name under which it is shown. -/
structure Source where
  name : String
  content : String
  deriving DecidableEq, Repr, Inhabited

/-- A place reached while walking over a text: the current line, the column of
the next character, and the number of bytes since the line began. -/
structure Place where
  line : Nat
  column : Nat
  bytesIntoLine : Nat
  deriving DecidableEq, Repr, Inhabited

namespace Place

/-- The place before the first character. -/
def origin : Place := ⟨1, 1, 0⟩

def after (place : Place) (character : Char) : Place :=
  if character = '\n' then
    ⟨place.line + 1, 1, 0⟩
  else
    ⟨place.line, place.column + 1, place.bytesIntoLine + character.utf8Size⟩

/-- Walk `remaining` bytes over a text.  An offset strictly inside a character
is reported by the number of bytes since its line began. -/
def walk (place : Place) (remaining : Nat) : List Char → Place
  | [] => place
  | character :: rest =>
      if remaining = 0 then
        place
      else if remaining < character.utf8Size then
        ⟨place.line, place.bytesIntoLine + remaining + 1,
          place.bytesIntoLine + remaining⟩
      else
        (place.after character).walk (remaining - character.utf8Size) rest

end Place

/-- The pieces of a text between its line feeds. -/
def splitLines : List Char → List (List Char)
  | [] => [[]]
  | character :: rest =>
      if character = '\n' then
        [] :: splitLines rest
      else
        match splitLines rest with
        | [] => [[character]]
        | first :: others => (character :: first) :: others

/-- Remove every carriage return at the end of a line. -/
def dropTrailingReturns (line : List Char) : List Char :=
  (line.reverse.dropWhile (· == '\r')).reverse

namespace Source

def characters (source : Source) : List Char :=
  source.content.toList

def byteSize (source : Source) : Nat :=
  byteLength source.characters

/-- The position of a byte offset.  Offsets past the end stand for the end. -/
def positionAt (source : Source) (offset : Nat) : Position :=
  let clamped := min offset source.byteSize
  let place := Place.origin.walk clamped source.characters
  ⟨place.line, place.column, clamped⟩

/-- The extent between two byte offsets; an end before the start is moved to
the start. -/
def extent (source : Source) (start stop : Nat) : Extent :=
  ⟨source.positionAt start, source.positionAt (max stop start)⟩

def extentOf (source : Source) (span : Span) : Extent :=
  source.extent span.start span.stop

/-- Line `number`, counted from one, without its line feed and without carriage
returns at its end. -/
def line? (source : Source) (number : Nat) : Option String :=
  match number with
  | 0 => none
  | index + 1 =>
      (splitLines source.characters)[index]?.map fun line =>
        String.ofList (dropTrailingReturns line)

end Source

end Stencil
