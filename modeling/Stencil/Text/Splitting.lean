/-!
# Splitting texts

A text is cut at every occurrence of a delimiter, from the left, without
overlaps; the delimiters themselves are left out.  An empty delimiter cuts a
text into its characters.
-/

namespace Stencil

/-- Put a character in front of the first of several parts. -/
def prependToFirst (character : Char) : List (List Char) → List (List Char)
  | [] => [[character]]
  | part :: parts => (character :: part) :: parts

/-- Cut a text at every occurrence of the delimiter `first :: others`. -/
def splitAtEach (first : Char) (others : List Char) :
    List Char → List (List Char)
  | [] => [[]]
  | character :: rest =>
      if character = first ∧ others.isPrefixOf rest then
        [] :: splitAtEach first others (rest.drop others.length)
      else
        prependToFirst character (splitAtEach first others rest)
termination_by text => text.length
decreasing_by
  · simp only [List.length_drop, List.length_cons]
    omega
  · simp

def splitText (delimiter text : String) : List String :=
  match delimiter.toList with
  | [] => text.toList.map Char.toString
  | first :: others => (splitAtEach first others text.toList).map String.ofList

end Stencil
