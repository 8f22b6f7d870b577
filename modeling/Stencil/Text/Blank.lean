/-!
# White space

The characters that count as white space in dates and date patterns, in every
script.
-/

namespace Stencil

def isWhiteSpace (character : Char) : Bool :=
  let codePoint := character.toNat
  (0x09 ≤ codePoint && codePoint ≤ 0x0d) || codePoint == 0x20 ||
    codePoint == 0x85 || codePoint == 0xa0 || codePoint == 0x1680 ||
    (0x2000 ≤ codePoint && codePoint ≤ 0x200a) ||
    codePoint == 0x2028 || codePoint == 0x2029 || codePoint == 0x202f ||
    codePoint == 0x205f || codePoint == 0x3000

def dropWhiteSpace (characters : List Char) : List Char :=
  characters.dropWhile isWhiteSpace

end Stencil
