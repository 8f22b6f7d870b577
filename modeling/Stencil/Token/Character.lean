/-!
# Character classes of the template language

Names are made of ASCII letters, digits and underscores, and three sigils start
everything that is not literal text.
-/

namespace Stencil

def isNameStart (character : Char) : Bool :=
  character.isAlpha || character == '_'

def isNameCharacter (character : Char) : Bool :=
  character.isAlphanum || character == '_'

def isSigil (character : Char) : Bool :=
  character == '$' || character == '@' || character == '#'

/-- Whether a sigil followed by `next` starts a path, a macro call or a
directive. -/
def startsDirective (sigil next : Char) : Bool :=
  if sigil = '#' then
    next.isAlpha
  else
    isSigil sigil && isNameStart next

/-- Whether a character separates tokens inside a header. -/
def isBlank (character : Char) : Bool :=
  character == ' ' || character == '\t' || character == '\r' || character == '\n'

/-- Whether a character may stand between a directive and its header. -/
def isPadding (character : Char) : Bool :=
  character == ' ' || character == '\t'

/-- The longest run of name characters at the front of a text. -/
def takeName (characters : List Char) : List Char :=
  characters.takeWhile isNameCharacter

/-- What follows the longest run of name characters. -/
def dropName (characters : List Char) : List Char :=
  characters.dropWhile isNameCharacter

def startsWith (class? : Char → Bool) : List Char → Bool
  | [] => false
  | character :: _ => class? character

theorem length_dropWhile_le (class? : Char → Bool) (characters : List Char) :
    (characters.dropWhile class?).length ≤ characters.length :=
  (List.dropWhile_suffix class?).length_le

theorem length_dropName_le (characters : List Char) :
    (dropName characters).length ≤ characters.length :=
  length_dropWhile_le isNameCharacter characters

end Stencil
