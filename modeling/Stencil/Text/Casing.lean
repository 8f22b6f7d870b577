import Stencil.Text.CaseMapping
import Stencil.Text.CaseProperty

/-!
# Lower and upper case of texts

Every character is replaced by its full case mapping, whatever the language of
the text.  One mapping depends on its neighbourhood: a capital sigma at the end
of a word becomes a final sigma.
-/

namespace Stencil

def capitalSigma : Char := 'Σ'

/-- Whether the first character that is not looked through has case. -/
def meetsCased (characters : List Char) : Bool :=
  match characters.dropWhile (fun character =>
      inRanges caseIgnorableRanges character.toNat) with
  | [] => false
  | character :: _ => inRanges casedRanges character.toNat

/-- Whether a place is at the end of a word: a cased character before it, and
none after it.  The text before is given nearest character first. -/
def isWordEnd (before after : List Char) : Bool :=
  meetsCased before && !meetsCased after

/-- The full mapping of one code point by a table of expansions and a table of
runs. -/
def mapCodePoint (expansions : List (Nat × List Nat)) (runs : List CaseRun)
    (codePoint : Nat) : List Char :=
  match expansions.lookup codePoint with
  | some codePoints => codePoints.map Char.ofNat
  | none => [Char.ofNat (CaseRun.lookup runs codePoint)]

/-- The lower-case form of one character, apart from its neighbourhood. -/
def lowerCharacter (character : Char) : List Char :=
  if character.toNat < 0x80 then
    [character.toLower]
  else
    mapCodePoint lowerCaseExpansions lowerCaseRuns character.toNat

def upperCharacter (character : Char) : List Char :=
  if character.toNat < 0x80 then
    [character.toUpper]
  else
    mapCodePoint upperCaseExpansions upperCaseRuns character.toNat

/-- The lower-case form of a text that follows `before`, which is given nearest
character first. -/
def lowerFrom (before : List Char) : List Char → List Char
  | [] => []
  | character :: after =>
      let mapped :=
        if character = capitalSigma then
          [if isWordEnd before after then 'ς' else 'σ']
        else
          lowerCharacter character
      mapped ++ lowerFrom (character :: before) after

def lowerCase (text : String) : String :=
  String.ofList (lowerFrom [] text.toList)

def upperCase (text : String) : String :=
  String.ofList (text.toList.flatMap upperCharacter)

end Stencil
