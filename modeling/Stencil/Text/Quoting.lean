import Stencil.Text.Hidden

/-!
# Quoted texts

Texts are put between double quotes in two ways: for the output of a template,
where only quotes and backslashes need care, and for log lines, where every
character that does not show is written by its number.
-/

namespace Stencil

/-- One character inside quotes: a quote or a backslash gets a backslash in front
of it. -/
def quoteCharacter (character : Char) : List Char :=
  if character = '"' ∨ character = '\\' then ['\\', character] else [character]

def quote (text : String) : String :=
  String.ofList ('"' :: text.toList.flatMap quoteCharacter ++ ['"'])

/-- The hexadecimal number of a character, between curly brackets. -/
def numberedCharacter (character : Char) : List Char :=
  ['\\', 'u', '\x7b'] ++ Nat.toDigits 16 character.toNat ++ ['\x7d']

/-- One character inside the quotes of a log line. -/
def exposeCharacter (character : Char) : List Char :=
  if character = '\x00' then ['\\', '0']
  else if character = '\t' then ['\\', 't']
  else if character = '\r' then ['\\', 'r']
  else if character = '\n' then ['\\', 'n']
  else if character = '"' ∨ character = '\\' then ['\\', character]
  else if isHidden character then numberedCharacter character
  else [character]

/-- A text between double quotes, with every character visible. -/
def expose (text : String) : String :=
  String.ofList ('"' :: text.toList.flatMap exposeCharacter ++ ['"'])

/-- Texts in square brackets, with every character visible. -/
def exposeList (texts : List String) : String :=
  "[" ++ String.intercalate ", " (texts.map expose) ++ "]"

end Stencil
