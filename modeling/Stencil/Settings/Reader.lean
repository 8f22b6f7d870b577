import Stencil.Number.Text
import Stencil.Settings
import Stencil.Source

/-!
# Reading settings

Settings are written one to a line, as a name, an equals sign and an integer or
a truth value.  Names may stand in quotes, and a number sign starts a comment.
Unknown names, names given twice and values of the wrong type are refused.
-/

namespace Stencil

/-- Why a settings text cannot be used. -/
inductive SettingsError where
  /-- The text is not a list of known settings. -/
  | malformed
  /-- The nesting limit is zero. -/
  | zeroDepth
  deriving DecidableEq, Repr, Inhabited

/-- What is said about settings that cannot be used. -/
def SettingsError.message : SettingsError → String
  | .malformed => "invalid template config: expected settings, one to a line"
  | .zeroDepth => "max-depth must be at least 1"

/-- One setting with its value. -/
inductive Setting where
  | maxDepth (limit : Nat)
  | trimLineBreaks (trim : Bool)
  deriving DecidableEq, Repr, Inhabited

namespace Setting

def name : Setting → String
  | .maxDepth _ => "max-depth"
  | .trimLineBreaks _ => "trim-directive-newlines"

def applyTo (setting : Setting) (settings : Settings) : Settings :=
  match setting with
  | .maxDepth limit => { settings with maxDepth := limit }
  | .trimLineBreaks trim => { settings with trimLineBreaks := trim }

def isNameCharacter (character : Char) : Bool :=
  character.isAlphanum || character == '-' || character == '_'

def characterOfDigits? (digits : List Char) : Option Char := do
  let codePoint ← hexValue? digits
  if codePoint.isValidChar then some (Char.ofNat codePoint) else none

/-- Read the name in double quotes up to the closing quote.  Of the escapes only
those by number can stand for a character of a setting's name. -/
def readQuotedName? : List Char → Option (List Char × List Char)
  | [] => none
  | '"' :: rest => some ([], rest)
  | '\\' :: 'u' :: a :: b :: c :: d :: rest => do
      let character ← characterOfDigits? [a, b, c, d]
      let (name, after) ← readQuotedName? rest
      some (character :: name, after)
  | '\\' :: 'U' :: a :: b :: c :: d :: e :: f :: g :: h :: rest => do
      let character ← characterOfDigits? [a, b, c, d, e, f, g, h]
      let (name, after) ← readQuotedName? rest
      some (character :: name, after)
  | character :: rest =>
      if character = '\\' then
        none
      else do
        let (name, after) ← readQuotedName? rest
        some (character :: name, after)

/-- Read a name, bare or in quotes. -/
def readName? : List Char → Option (List Char × List Char)
  | '"' :: rest => readQuotedName? rest
  | '\'' :: rest =>
      match rest.dropWhile (· != '\'') with
      | [] => none
      | _ :: after => some (rest.takeWhile (· != '\''), after)
  | text => some (text.takeWhile isNameCharacter, text.dropWhile isNameCharacter)

def addDigit? (base number : Nat) (digit : Char) : Option Nat := do
  let value ← hexDigit? digit
  if value < base then some (base * number + value) else none

/-- Read digits of a base, between which single underscores may stand. -/
def readDigits? (base number : Nat) : List Char → Option Nat
  | [] => none
  | [digit] => addDigit? base number digit
  | digit :: '_' :: rest =>
      (addDigit? base number digit).bind fun number => readDigits? base number rest
  | digit :: rest =>
      (addDigit? base number digit).bind fun number => readDigits? base number rest

/-- Read decimal digits, which start with zero only for zero itself. -/
def readDecimalDigits? : List Char → Option Nat
  | ['0'] => some 0
  | '0' :: _ => none
  | digits => readDigits? 10 0 digits

/-- Read an integer that is not negative and fits into a signed 64-bit word. -/
def readLimit? (text : List Char) : Option Nat := do
  let number ←
    match text with
    | '0' :: 'x' :: digits => readDigits? 16 0 digits
    | '0' :: 'o' :: digits => readDigits? 8 0 digits
    | '0' :: 'b' :: digits => readDigits? 2 0 digits
    | '+' :: digits => readDecimalDigits? digits
    | '-' :: digits => (readDecimalDigits? digits).filter (· == 0)
    | digits => readDecimalDigits? digits
  if number < Nat.pow 2 63 then some number else none

def readFlag? (text : List Char) : Option Bool :=
  if text = "true".toList then some true
  else if text = "false".toList then some false
  else none

def ofTexts? (name value : List Char) : Option Setting :=
  if String.ofList name = (maxDepth 0).name then
    (readLimit? value).map maxDepth
  else if String.ofList name = (trimLineBreaks true).name then
    (readFlag? value).map trimLineBreaks
  else
    none

def isLineBlank (character : Char) : Bool :=
  character == ' ' || character == '\t'

def isCommentCharacter (character : Char) : Bool :=
  character == '\t' || (character.toNat ≥ 0x20 && character.toNat != 0x7f)

/-- Whether nothing but blanks and a comment is left of a line. -/
def isLineEnd (text : List Char) : Bool :=
  match text.dropWhile isLineBlank with
  | [] => true
  | '#' :: comment => comment.all isCommentCharacter
  | _ => false

def isValueCharacter (character : Char) : Bool :=
  isNameCharacter character || character == '+'

/-- Read the setting of a line that is neither blank nor a comment. -/
def ofLine? (line : List Char) : Option Setting := do
  let (name, afterName) ← readName? (line.dropWhile isLineBlank)
  match afterName.dropWhile isLineBlank with
  | '=' :: afterSign =>
      let text := afterSign.dropWhile isLineBlank
      if isLineEnd (text.dropWhile isValueCharacter) then
        ofTexts? name (text.takeWhile isValueCharacter)
      else
        none
  | _ => none

def ofLines? : List (List Char) → Option (List Setting)
  | [] => some []
  | line :: lines =>
      if isLineEnd line then
        ofLines? lines
      else do
        let setting ← ofLine? line
        let settings ← ofLines? lines
        some (setting :: settings)

end Setting

/-- A line without the carriage return that belongs to its line feed. -/
def dropReturn (line : List Char) : List Char :=
  if line.getLast? = some '\r' then line.dropLast else line

/-- The lines of a settings text, without the byte order mark that may open it.
Only before a line feed is a carriage return part of a line break. -/
def settingsLines (text : String) : List (List Char) :=
  let characters :=
    match text.toList with
    | '\ufeff' :: rest => rest
    | characters => characters
  let lines := splitLines characters
  lines.dropLast.map dropReturn ++ lines.getLast?.toList

/-- Read settings; what is not set keeps its usual value. -/
def readSettings (text : String) : Except SettingsError Settings :=
  match Setting.ofLines? (settingsLines text) with
  | none => .error .malformed
  | some given =>
      if (given.map Setting.name).Nodup then
        let settings :=
          given.foldl (fun settings setting => setting.applyTo settings) default
        if settings.maxDepth = 0 then .error .zeroDepth else .ok settings
      else
        .error .malformed

end Stencil
