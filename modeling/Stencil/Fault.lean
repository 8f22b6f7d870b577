import Stencil.Diagnostic

/-!
# Faults of a template

The ways in which a template can be malformed, each with its code, its wording
and its hints.  A report is a fault at a place of the template; a diagnostic is
made from it once lines and columns are wanted.
-/

namespace Stencil

/-- What can be wrong with the form of a template. -/
inductive Fault where
  /-- Something else was expected than what was found. -/
  | unexpected (found : String) (expected : List String)
  /-- An opening bracket without its closing one. -/
  | unclosedDelimiter (opening : Char)
  /-- A block without its `#end`. -/
  | unclosedBlock (keyword : String)
  /-- A directive that the language does not have. -/
  | unknownDirective (name : String)
  /-- A string literal without its closing quote. -/
  | unterminatedString (quote : Char)
  /-- A character that starts no token of a header. -/
  | unexpectedCharacter (found : Char)
  /-- A macro name that no argument list follows. -/
  | missingArguments (name : String)
  /-- Blocks or macro calls nested deeper than the limit. -/
  | nestingTooDeep (limit : Nat)
  /-- A keyword that continues or closes a block where no block is open. -/
  | orphanKeyword (keyword : String)
  deriving DecidableEq, Repr, Inhabited

def joinAlternatives : List String → String
  | [] => "something else"
  | [only] => only
  | [first, second] => first ++ " or " ++ second
  | alternatives =>
      String.intercalate ", " alternatives.dropLast ++ ", or " ++
        alternatives.getLast?.getD ""

/-- The directive that a common misspelling stands for. -/
def suggestDirective (found : String) : Option String :=
  if found ∈ ["fi", "iff"] then some "if"
  else if found ∈ ["elseif", "elsif", "elf"] then some "elif"
  else if found ∈ ["els", "esle"] then some "else"
  else if found ∈ ["endif", "endfor", "done", "fin"] then some "end"
  else if found ∈ ["foreach", "each", "fro"] then some "for"
  else if found ∈ ["set", "var", "assign"] then some "let"
  else none

def closingDelimiter (opening : Char) : Char :=
  if opening = '(' then ')'
  else if opening = '[' then ']'
  else opening

namespace Fault

def code : Fault → String
  | .unexpected _ _ => "E0001"
  | .unclosedDelimiter _ => "E0003"
  | .unclosedBlock _ => "E0003"
  | .unknownDirective _ => "E0010"
  | .unterminatedString _ => "E0011"
  | .unexpectedCharacter _ => "E0012"
  | .missingArguments _ => "E0013"
  | .nestingTooDeep _ => "E0014"
  | .orphanKeyword _ => "E0015"

def message : Fault → String
  | .unexpected found _ => "unexpected " ++ found
  | .unclosedDelimiter opening =>
      "missing closing '" ++ (closingDelimiter opening).toString ++ "'"
  | .unclosedBlock keyword => "unclosed '#" ++ keyword ++ "' block"
  | .unknownDirective name => "unknown directive '#" ++ name ++ "'"
  | .unterminatedString _ => "unterminated string literal"
  | .unexpectedCharacter found =>
      "unexpected character '" ++ found.toString ++ "'"
  | .missingArguments name =>
      "expected '(' after macro name '@" ++ name ++ "'"
  | .nestingTooDeep limit =>
      "nesting exceeds the maximum depth of " ++ toString limit
  | .orphanKeyword keyword =>
      "'#" ++ keyword ++ "' without a matching block opener"

/-- What is written beside the carets. -/
def label : Fault → String
  | .unexpected _ expected => "expected " ++ joinAlternatives expected
  | .unclosedDelimiter opening =>
      "'" ++ opening.toString ++ "' opened here is never closed"
  | .unclosedBlock _ => "this block is never closed"
  | .unknownDirective _ => "not a known directive"
  | .unterminatedString quote => "missing closing " ++ quote.toString
  | .unexpectedCharacter _ => "not valid inside a directive"
  | .missingArguments _ => "macro calls need an argument list"
  | .nestingTooDeep _ => "nested too deeply"
  | .orphanKeyword _ => "no open '#if' or '#for' block"

def help : Fault → Option String
  | .unclosedBlock keyword =>
      some ("add '#end' after the body of '#" ++ keyword ++ "'")
  | .unknownDirective name =>
      (suggestDirective name).map fun suggestion =>
        "did you mean '#" ++ suggestion ++ "'?"
  | _ => none

/-- How to write the sigil itself, where it may have been meant. -/
def note : Fault → Option String
  | .unknownDirective _ => some "write '##' for a literal '#'"
  | .missingArguments _ => some "write '@@' for a literal '@'"
  | _ => none

def diagnosticAt (fault : Fault) (extent : Extent) : Diagnostic where
  code := some fault.code
  message := fault.message
  extent := extent
  label := some fault.label
  help := fault.help
  note := fault.note

end Fault

/-- A fault together with the bytes it concerns. -/
structure Report where
  fault : Fault
  span : Span
  deriving DecidableEq, Repr, Inhabited

def Report.diagnostic (report : Report) (source : Source) : Diagnostic :=
  report.fault.diagnosticAt (source.extentOf report.span)

end Stencil
