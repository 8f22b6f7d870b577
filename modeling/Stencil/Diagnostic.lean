import Stencil.Source

/-!
# Diagnostics and their rendering

A diagnostic tells one thing that is wrong with a template: a code, a message,
the extent it concerns, and optional further remarks.  Rendering shows the
source line with carets under the extent, plain or with terminal colours.
-/

namespace Stencil

/-- One reported problem, ready to be shown. -/
structure Diagnostic where
  code : Option String
  message : String
  extent : Extent
  label : Option String
  help : Option String
  note : Option String
  deriving DecidableEq, Repr, Inhabited

/-- The terminal styles used in rendered diagnostics. -/
inductive Style where
  | red
  | boldRed
  | boldWhite
  | cyan
  | green
  | blue
  deriving DecidableEq, Repr

/-- The parameters of the escape sequence that starts a style. -/
def Style.parameters : Style → String
  | .red => "31"
  | .boldRed => "1;31"
  | .boldWhite => "1;97"
  | .cyan => "96"
  | .green => "32"
  | .blue => "34"

/-- An escape sequence that selects a style or, with parameter zero, none. -/
def escapeSequence (parameters : String) : String :=
  "\x1b[" ++ parameters ++ "m"

/-- Put a text between the start of a style and the return to none, when
colours are wanted. -/
def paint (colored : Bool) (style : Style) (text : String) : String :=
  if colored then
    escapeSequence style.parameters ++ text ++ escapeSequence "0"
  else
    text

namespace Diagnostic

/-- The word that opens a rendered diagnostic, with its code in brackets. -/
def heading (diagnostic : Diagnostic) : String :=
  match diagnostic.code with
  | some code => "error[" ++ code ++ "]"
  | none => "error"

/-- The number of carets under `line`.  An extent over several lines is
underlined to the end of its first line, and there is always one caret. -/
def caretCount (diagnostic : Diagnostic) (line : String) : Nat :=
  let extent := diagnostic.extent
  let width :=
    if extent.isSingleLine then
      extent.stop.column - extent.start.column
    else
      line.length + 1 - extent.start.column
  max width 1

def run (character : Char) (count : Nat) : String :=
  String.ofList (List.replicate count character)

/-- The source line under its number, with carets and the label below it. -/
def snippet (diagnostic : Diagnostic) (colored : Bool) (line : String) : String :=
  let number := toString diagnostic.extent.start.line
  let gutter := run ' ' number.length
  let bar := paint colored .cyan "|"
  let padding := run ' ' (diagnostic.extent.start.column - 1)
  let carets := paint colored .red (run '^' (diagnostic.caretCount line))
  let label :=
    match diagnostic.label with
    | some label => " " ++ paint colored .boldRed label
    | none => ""
  gutter ++ " " ++ bar ++ "\n" ++
    paint colored .cyan number ++ " " ++ bar ++ " " ++ line ++ "\n" ++
    gutter ++ " " ++ bar ++ " " ++ padding ++ carets ++ label ++ "\n"

/-- A remark on a line of its own, or nothing. -/
def remark (colored : Bool) (style : Style) (title : String) :
    Option String → String
  | some text => "  " ++ paint colored style title ++ ": " ++ text ++ "\n"
  | none => ""

/-- The full text of a diagnostic against its source. -/
def render (diagnostic : Diagnostic) (colored : Bool) (source : Source) : String :=
  paint colored .red diagnostic.heading ++ ": " ++
    paint colored .boldWhite diagnostic.message ++ "\n" ++
    "  " ++ paint colored .cyan "-->" ++ " " ++ source.name ++ ":" ++
    diagnostic.extent.start.text ++ "\n" ++
    (match source.line? diagnostic.extent.start.line with
      | some line => diagnostic.snippet colored line
      | none => "") ++
    remark colored .green "help" diagnostic.help ++
    remark colored .blue "note" diagnostic.note

/-- The texts of several diagnostics, separated by empty lines. -/
def renderAll (diagnostics : List Diagnostic) (colored : Bool) (source : Source) :
    String :=
  String.intercalate "\n" (diagnostics.map fun diagnostic =>
    diagnostic.render colored source)

/-- Order diagnostics by the byte offset at which they start; those that start
together keep the order in which they were reported. -/
def sortByStart (diagnostics : List Diagnostic) : List Diagnostic :=
  diagnostics.mergeSort fun left right =>
    left.extent.start.offset ≤ right.extent.start.offset

end Diagnostic

end Stencil
