import Stencil.Calendar.Pattern
import Stencil.Calendar.Reader
import Stencil.Macro
import Stencil.Text.Casing
import Stencil.Text.Splitting

/-!
# Built-in macros

The macros that are there without being registered.  All but one of them read
the text of their arguments, so that the text of a number is as good as the
number.
-/

namespace Stencil

/-- The built-in macros. -/
inductive Builtin where
  /-- A text that is written without quotes. -/
  | verbatim
  /-- A 32-bit integer. -/
  | int
  /-- A finite floating-point number. -/
  | double
  /-- Whether two values are equal. -/
  | equals
  /-- The text of a value. -/
  | string
  /-- A 64-bit integer. -/
  | long
  /-- A date, by a pattern or by one of the usual ones. -/
  | date
  /-- A text in lower case. -/
  | lower
  /-- A text in upper case. -/
  | upper
  /-- A truth value. -/
  | boolean
  /-- The parts of a text between delimiters. -/
  | split
  /-- The texts of several values, one after the other. -/
  | concat
  deriving DecidableEq, Repr, Inhabited

namespace Builtin

/-- The built-in macros in the order in which they are registered. -/
def all : List Builtin :=
  [verbatim, int, double, equals, string, long, date, lower, upper, boolean,
    split, concat]

/-- The name by which templates call a built-in macro. -/
def name : Builtin → String
  | .verbatim => "noescp"
  | .int => "int"
  | .double => "double"
  | .equals => "equals"
  | .string => "string"
  | .long => "long"
  | .date => "date"
  | .lower => "lower"
  | .upper => "upper"
  | .boolean => "boolean"
  | .split => "split"
  | .concat => "concat"

/-- How many arguments a built-in macro takes. -/
def arity : Builtin → Arity
  | .date => ⟨1, some 2⟩
  | .concat => ⟨1, none⟩
  | .equals => .exactly 2
  | .split => .exactly 2
  | _ => .exactly 1

def orUnreadable (text expected : String) :
    Option Value → Except MacroError Value
  | some value => .ok value
  | none => .error (.unreadable text expected)

section OrUnreadable

variable {text expected : String} {read : Option Value}

theorem orUnreadable_eq_ok_iff {value : Value} :
    orUnreadable text expected read = .ok value ↔ read = some value := by
  cases read <;> simp [orUnreadable]

theorem orUnreadable_eq_error_iff :
    orUnreadable text expected read = .error (.unreadable text expected) ↔ read = none := by
  cases read <;> simp [orUnreadable]

end OrUnreadable

def readInteger (width : Nat) (text : String) : Except MacroError Value :=
  orUnreadable text ("a " ++ toString width ++ "-bit integer")
    ((readWord? width text.toList).map Value.integer)

def readNumber (text : String) : Except MacroError Value :=
  orUnreadable text "a finite number"
    ((readFinite? text.toList).map Value.float)

/-- Read a truth value, in any case of its letters. -/
def readBoolean (text : String) : Except MacroError Value :=
  orUnreadable text "a boolean" <|
    let letters := text.toList.map Char.toLower
    if letters = "true".toList then some (.boolean true)
    else if letters = "false".toList then some (.boolean false)
    else none

def usualDatePatterns : List String :=
  ["%Y-%m-%dT%H:%M:%S", "%Y-%m-%d %H:%M:%S", "%Y-%m-%d"]

def readDateBy? (text pattern : String) : Option Value :=
  (readPattern? pattern.toList).bind fun items =>
    (readMoment? items text).map Value.date

/-- Read a date by the first of the usual patterns that fits. -/
def readUsualDate (text : String) : Except MacroError Value :=
  orUnreadable text "a date" (usualDatePatterns.findSome? (readDateBy? text))

def readPatternedDate (text pattern : String) : Except MacroError Value :=
  match readPattern? pattern.toList with
  | none =>
      .error (.rejected ("'" ++ pattern ++ "' is not a valid date format"))
  | some items =>
      orUnreadable text ("a date in the format '" ++ pattern ++ "'")
        ((readMoment? items text).map Value.date)

/-- The value of a built-in macro for its arguments; there is none when it reads
an argument that is not there. -/
def value? : Builtin → List Value → Option (Except MacroError Value)
  | .verbatim, value :: _ => some (.ok (.verbatim value.text))
  | .int, value :: _ => some (readInteger 32 value.text)
  | .double, value :: _ => some (readNumber value.text)
  | .equals, left :: right :: _ => some (.ok (.boolean (left.equals right)))
  | .string, value :: _ => some (.ok (.string value.text))
  | .long, value :: _ => some (readInteger 64 value.text)
  | .date, [value] => some (readUsualDate value.text)
  | .date, value :: pattern :: _ =>
      some (readPatternedDate value.text pattern.text)
  | .lower, value :: _ => some (.ok (.string (lowerCase value.text)))
  | .upper, value :: _ => some (.ok (.string (upperCase value.text)))
  | .boolean, value :: _ => some (readBoolean value.text)
  | .split, value :: delimiter :: _ =>
      some (.ok (.array ((splitText delimiter.text value.text).map Value.string)))
  | .concat, values => some (.ok (.string (String.join (values.map Value.text))))
  | _, _ => none

def missingArgument : MacroError := .rejected "an argument is missing"

def toMacro (builtin : Builtin) : Macro where
  name := builtin.name
  arity := builtin.arity
  apply arguments := (builtin.value? arguments).getD (.error missingArgument)

/-- Every number of arguments that a built-in macro takes is enough for it. -/
theorem isSome_value?_of_accepts {builtin : Builtin} {arguments : List Value}
    (accepted : builtin.arity.accepts arguments.length = true) :
    (builtin.value? arguments).isSome = true := by
  cases builtin <;> rcases arguments with _ | ⟨first, _ | ⟨second, others⟩⟩ <;>
    simp_all [arity, Arity.accepts, Arity.exactly, value?]

def ofName? (name : String) : Option Builtin :=
  all.find? fun builtin => builtin.name == name

end Builtin

end Stencil
