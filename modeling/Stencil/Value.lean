import Stencil.Calendar.Moment
import Stencil.Named
import Stencil.Text.Quoting

/-!
# Values

The values that flow through a template: data, constants and the results of
macros share one type.  An object has values by name, in the order in which the
names were first put in.
-/

namespace Stencil

/-- A value. -/
inductive Value where
  | null
  | boolean (value : Bool)
  | integer (number : Int64)
  | float (number : Binary64)
  | string (content : String)
  /-- Text that is never put in quotes. -/
  | verbatim (content : String)
  | date (moment : Moment)
  | array (items : List Value)
  | object (fields : Named Value)
  deriving Repr, Inhabited

/-- The values of an object or of a record. -/
abbrev Fields : Type := Named Value

namespace Value

def typeName : Value → String
  | .null => "Null"
  | .boolean _ => "Bool"
  | .integer _ => "Int"
  | .float _ => "Float"
  | .string _ => "String"
  | .verbatim _ => "Verbatim"
  | .date _ => "Date"
  | .array _ => "Array"
  | .object _ => "Object"

def integer? : Value → Option Int64
  | .integer number => some number
  | _ => none

def booleanText (value : Bool) : String :=
  if value then "true" else "false"

def bracketed (items : List String) : String :=
  "[" ++ String.intercalate "," items ++ "]"

def braced (items : List String) : String :=
  "\x7b" ++ String.intercalate ", " items ++ "\x7d"

mutual

/-- The text of a value: what a variable writes to the output, and what a macro
reads. -/
def text : Value → String
  | .null => "null"
  | .boolean value => booleanText value
  | .integer number => integerText number.toInt
  | .float number => number.valueText
  | .string content => content
  | .verbatim content => content
  | .date moment => moment.text
  | .array items => bracketed (itemTexts items)
  | .object fields => braced (fieldTexts fields)

def itemTexts : List Value → List String
  | [] => []
  | item :: items => item.text :: itemTexts items

/-- The texts of fields, each after its name. -/
def fieldTexts : Named Value → List String
  | ⟨names, _, value⟩ =>
      names.attach.map fun name => name.val ++ ": " ++ (value name).text

end

mutual

/-- The text of the result of a macro in the output: strings are quoted, the
items of an array stand side by side. -/
def render : Value → String
  | .string content => quote content
  | .array items => String.intercalate ", " (renderItems items)
  | .null => text .null
  | .boolean value => text (.boolean value)
  | .integer number => text (.integer number)
  | .float number => text (.float number)
  | .verbatim content => text (.verbatim content)
  | .date moment => text (.date moment)
  | .object fields => text (.object fields)

/-- The texts of several values in the output. -/
def renderItems : List Value → List String
  | [] => []
  | item :: items => item.render :: renderItems items

end

mutual

/-- Equality of values.  Integers and floating-point numbers are compared as
floating-point numbers, objects without regard to the order of their names. -/
def equals : Value → Value → Bool
  | .null, .null => true
  | .boolean left, .boolean right => left == right
  | .integer left, .integer right => left == right
  | .float left, .float right => left.equals right
  | .integer left, .float right => (Binary64.ofInt left.toInt).equals right
  | .float left, .integer right => left.equals (Binary64.ofInt right.toInt)
  | .string left, .string right => left == right
  | .verbatim left, .verbatim right => left == right
  | .date left, .date right => left == right
  | .array left, .array right => equalItems left right
  | .object left, .object right =>
      left.names.length == right.names.length && equalFields left right
  | _, _ => false

def equalItems : List Value → List Value → Bool
  | [], [] => true
  | left :: lefts, right :: rights => left.equals right && equalItems lefts rights
  | _, _ => false

/-- Whether every field is found in other fields, with an equal value. -/
def equalFields : Named Value → Named Value → Bool
  | ⟨names, _, value⟩, others =>
      names.attach.all fun name =>
        match others.get? name.val with
        | some other => (value name).equals other
        | none => false

end

end Value

/-- Things that stand for values. -/
class ToValue (α : Type) where
  toValue : α → Value

instance : ToValue Bool := ⟨.boolean⟩

instance : ToValue Int64 := ⟨.integer⟩

instance : ToValue Int32 := ⟨fun number => .integer number.toInt64⟩

instance : ToValue Binary64 := ⟨.float⟩

instance : ToValue String := ⟨.string⟩

instance {α : Type} [ToValue α] : ToValue (List α) :=
  ⟨fun items => .array (items.map ToValue.toValue)⟩

end Stencil
