import Stencil.Macro

/-!
# Macros by behaviour

Simple behaviours from which a host makes macros of its own, under any name and
for any number of arguments.  A behaviour that reads its first argument takes a
missing one for null.
-/

namespace Stencil

/-- What a simple macro does with its arguments. -/
inductive MacroBehaviour where
  /-- The first argument. -/
  | first
  /-- All arguments as an array. -/
  | list
  /-- The number of arguments. -/
  | count
  /-- Always the same value. -/
  | constant (value : Value)
  /-- The text of the first argument from back to front, never quoted. -/
  | reverse
  /-- The name of the type of the first argument. -/
  | typeName
  /-- Always the same error. -/
  | reject (message : String)
  /-- The sum of all arguments, which must be integers. -/
  | sum
  /-- The error that the first argument is not what was expected. -/
  | demand (expected : String)
  deriving Repr, Inhabited

namespace MacroBehaviour

/-- The sum of integers, or the error of the first value that is none. -/
def sumFrom (total : Int64) : List Value → Except MacroError Value
  | [] => .ok (.integer total)
  | value :: values =>
      match value.integer? with
      | some number => sumFrom (total + number) values
      | none => .error (.unreadable value.text "an Int")

def apply (behaviour : MacroBehaviour) (arguments : List Value) :
    Except MacroError Value :=
  let first := arguments.headD .null
  match behaviour with
  | .first => .ok first
  | .list => .ok (.array arguments)
  | .count => .ok (.integer (Int64.ofNat arguments.length))
  | .constant value => .ok value
  | .reverse => .ok (.verbatim (String.ofList first.text.toList.reverse))
  | .typeName => .ok (.string first.typeName)
  | .reject message => .error (.rejected message)
  | .sum => sumFrom 0 arguments
  | .demand expected => .error (.unreadable first.text expected)

def toMacro (behaviour : MacroBehaviour) (name : String) (arity : Arity) : Macro :=
  ⟨name, arity, behaviour.apply⟩

end MacroBehaviour

end Stencil
