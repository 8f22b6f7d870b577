import Stencil.Value

/-!
# Macros

A macro is a named function from argument values to a value.  How many
arguments it takes belongs to it and is checked before it is applied.
-/

namespace Stencil

/-- The numbers of arguments that a macro takes; without a greatest one there is
no upper limit. -/
structure Arity where
  least : Nat
  greatest : Option Nat
  deriving DecidableEq, Repr, Inhabited

namespace Arity

def exactly (count : Nat) : Arity := ⟨count, some count⟩

def accepts (arity : Arity) (count : Nat) : Bool :=
  decide (arity.least ≤ count) &&
    match arity.greatest with
    | some greatest => decide (count ≤ greatest)
    | none => true

/-- The numbers of arguments in words. -/
def text (arity : Arity) : String :=
  match arity.greatest with
  | some greatest =>
      if greatest = arity.least then
        "exactly " ++ toString arity.least ++ " argument(s)"
      else
        toString arity.least ++ " to " ++ toString greatest ++ " arguments"
  | none => "at least " ++ toString arity.least ++ " argument(s)"

end Arity

/-- Why a macro has no value for its arguments. -/
inductive MacroError where
  /-- An argument cannot be read as what the macro needs. -/
  | unreadable (text : String) (expected : String)
  /-- Any other reason, in the words of the macro. -/
  | rejected (message : String)
  deriving DecidableEq, Repr, Inhabited

def MacroError.message : MacroError → String
  | .unreadable text expected => "cannot read '" ++ text ++ "' as " ++ expected
  | .rejected message => message

/-- A named function on values.  The macros of a host are taken to be just this: a name,
a least and a greatest number of arguments, and a function whose result depends on
nothing but the arguments.  Whether arguments are accepted follows from their number. -/
structure Macro where
  name : String
  arity : Arity
  apply : List Value → Except MacroError Value

instance : Inhabited Macro := ⟨⟨"", default, fun _ => .ok .null⟩⟩

end Stencil
