import Stencil.Macro
import Stencil.Source

/-!
# Evaluation errors

What can go wrong while a well-formed template is evaluated, and how it is told.
Every error has the position of the expression or block that it concerns.
-/

namespace Stencil

/-- What went wrong in an evaluation. -/
inductive EvaluationFault where
  /-- The root of a path has no value. -/
  | undefinedVariable (name : String)
  /-- A step of a path leads nowhere. -/
  | unresolvedPath (path : String) (segment : String) (reason : String)
  /-- No macro has the name of a call. -/
  | undefinedMacro (name : String)
  /-- A macro does not take so many arguments. -/
  | wrongArgumentCount (name : String) (arity : Arity) (found : Nat)
  /-- The header of a block has a value of the wrong type. -/
  | wrongType (message : String)
  /-- A macro has no value for its arguments. -/
  | macroFailed (name : String) (cause : MacroError)
  /-- Blocks or calls are nested deeper than the limit. -/
  | tooDeep (depth : Nat) (limit : Nat)
  deriving DecidableEq, Repr, Inhabited

/-- Something that went wrong, and where. -/
structure EvaluationError where
  fault : EvaluationFault
  position : Position
  deriving DecidableEq, Repr, Inhabited

namespace EvaluationFault

def code : EvaluationFault → String
  | .undefinedMacro _ => "E0701"
  | .wrongArgumentCount _ _ _ => "E0702"
  | .wrongType _ => "E0703"
  | .macroFailed _ _ => "E0704"
  | .tooDeep _ _ => "E0705"
  | .undefinedVariable _ => "E0710"
  | .unresolvedPath _ _ _ => "E0711"

def messageAt (place : String) : EvaluationFault → String
  | .undefinedVariable name => "undefined variable '" ++ name ++ "' at " ++ place
  | .unresolvedPath path segment reason =>
      "cannot resolve '" ++ segment ++ "' in " ++ path ++ " at " ++ place ++
        ": " ++ reason
  | .undefinedMacro name => "undefined macro '@" ++ name ++ "' at " ++ place
  | .wrongArgumentCount name arity found =>
      "macro '@" ++ name ++ "' expects " ++ arity.text ++ ", found " ++
        toString found ++ " at " ++ place
  | .wrongType message => "type error at " ++ place ++ ": " ++ message
  | .macroFailed name cause =>
      "macro '@" ++ name ++ "' failed at " ++ place ++ ": " ++ cause.message
  | .tooDeep depth limit =>
      "evaluation exceeded recursion limit at " ++ place ++ ": depth " ++
        toString depth ++ " > max " ++ toString limit

def suggestion : EvaluationFault → Option String
  | .undefinedVariable name =>
      some ("provide '" ++ name ++
        "' in the data, or bind it with '#let' or '#for' before use")
  | .undefinedMacro name =>
      some ("register a macro named '" ++ name ++ "' before resolving")
  | .wrongArgumentCount name arity _ =>
      some ("'@" ++ name ++ "' takes " ++ arity.text)
  | .tooDeep _ _ =>
      some "reduce nesting, or raise max_depth in the configuration"
  | _ => none

def cause? : EvaluationFault → Option MacroError
  | .macroFailed _ cause => some cause
  | _ => none

end EvaluationFault

def EvaluationError.message (error : EvaluationError) : String :=
  error.fault.messageAt error.position.text

end Stencil
