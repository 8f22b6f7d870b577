import Stencil.Evaluation
import Stencil.Program.Parse
import Stencil.Value.Json

/-!
# The engine

An engine has a registry of macros, which starts with the built-in ones, and
settings.  It checks templates and resolves them against records of data, one
record or a batch; a batch is parsed once.  Every answer comes with the events
that led to it.
-/

namespace Stencil

/-- Why a template has no text. -/
inductive TemplateError where
  /-- The template is malformed; its diagnostics, and all of them as one text. -/
  | malformed (diagnostics : List Diagnostic) (report : String)
  /-- The evaluation stopped. -/
  | stopped (error : EvaluationError)
  deriving DecidableEq, Repr, Inhabited

namespace TemplateError

def message : TemplateError → String
  | .malformed _ report => "template syntax error:\n" ++ report
  | .stopped error => error.message

def code : TemplateError → String
  | .malformed _ _ => "E0000"
  | .stopped error => error.fault.code

/-- The position of an error: that of the first diagnostic, or the one at which
the evaluation stopped. -/
def position? : TemplateError → Option Position
  | .malformed diagnostics _ =>
      diagnostics.head?.map fun diagnostic => diagnostic.extent.start
  | .stopped error => some error.position

def suggestion : TemplateError → Option String
  | .malformed _ _ => none
  | .stopped error => error.fault.suggestion

def isMalformed : TemplateError → Bool
  | .malformed _ _ => true
  | .stopped _ => false

def cause? : TemplateError → Option MacroError
  | .malformed _ _ => none
  | .stopped error => error.fault.cause?

/-- An error with its suggestion on a line of its own. -/
def advice (error : TemplateError) : String :=
  match error.suggestion with
  | some suggestion => error.message ++ "\n  help: " ++ suggestion
  | none => error.message

end TemplateError

namespace ParsedTemplate

/-- The program of a parsed template, or everything that is wrong with it. -/
def program? (parsed : ParsedTemplate) : Except TemplateError Program :=
  if parsed.diagnostics = [] then
    .ok parsed.program
  else
    .error (.malformed parsed.diagnostics (parsed.report false))

def event (parsed : ParsedTemplate) : LogEvent :=
  .parsed parsed.source.content.utf8ByteSize parsed.program.nodes.length
    parsed.diagnostics.length

end ParsedTemplate

/-- An answer and the events that led to it. -/
structure Logged (α : Type) where
  answer : α
  events : List LogEvent
  deriving Repr, Inhabited

/-- An engine for templates. -/
structure Engine where
  registry : Registry
  settings : Settings
  deriving Inhabited

namespace Engine

def create (settings : Settings) : Engine :=
  ⟨Registry.builtins, settings⟩

def creationEvents : List LogEvent :=
  Registry.empty.registrationEvents Registry.builtinMacros

def register (engine : Engine) (added : Macro) : Engine :=
  { engine with registry := engine.registry.register added }

/-- The names of the macros, in increasing order. -/
def macroNames (engine : Engine) : List String :=
  engine.registry.names

def parse (engine : Engine) (template : String) : ParsedTemplate :=
  parseTemplate engine.settings template

def evaluatorFor (engine : Engine) (parsed : ParsedTemplate) : Evaluator :=
  ⟨engine.registry, parsed.source, engine.settings.maxDepth⟩

def evaluateRecord (engine : Engine) (parsed : ParsedTemplate) (data : Fields) :
    Logged (Except TemplateError String) :=
  let state : EvaluationState := { environment := { data } }
  let evaluation := (engine.evaluatorFor parsed).evaluate parsed.program
  let (result, after) := evaluation.outcome state
  ⟨result.mapError .stopped, after.log.toList⟩

def check (engine : Engine) (template : String) :
    Logged (Except TemplateError Program) :=
  let parsed := engine.parse template
  ⟨parsed.program?, [parsed.event]⟩

def resolve (engine : Engine) (template : String) (data : Fields) :
    Logged (Except TemplateError String) :=
  let parsed := engine.parse template
  match parsed.program? with
  | .error error => ⟨.error error, [parsed.event]⟩
  | .ok _ =>
      let logged := engine.evaluateRecord parsed data
      ⟨logged.answer, parsed.event :: logged.events⟩

/-- Resolve a template against many records.  A malformed template fails the
whole batch; all other errors concern one record. -/
def resolveBatch (engine : Engine) (template : String) (records : List Fields) :
    Logged (Except TemplateError (List (Except TemplateError String))) :=
  let parsed := engine.parse template
  match parsed.program? with
  | .error error => ⟨.error error, [parsed.event]⟩
  | .ok _ =>
      let logged := records.map (engine.evaluateRecord parsed)
      ⟨.ok (logged.map Logged.answer),
        parsed.event :: logged.flatMap Logged.events⟩

end Engine

end Stencil
