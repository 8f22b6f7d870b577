import Stencil.CommandLine.Arguments
import Stencil.CommandLine.Files
import Stencil.Engine
import Stencil.Settings.Reader

/-!
# The command line

What the program prints, and the code with which it ends, for the words of a
command line and the files that they name.
-/

namespace Stencil

/-- What a command brings about. -/
structure Transcript where
  /-- What is printed. -/
  output : String := ""
  /-- The events told, in order. -/
  events : List LogEvent := []
  /-- Diagnostics shown after the events. -/
  report : String := ""
  /-- Why the command failed. -/
  failure : Option String := none
  deriving DecidableEq, Repr, Inhabited

/-- What a run of the program leaves behind. -/
structure CommandOutcome where
  exitCode : Nat
  output : String
  errors : String
  deriving DecidableEq, Repr, Inhabited

def finestLevel : Nat → LogLevel
  | 0 => .warning
  | 1 => .info
  | 2 => .debug
  | _ => .trace

def Transcript.outcome (transcript : Transcript) (finest : LogLevel) :
    CommandOutcome :=
  let errors := LogEvent.lines finest transcript.events ++ transcript.report
  match transcript.failure with
  | none => ⟨0, transcript.output, errors⟩
  | some reason =>
      ⟨1, transcript.output, errors ++ "Error: " ++ reason ++ "\n"⟩

section Reading

variable {m : Type → Type} [Monad m]

/-- Read a file that has a text, or fail with a message made from its path. -/
def readFile (read : FileReader m) (path : String)
    (complaint : FileError → String) : ExceptT String m String :=
  ExceptT.mk do
    let result ← read path
    pure (result.mapError complaint)

def loadSettings (read : FileReader m) : Option String →
    ExceptT String m Settings
  | none => pure {}
  | some path => do
      let text ← readFile read path fun error =>
        "failed to read " ++ path ++ ": " ++ error.message
      match readSettings text with
      | .ok settings => pure settings
      | .error error => throw (path ++ ": " ++ error.message)

def loadTemplate (read : FileReader m) (path : String) :
    ExceptT String m String :=
  readFile read path fun error =>
    if error.isAbsence then "File not found: " ++ path
    else "Failed to read " ++ path ++ ": " ++ error.message

/-- The records of an array, each of which must be an object. -/
def recordsOfItems : Nat → List Value → Except String (List Fields)
  | _, [] => .ok []
  | index, item :: items => do
      let record ← item.toRecord.mapError fun error =>
        "record " ++ toString index ++ ": " ++ error.message
      let records ← recordsOfItems (index + 1) items
      .ok (record :: records)

/-- The records of a value: those of an array, or one alone. -/
def recordsOfValue : Value → Except String (List Fields)
  | .array items => recordsOfItems 0 items
  | value => (value.toRecord.mapError DataError.message).map ([·])

/-- Read the data file.  Without one there is one record without fields. -/
def loadRecords (read : FileReader m) : Option String →
    ExceptT String m (List Fields)
  | none => pure [∅]
  | some path => do
      let text ← readFile read path fun error =>
        "Failed to read " ++ path ++ ": " ++ error.message
      match Json.read? text with
      | none => throw (path ++ ": invalid JSON: expected one JSON value")
      | some value => ExceptT.mk (pure (recordsOfValue value))

end Reading

/-- Print the outputs of records from the one numbered `index` on.  A record that
fails is told and left out, or else ends the printing. -/
def printRecords (keepGoing : Bool) (index : Nat) :
    List (Except TemplateError String) → Transcript
  | [] => {}
  | .ok text :: results =>
      let rest := printRecords keepGoing (index + 1) results
      { rest with output := text ++ rest.output }
  | .error error :: results =>
      if keepGoing then
        let rest := printRecords keepGoing (index + 1) results
        { rest with events := .skipping index error.message :: rest.events }
      else
        { failure := some ("record " ++ toString index ++ ": " ++ error.advice) }

/-- The event of having left out records, if any was left out. -/
def skippedEvents (results : List (Except TemplateError String)) :
    List LogEvent :=
  let failedCount := results.countP fun result => !result.isOk
  if failedCount = 0 then [] else [.skipped failedCount results.length]

/-- Resolve a template against records and print the outputs. -/
def resolveRecords (settings : Settings) (path template : String)
    (records : List Fields) (keepGoing : Bool) : Transcript :=
  let logged := (Engine.create settings).resolveBatch template records
  let events :=
    .resolving path records.length :: Engine.creationEvents ++ logged.events
  match logged.answer with
  | .error error => { events, failure := some error.advice }
  | .ok results =>
      let printed := printRecords keepGoing 0 results
      let closing := if keepGoing then skippedEvents results else []
      { printed with events := events ++ printed.events ++ closing }

def checkTemplate (settings : Settings) (path template : String)
    (colored : Bool) : Transcript :=
  let parsed := parseTemplate settings template
  if parsed.diagnostics = [] then
    { output :=
        path ++ ": OK (" ++ toString parsed.program.nodes.length ++
          " top-level node(s))\n" }
  else
    { report := parsed.report colored
      failure :=
        some (path ++ ": " ++ toString parsed.diagnostics.length ++
          " syntax error(s)") }

def listMacros : Transcript :=
  { output :=
      String.join ((Engine.create {}).macroNames.map fun name =>
        "@" ++ name ++ "\n")
    events := Engine.creationEvents }

/-- A transcript, or that of a failure before there was one. -/
def Transcript.ofExcept : Except String Transcript → Transcript
  | .ok transcript => transcript
  | .error reason => { failure := some reason }

section Running

variable {m : Type → Type} [Monad m]

def Command.run (read : FileReader m) : Command → m Transcript
  | .resolve path data config keepGoing => do
      let result ← ExceptT.run do
        let settings ← loadSettings read config
        let template ← loadTemplate read path
        let records ← loadRecords read data
        pure (resolveRecords settings path template records keepGoing)
      pure (.ofExcept result)
  | .check path config colored => do
      let result ← ExceptT.run do
        let settings ← loadSettings read config
        let template ← loadTemplate read path
        pure (checkTemplate settings path template colored)
      pure (.ofExcept result)
  | .macros => pure listMacros

/-- Run the program on the words of a command line.  What cannot be understood is
answered with the help on the program.  Which events are told is decided by the words
alone: the environment variable that can set another filter is taken to be unset. -/
def runCommandLine (read : FileReader m) (words : List String) :
    m CommandOutcome :=
  match readCommandLine words with
  | .misuse => pure ⟨2, "", programHelp⟩
  | .print text => pure ⟨0, text, ""⟩
  | .run command verbosity => do
      let transcript ← command.run read
      pure (transcript.outcome (finestLevel verbosity))

end Running

end Stencil
