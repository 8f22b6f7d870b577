import Stencil.Text.Quoting

/-!
# Log events

What the engine tells about its work, beside its results.  Events are collected
in the order in which they happen; whether they are shown is decided by their
level.
-/

namespace Stencil

/-- How important an event is. -/
inductive LogLevel where
  | warning
  | info
  | debug
  | trace
  deriving DecidableEq, Repr, Inhabited

namespace LogLevel

/-- The place of a level in the order from the most to the least important. -/
def rank : LogLevel → Nat
  | .warning => 0
  | .info => 1
  | .debug => 2
  | .trace => 3

/-- The name of a level, at the width of the longest. -/
def label : LogLevel → String
  | .warning => "WARN "
  | .info => "INFO "
  | .debug => "DEBUG"
  | .trace => "TRACE"

end LogLevel

/-- An event in the work of the engine or of the command line. -/
inductive LogEvent where
  /-- A macro was registered under a new name. -/
  | registered (name : String)
  /-- A macro was registered in place of another. -/
  | replaced (name : String)
  /-- A template was parsed. -/
  | parsed (byteSize : Nat) (nodeCount : Nat) (errorCount : Nat)
  /-- A loop was entered. -/
  | iterating (entryCount : Nat) (item : String)
  /-- A program was evaluated to its end. -/
  | evaluated (nodeCount : Nat) (byteSize : Nat)
  /-- A variable was looked up in vain. -/
  | undefinedVariable (name : String) (visible : List String)
  /-- Records are about to be resolved. -/
  | resolving (path : String) (recordCount : Nat)
  /-- A record failed and is left out. -/
  | skipping (index : Nat) (reason : String)
  /-- Some records were left out. -/
  | skipped (failedCount : Nat) (recordCount : Nat)
  deriving DecidableEq, Repr, Inhabited

namespace LogEvent

def level : LogEvent → LogLevel
  | .registered _ => .trace
  | .replaced _ => .debug
  | .parsed _ _ _ => .debug
  | .iterating _ _ => .trace
  | .evaluated _ _ => .trace
  | .undefinedVariable _ _ => .debug
  | .resolving _ _ => .info
  | .skipping _ _ => .warning
  | .skipped _ _ => .info

/-- The part of the program that an event comes from, as log lines name it. -/
def target : LogEvent → String
  | .registered _ => "engine::macro_system::registry"
  | .replaced _ => "engine::macro_system::registry"
  | .parsed _ _ _ => "engine::template_parser"
  | .iterating _ _ => "engine::macro_system::interpreter"
  | .evaluated _ _ => "engine::macro_system::interpreter"
  | .undefinedVariable _ _ => "engine::macro_system::interpreter"
  | .resolving _ _ => "qtemplate"
  | .skipping _ _ => "qtemplate"
  | .skipped _ _ => "qtemplate"

def message : LogEvent → String
  | .registered name => "registered macro '@" ++ name ++ "'"
  | .replaced name => "macro '@" ++ name ++ "' replaced by a new registration"
  | .parsed byteSize nodeCount errorCount =>
      "parsed template (" ++ toString byteSize ++ " bytes): " ++
        toString nodeCount ++ " top-level nodes, " ++ toString errorCount ++
        " errors"
  | .iterating entryCount item =>
      "iterating " ++ toString entryCount ++ " entries as '" ++ item ++ "'"
  | .evaluated nodeCount byteSize =>
      "evaluated " ++ toString nodeCount ++ " top-level nodes into " ++
        toString byteSize ++ " bytes"
  | .undefinedVariable name visible =>
      "undefined variable '" ++ name ++ "', visible: " ++ exposeList visible
  | .resolving path recordCount =>
      "resolving " ++ path ++ " against " ++ toString recordCount ++ " record(s)"
  | .skipping index reason =>
      "skipping record " ++ toString index ++ ": " ++ reason
  | .skipped failedCount recordCount =>
      toString failedCount ++ " of " ++ toString recordCount ++
        " record(s) skipped"

def line (event : LogEvent) : String :=
  "[" ++ event.level.label ++ "] " ++ event.target ++ " - " ++ event.message ++
    "\n"

def lines (finest : LogLevel) (events : List LogEvent) : String :=
  String.join ((events.filter fun event =>
    event.level.rank ≤ finest.rank).map line)

end LogEvent

end Stencil
