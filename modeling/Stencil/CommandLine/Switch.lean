/-!
# Commands and switches

The commands of the command line, the switches that each of them takes, and the
words in which both are described.
-/

namespace Stencil

def programName : String := "qtemplate"

def programVersion : String := "0.1.0"

/-- A word that begins with a hyphen and changes what a command does. -/
inductive Switch where
  | verbose
  | help
  | version
  | data
  | config
  | keepGoing
  | color
  deriving DecidableEq, Repr, Inhabited

namespace Switch

def letter? : Switch → Option Char
  | .verbose => some 'v'
  | .help => some 'h'
  | .version => some 'V'
  | .data => some 'd'
  | .config => some 'c'
  | .keepGoing => none
  | .color => none

def name : Switch → String
  | .verbose => "verbose"
  | .help => "help"
  | .version => "version"
  | .data => "data"
  | .config => "config"
  | .keepGoing => "keep-going"
  | .color => "color"

def valueName? : Switch → Option String
  | .data => some "DATA"
  | .config => some "CONFIG"
  | _ => none

def takesValue (switch : Switch) : Bool :=
  switch.valueName?.isSome

def description : Switch → String
  | .verbose => "Enable verbose logging (repeat for more detail)"
  | .help => "Print help"
  | .version => "Print version"
  | .data => "JSON data: an object is one record, an array is a batch"
  | .config => "TOML configuration file"
  | .keepGoing => "Log and skip records that fail instead of stopping"
  | .color => "Colorize diagnostics"

end Switch

/-- The names of the commands. -/
inductive CommandName where
  | resolve
  | check
  | macros
  deriving DecidableEq, Repr, Inhabited

namespace CommandName

def all : List CommandName := [resolve, check, macros]

def text : CommandName → String
  | .resolve => "resolve"
  | .check => "check"
  | .macros => "macros"

def ofText? (word : String) : Option CommandName :=
  all.find? fun command => command.text == word

def description : CommandName → String
  | .resolve => "Resolve a template into query text"
  | .check => "Check template syntax without resolving"
  | .macros => "List the registered macros"

def switches : CommandName → List Switch
  | .resolve => [.data, .verbose, .config, .keepGoing, .help]
  | .check => [.config, .verbose, .color, .help]
  | .macros => [.verbose, .help]

/-- How many words a command takes beside its switches. -/
def operandCount : CommandName → Nat
  | .resolve => 1
  | .check => 1
  | .macros => 0

end CommandName

/-- The switches that may stand before the command. -/
def leadingSwitches : List Switch := [.verbose, .help, .version]

end Stencil
