import Stencil.CommandLine.Help

/-!
# Command line arguments

The words of a command line are read from left to right.  Switches may stand
anywhere up to a word of two hyphens; those without a value may be written
together after one hyphen.  Asking for help or for the version ends the reading,
and so does the first mistake.
-/

namespace Stencil

/-- Why the reading of a command line ends early. -/
inductive EarlyEnd where
  | help
  | version
  | misuse
  deriving DecidableEq, Repr, Inhabited

/-- What the words of a command line have given so far. -/
structure Given where
  verbosity : Nat := 0
  flags : List Switch := []
  values : List (Switch × String) := []
  operands : List String := []
  deriving DecidableEq, Repr, Inhabited

namespace Given

def addFlag (given : Given) (switch : Switch) : Except EarlyEnd Given :=
  match switch with
  | .verbose => .ok { given with verbosity := given.verbosity + 1 }
  | .help => .error .help
  | .version => .error .version
  | switch =>
      if switch ∈ given.flags then
        .error .misuse
      else
        .ok { given with flags := switch :: given.flags }

/-- Take the value of a switch, which must not be empty. -/
def addValue (given : Given) (switch : Switch) (value : String) :
    Except EarlyEnd Given :=
  if value = "" ∨ (given.values.lookup switch).isSome then
    .error .misuse
  else
    .ok { given with values := (switch, value) :: given.values }

/-- Take a word that is no switch, of which there are at most `limit`. -/
def addOperand (limit : Nat) (given : Given) (word : String) :
    Except EarlyEnd Given :=
  if word = "" ∨ limit ≤ given.operands.length then
    .error .misuse
  else
    .ok { given with operands := given.operands ++ [word] }

end Given

def isSwitchWord (word : String) : Bool :=
  match word.toList with
  | '-' :: _ :: _ => true
  | _ => false

/-- Read the letters after one hyphen.  A switch that still wants a value is
given back. -/
def readLetters (allowed : List Switch) (given : Given) :
    List Char → Except EarlyEnd (Given × Option Switch)
  | [] => .ok (given, none)
  | letter :: rest =>
      match allowed.find? fun switch => switch.letter? == some letter with
      | none => .error .misuse
      | some switch =>
          if switch.takesValue then
            match rest with
            | [] => .ok (given, some switch)
            | '=' :: value =>
                (given.addValue switch (String.ofList value)).map (·, none)
            | value => (given.addValue switch (String.ofList value)).map (·, none)
          else
            (given.addFlag switch).bind fun given => readLetters allowed given rest

/-- Read what follows two hyphens.  A switch that still wants a value is given
back. -/
def readLongName (allowed : List Switch) (given : Given) (text : List Char) :
    Except EarlyEnd (Given × Option Switch) :=
  let name := String.ofList (text.takeWhile (· != '='))
  let value? := (text.dropWhile (· != '=')).tail?.map String.ofList
  match allowed.find? fun switch => switch.name == name with
  | none => .error .misuse
  | some switch =>
      match switch.takesValue, value? with
      | true, some value => (given.addValue switch value).map (·, none)
      | true, none => .ok (given, some switch)
      | false, some _ => .error .misuse
      | false, none => (given.addFlag switch).map (·, none)

def readSwitchWord (allowed : List Switch) (given : Given) (word : String) :
    Except EarlyEnd (Given × Option Switch) :=
  match word.toList with
  | '-' :: '-' :: text => readLongName allowed given text
  | text => readLetters allowed given text.tail

/-- Read the words of a command line, with at most `limit` of them that are no
switches. -/
def readWords (allowed : List Switch) (limit : Nat) (given : Given) :
    List String → Except EarlyEnd Given
  | [] => .ok given
  | word :: rest =>
      if word = "--" then
        rest.foldlM (Given.addOperand limit) given
      else if isSwitchWord word then
        match readSwitchWord allowed given word, rest with
        | .error stop, _ => .error stop
        | .ok (given, none), rest => readWords allowed limit given rest
        | .ok (_, some _), [] => .error .misuse
        | .ok (given, some switch), value :: rest =>
            if isSwitchWord value then
              .error .misuse
            else
              (given.addValue switch value).bind fun given =>
                readWords allowed limit given rest
      else
        (given.addOperand limit word).bind fun given =>
          readWords allowed limit given rest

/-- A command with everything that it needs. -/
inductive Command where
  | resolve (template : String) (data config : Option String) (keepGoing : Bool)
  | check (template : String) (config : Option String) (color : Bool)
  | macros
  deriving DecidableEq, Repr, Inhabited

/-- What a command line asks for. -/
inductive CommandRequest where
  /-- Run a command, telling more events the greater the number is. -/
  | run (command : Command) (verbosity : Nat)
  /-- Print a text. -/
  | print (text : String)
  /-- The command line cannot be understood. -/
  | misuse
  deriving DecidableEq, Repr, Inhabited

def CommandName.withGiven? (command : CommandName) (given : Given) :
    Option Command :=
  match command, given.operands with
  | .resolve, [template] =>
      some (.resolve template (given.values.lookup .data)
        (given.values.lookup .config) (given.flags.contains .keepGoing))
  | .check, [template] =>
      some (.check template (given.values.lookup .config)
        (given.flags.contains .color))
  | .macros, [] => some .macros
  | _, _ => none

/-- Read the words after the name of a command.  How much to tell is said there
or else before the name. -/
def CommandName.request (command : CommandName) (leading : Given)
    (words : List String) : CommandRequest :=
  match readWords command.switches command.operandCount {} words with
  | .error .help => .print command.help
  | .error _ => .misuse
  | .ok given =>
      match command.withGiven? given with
      | some complete =>
          .run complete
            (if given.verbosity = 0 then leading.verbosity else given.verbosity)
      | none => .misuse

/-- Read the words after the command that prints help. -/
def helpRequest : List String → CommandRequest
  | [] => .print programHelp
  | [word] =>
      match CommandName.ofText? word with
      | some command => .print command.help
      | none => if word = helpCommandName then .print helpCommandHelp else .misuse
  | _ => .misuse

def readCommandLine (words : List String) : CommandRequest :=
  let leading := words.takeWhile fun word => isSwitchWord word && word != "--"
  match readWords leadingSwitches 0 {} leading with
  | .error .help => .print programHelp
  | .error .version => .print versionText
  | .error .misuse => .misuse
  | .ok given =>
      match words.drop leading.length with
      | [] => .misuse
      | name :: rest =>
          if name = helpCommandName then
            helpRequest rest
          else
            match CommandName.ofText? name with
            | some command => command.request given rest
            | none => .misuse

end Stencil
