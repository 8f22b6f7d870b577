import Stencil.CommandLine.Switch

/-!
# Help texts

What is printed when help is asked for, on the program or on one command.
-/

namespace Stencil

def helpCommandName : String := "help"

def helpCommandDescription : String :=
  "Print this message or the help of the given subcommand(s)"

def Switch.synopsis (switch : Switch) : String :=
  (match switch.letter? with
    | some letter => "-" ++ letter.toString ++ ", "
    | none => "    ") ++
  "--" ++ switch.name ++
  (match switch.valueName? with
    | some value => " <" ++ value ++ ">"
    | none => if switch = .verbose then "..." else "")

/-- Terms with their explanations, in two columns. -/
def helpTable (rows : List (String × String)) : String :=
  let width := (rows.map fun row => row.1.length).foldl max 0
  String.join (rows.map fun row =>
    "  " ++ row.1 ++ String.ofList (List.replicate (width - row.1.length) ' ') ++
      "  " ++ row.2 ++ "\n")

def switchTable (switches : List Switch) : String :=
  "\nOptions:\n" ++
    helpTable (switches.map fun switch => (switch.synopsis, switch.description))

def programHelp : String :=
  "Resolve query templates against JSON records\n\nUsage: " ++ programName ++
    " [OPTIONS] <COMMAND>\n\nCommands:\n" ++
    helpTable (CommandName.all.map (fun command =>
      (command.text, command.description)) ++
      [(helpCommandName, helpCommandDescription)]) ++
    switchTable
      [.verbose, .help, .version]

def CommandName.help (command : CommandName) : String :=
  let takesOperand := command.operandCount != 0
  command.description ++ "\n\nUsage: " ++ programName ++ " " ++ command.text ++
    " [OPTIONS]" ++ (if takesOperand then " <TEMPLATE>" else "") ++ "\n" ++
    (if takesOperand then
      "\nArguments:\n" ++ helpTable [("<TEMPLATE>", "Path to the template file")]
    else
      "") ++
    switchTable command.switches

def helpCommandHelp : String :=
  helpCommandDescription ++ "\n\nUsage: " ++ programName ++ " " ++
    helpCommandName ++ " [COMMAND]...\n\nArguments:\n" ++
    helpTable [("[COMMAND]...", "Print help for the subcommand(s)")]

def versionText : String :=
  programName ++ " " ++ programVersion ++ "\n"

end Stencil
