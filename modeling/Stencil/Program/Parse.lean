import Stencil.Program.Body
import Stencil.Settings
import Stencil.Token.Scan

/-!
# Parsing a template

Scanning and reading together: from the text of a template to its program and
to the diagnostics of everything that is wrong with it.
-/

namespace Stencil

/-- The name under which templates appear in diagnostics. -/
def templateName : String := "<template>"

/-- A parsed template: its source, the best program that could be read from it,
and what is wrong with it, in the order of the source. -/
structure ParsedTemplate where
  source : Source
  program : Program
  diagnostics : List Diagnostic
  deriving Repr, Inhabited

def ParsedTemplate.report (parsed : ParsedTemplate) (colored : Bool) : String :=
  Diagnostic.renderAll parsed.diagnostics colored parsed.source

def parseTemplate (settings : Settings) (text : String) : ParsedTemplate :=
  let source : Source := ⟨templateName, text⟩
  let scanned := tokenize settings.trimLineBreaks text
  let built := Program.ofTokens settings.maxDepth scanned.1
  let reports := scanned.2 ++ built.2
  { source := source
    program := built.1
    diagnostics :=
      Diagnostic.sortByStart (reports.map fun report => report.diagnostic source) }

end Stencil
