import Conformance.CommandLine.Arguments
import Conformance.Json.Writer
import Conformance.Manifest.Decoding
import Conformance.Report.Encoding
import Conformance.Report.Text

/-!
Runs of the command line program: what is written, and the exit code, as a
function of the arguments and of the files that can be read.
-/

namespace Conformance.CommandLine

/-- What a run comes to. -/
inductive Outcome where
  /-- The run came to its end. -/
  | finished (code : Nat) (stdout stderr : String)
  /-- There is no report, for a cause that is known or not. -/
  | failed (message : String) (cause? : Option String)
  /-- The arguments are misused. -/
  | misused (stop : Stop)
deriving DecidableEq, Repr

/-- The exit code of a run that found errors. -/
def errorsFound : Nat := 2

/-- The name and version of the program. -/
def versionText : String := "dimr 0.1.0\n"

/-- How the program is used. -/
def helpText (colored : Bool) : String :=
  let title := paint colored .title
  let literal := paint colored .literal
  "\n".intercalate
    ["Resolve interface implementations and report diagnostics for a compilation manifest",
      "",
      title "Usage:" ++ " " ++ literal "dimr" ++ " [OPTIONS] <MANIFEST>",
      "",
      title "Arguments:",
      "  <MANIFEST>  Path to the JSON compilation manifest",
      "",
      title "Options:",
      "  " ++ literal "-a" ++ ", " ++ literal "--assembly" ++ " <ASSEMBLY>  " ++
        "Assembly to report on. Defaults to the last assembly of the manifest",
      "      " ++ literal "--implementations" ++ "      " ++
        "Print which member implements each interface member",
      "      " ++ literal "--json" ++ "                 " ++
        "Write the report as JSON on stdout",
      "      " ++ literal "--pretty" ++ " <PRETTY>      " ++
        "Enable color in text output. Defaults to whether stdout is a terminal " ++
        "[possible values: true, false]",
      "  " ++ literal "-h" ++ ", " ++ literal "--help" ++ "                 " ++ "Print help",
      "  " ++ literal "-V" ++ ", " ++ literal "--version" ++ "              " ++ "Print version",
      ""]

/-- The outcome of arguments that ask for no run. -/
def Outcome.ofStop (colored : Bool) : Stop → Outcome
  | .help => .finished 0 (helpText colored) ""
  | .version => .finished 0 versionText ""
  | stop => .misused stop

/-- Writes a report. The summary does not go where the report goes. -/
def Outcome.ofReport (arguments : Arguments) (isTerminal : Bool) (report : Report) : Outcome :=
  let code := if report.hasErrors then errorsFound else 0
  if arguments.json then .finished code (report.encode.pretty ++ "\n") ""
  else
    let colored := arguments.pretty.getD isTerminal
    .finished code
      ((report.implementations.map (implementationsText colored)).getD "" ++
        diagnosticsText colored report.diagnostics)
      (report.summary colored ++ "\n")

/-- Reports on an assembly of a manifest. -/
def runOn (arguments : Arguments) (isTerminal : Bool) (manifest : Manifest) : Outcome :=
  let report := do
    Manifest.reportOn (← manifest.compileAll) arguments.assembly arguments.implementations
  match report with
  | .ok report => .ofReport arguments isTerminal report
  | .error error => .failed error.message none

/-- A run with the given arguments, when the manifest has the given text, or
cannot be read. -/
def runWith (arguments : Arguments) (isTerminal : Bool) : Option String → Outcome
  | none => .failed ("failed to read manifest " ++ arguments.manifest) none
  | some text => match Manifest.parse text with
    | .ok manifest => runOn arguments isTerminal manifest
    | .error error => .failed ("failed to load manifest " ++ arguments.manifest) error.message

end Conformance.CommandLine
