import CallChart.CommandLine.Help
import CallChart.CommandLine.Options
import CallChart.Workbench

/-!
# The command line

Options of the program come before the name of a command and options of the
command after it. `CommandLine.read` makes a request of the arguments, or says
why there is none.

`CommandLine.run` carries a request out on a disk. It answers the exit code,
what is printed, and the disk as the command leaves it.
-/

namespace CallChart.CommandLine

open Files (Disk)

/-! ## Commands -/

inductive Command where
  | generate (source : Path) (function : String) (output : Option Path)
      (format : Option ChartFormat)
  | index (json : Bool)
  | init (folder : Option Path) (force : Bool)
  deriving DecidableEq, Repr

/-- A command, and what is said before it. -/
structure Request where
  config : Option Path
  verbose : Bool
  command : Command
  deriving DecidableEq, Repr

def generateSpec : CommandSpec where
  words := "calltrail generate"
  about := "Generate a sequence diagram for one entry function"
  options :=
    [{ long := "source", short := some 's', operand := .path, required := true,
       about := "Source file containing the entry function" },
     { long := "function", short := some 'f', operand := .text, required := true,
       about := "Name of the entry function" },
     { long := "output", short := some 'o', operand := .path,
       about := "Output file (defaults to <output_dir>/<Module>.<function>.<ext>)" },
     { long := "format",
       operand := .oneOf
         [(ChartFormat.mermaid.name, "Mermaid sequence diagram inside a markdown fence"),
          (ChartFormat.json.name, "The raw extraction result as JSON")],
       about := "Output format (overrides the configured one)" }]

def indexSpec : CommandSpec where
  words := "calltrail index"
  about := "List the modules and functions the index resolves calls against"
  options := [{ long := "json", about := "Print the listing as JSON" }]

def initSpec : CommandSpec where
  words := "calltrail init"
  about := "Write a default calltrail.toml"
  options :=
    [{ long := "path", short := some 'p', operand := .path,
       about := "Target directory (defaults to current directory)" },
     { long := "force", about := "Overwrite an existing configuration file" }]

def commandSpecs : List (String × CommandSpec) :=
  [("generate", generateSpec), ("index", indexSpec), ("init", initSpec)]

def helpAbout : String := "Print this message or the help of the given subcommand(s)"

def programSpec : CommandSpec where
  words := "calltrail"
  about := "Render the call sequence of an Elixir function as a Mermaid diagram"
  options :=
    [{ long := "config", short := some 'c', operand := .path,
       about := "Path to configuration file" },
     { long := "verbose", short := some 'v', about := "Enable verbose logging" }]
  commands := commandSpecs.map (fun entry => (entry.1, entry.2.about)) ++ [("help", helpAbout)]
  versioned := true

def helpPage : List String :=
  [helpAbout, "", "Usage: calltrail help [COMMAND]...", "", "Arguments:"]
    ++ columns [("[COMMAND]...", "Print help for the subcommand(s)")]

def spec? (name : String) : Option CommandSpec :=
  (commandSpecs.find? (·.1 == name)).map (·.2)

/-- The command of that name with these options; a drawing needs a source and a function. -/
def command? (name : String) (given : Given) : Option Command :=
  match name with
  | "generate" => do
    let source ← given.value? "source"
    let function ← given.value? "function"
    return .generate ⟨source⟩ function ((given.value? "output").map Path.mk)
      ((given.value? "format").bind ChartFormat.ofName?)
  | "index" => some (.index (given.has "json"))
  | "init" => some (.init ((given.value? "path").map Path.mk) (given.has "force"))
  | _ => none

def helpOn : List String → Stop
  | [] => .help programSpec true
  | [name] =>
    if name == "help" then .helpOnHelp
    else
      match spec? name with
      | some spec => .help spec true
      | none => .refused
  | _ => .refused

/-- Reads all arguments: options of the program, the name of a command, and options of the command.
Options of the program are refused after the name, and nothing may be left over at the end. Asking
for help stops the reading, whatever would have followed. -/
def read (arguments : List String) : Except Stop Request := do
  let (given, rest) ← readOptions programSpec arguments []
  match rest with
  | [] => throw .refused
  | name :: rest =>
    if name == "help" then throw (helpOn rest)
    match spec? name with
    | none => throw .refused
    | some spec =>
      let (own, rest) ← readOptions spec rest []
      unless rest.isEmpty do throw .refused
      match command? name own with
      | none => throw .refused
      | some command =>
        let config := (given.value? "config").map Path.mk
        return { config, verbose := given.has "verbose", command }

/-! ## Running -/

/-- What comes of a run. The disk is part of it, so what a run changes can be told from it alone; it
is given back also where the run fails. -/
structure Outcome where
  exit : Nat
  output : String := ""
  /-- What is said of a failure. -/
  report : String := ""
  disk : Disk

def version : String := "calltrail 0.1.0"

def textOfLines (lines : List String) : String := String.join (lines.map (· ++ "\n"))

/-- Carries out a command with a workbench. The index is listed without a change to the disk; the
other two commands may change it and fail all the same. -/
def carryOut (workbench : Workbench) (disk : Disk) : Command → Except Failure String × Disk
  | .generate source function output format =>
    match workbench.draw disk source function output format with
    | (.ok path, disk) => (.ok (path.text ++ "\n"), disk)
    | (.error failure, disk) => (.error failure, disk)
  | .index json =>
    let index := workbench.index disk
    (.ok (if json then index.toJson.pretty ++ "\n" else textOfLines index.listing), disk)
  | .init folder force =>
    match Workbench.setUp disk folder force with
    | (.ok _, disk) => (.ok "", disk)
    | (.error failure, disk) => (.error failure, disk)

/-- What a request comes to. The configuration is read before any command, so one that cannot be
used is in the way even of writing a new one. -/
def perform (disk : Disk) (request : Request) : Except Failure String × Disk :=
  match Workbench.ofDisk disk request.config none with
  | .error failure => (.error failure, disk)
  | .ok workbench => carryOut workbench disk request.command

/-- Runs the program. The exit code is 2 if the arguments make no request, 1 if the command fails,
and 0 otherwise, help and version included. A command that fails prints nothing but its report. -/
def run (disk : Disk) (arguments : List String) : Outcome :=
  match read arguments with
  | .error .refused => { exit := 2, disk }
  | .error (.help command long) => { exit := 0, output := textOfLines (command.page long), disk }
  | .error .helpOnHelp => { exit := 0, output := textOfLines helpPage, disk }
  | .error .version => { exit := 0, output := version ++ "\n", disk }
  | .ok request =>
    match perform disk request with
    | (.ok output, disk) => { exit := 0, output, disk }
    | (.error failure, disk) => { exit := 1, report := failure.report, disk }

end CallChart.CommandLine
