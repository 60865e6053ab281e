import CallChart.Config
import CallChart.Location.Locate

/-!
# Commands on a disk

A workbench holds a configuration and a reader that suits it. It indexes the
source locations, draws the calls of a function and writes what it has drawn.
Texts of units come from the disk, or from memory if they are kept there.

A command answers what came of it and the disk as it leaves it. The disk is
changed only by `writeText` and `setUp`.
-/

namespace CallChart

open Files (Disk SystemError)

/-- Why a command fails. -/
inductive Failure where
  | config (error : ConfigError)
  /-- A configuration cannot be read or written. -/
  | system (error : SystemError)
  /-- The unit of the entry function cannot be read. -/
  | analysis (source : Path) (error : SourceError)
  /-- The folder for a configuration cannot be made. -/
  | folder (error : SystemError)
  /-- The folder for an artifact cannot be made. -/
  | artifactFolder (path : Path) (error : SystemError)
  /-- An artifact cannot be written. -/
  | artifact (path : Path) (error : SystemError)
  /-- A configuration is in the way. -/
  | configExists (path : Path)
  deriving DecidableEq, Repr

namespace Failure

def ofConfig : Config.FileError → Failure
  | .config error => config error
  | .system error => system error

/-- What is said of the failure, and what of its causes, outermost first. The first one names what
was tried, with the path it was tried on. -/
def chain : Failure → List String
  | config error => [error.message]
  | system error => ["IO error: " ++ error.message, error.message]
  | analysis source error =>
    ["Failed to analyze " ++ source.text, "Parser error: " ++ error.message]
  | folder error => [error.message]
  | artifactFolder path error => ["Failed to create " ++ path.text, error.message]
  | artifact path error => ["Failed to write " ++ path.text, error.message]
  | configExists path => [path.text ++ " already exists (use --force to overwrite)"]

def message (failure : Failure) : String := ": ".intercalate failure.chain

def indented (text : String) : String :=
  "    " ++ String.join (text.toList.map fun c => if c = '\n' then "\n    " else c.toString)

/-- The failure as it is reported, with its first cause below it. A failure without a cause is one
line. -/
def report (failure : Failure) : String :=
  match failure.chain with
  | first :: cause :: _ => "Error: " ++ first ++ "\n\nCaused by:\n" ++ indented cause ++ "\n"
  | [first] => "Error: " ++ first ++ "\n"
  | [] => ""

end Failure

/-- A configuration, and a reader that suits it. The reader is made with the workbench, so options
without a known language fail there and not at the first unit. Texts of units may be kept in memory;
then the disk is asked for none of them, but still for locations. -/
structure Workbench where
  config : Config
  reader : SourceReader
  /-- Texts of units that are kept in memory. -/
  memory : Option KeptTexts := none

namespace Workbench

def ofConfig (config : Config) (memory : Option KeptTexts) : Except Failure Workbench :=
  match SourceReader.ofOptions config.reading with
  | .ok reader => .ok { config, reader, memory }
  | .error error => .error (.config (.noKnownLanguage error))

/-- A workbench for the configuration under a path, or in one of the usual places. -/
def ofDisk (disk : Disk) (path : Option Path) (memory : Option KeptTexts) :
    Except Failure Workbench := do
  ofConfig (← (Config.discover disk path).mapError .ofConfig) memory

def texts (workbench : Workbench) (disk : Disk) : TextStore :=
  match workbench.memory with
  | some memory => memory.toTextStore
  | none => disk.toTextStore

def index (workbench : Workbench) (disk : Disk) : Index :=
  Index.ofLocations workbench.reader (workbench.texts disk) disk workbench.config.project.locations

/-- The calls of a function of a source file. The index is a parameter and need not be that of the
source locations. A source that is not there has a trace without calls. -/
def trace (workbench : Workbench) (disk : Disk) (index : Index) (source : Path) (function : String) :
    Except Failure Trace :=
  (Trace.ofPath index workbench.config.tracing workbench.reader (workbench.texts disk) source
    function).mapError (.analysis source)

/-- Where a drawing goes if nothing else is said: into the output folder, under the module and the
function with dots between. Names are not escaped, so a slash in the name of a function leads into a
folder, and different drawings may go to one place. -/
def defaultOutput (workbench : Workbench) (trace : Trace) (function : String)
    (format : ChartFormat) : Path :=
  workbench.config.project.outputFolder.join
    ⟨trace.entryOwner ++ "." ++ function ++ "." ++ format.extension⟩

def createParent (disk : Disk) (path : Path) : Except Failure Unit × Disk :=
  match path.parent? with
  | none => (.ok (), disk)
  | some parent =>
    match disk.createFolders parent with
    | (.ok (), disk) => (.ok (), disk)
    | (.error error, disk) => (.error (.artifactFolder parent error), disk)

/-- Writes a text to a file, and makes the folders for it. If the file cannot be written, the
folders that were made stay. -/
def writeText (disk : Disk) (path : Path) (text : String) : Except Failure Unit × Disk :=
  match createParent disk path with
  | (.error failure, disk) => (.error failure, disk)
  | (.ok (), disk) =>
    match disk.write path text.toUTF8 with
    | .ok disk => (.ok (), disk)
    | .error error => (.error (.artifact path error), disk)

/-- What is drawn for a function, and where it goes. The disk is only read, so all that can go wrong
here leaves it as it is. -/
def drawing (workbench : Workbench) (disk : Disk) (source : Path) (function : String)
    (output : Option Path) (format : Option ChartFormat) : Except Failure (Path × String) := do
  let format := format.getD workbench.config.format
  let trace ← workbench.trace disk (workbench.index disk) source function
  return (output.getD (workbench.defaultOutput trace function format),
    format.render trace)

/-- Draws the calls of a function and writes the drawing. Answers where it went. A file that is
there is written over. -/
def draw (workbench : Workbench) (disk : Disk) (source : Path) (function : String)
    (output : Option Path) (format : Option ChartFormat) : Except Failure Path × Disk :=
  match workbench.drawing disk source function output format with
  | .error failure => (.error failure, disk)
  | .ok (path, text) =>
    match writeText disk path text with
    | (.ok (), disk) => (.ok path, disk)
    | (.error failure, disk) => (.error failure, disk)

def configPath (folder : Path) : Path := folder.join ⟨"calltrail.toml"⟩

/-- Writes the default configuration to a folder, the current one if none is given. A configuration
that is there is written over only by force. It is looked for before the folder is made, so one that
can be reached only then is written over all the same. -/
def setUp (disk : Disk) (folder : Option Path) (force : Bool) : Except Failure Path × Disk :=
  let folder := folder.getD ⟨"."⟩
  let path := configPath folder
  if disk.holds path && !force then (.error (.configExists path), disk)
  else
    match disk.createFolders folder with
    | (.error error, disk) => (.error (.folder error), disk)
    | (.ok (), disk) =>
      match ({} : Config).save disk path with
      | .ok disk => (.ok path, disk)
      | .error error => (.error (.ofConfig error), disk)

end Workbench

namespace Index

/-- The modules with their functions below them, and then what was skipped, line by line. -/
def listing (index : Index) : List String :=
  (index.owners.flatMap fun owner => owner :: (index.functionNames owner).map ("  " ++ ·))
    ++ index.diagnostics.map fun d => "skipped " ++ d.path.text ++ ": " ++ d.reason.message

def toJson (index : Index) : Json :=
  .object [
    ("diagnostics", .list (index.diagnostics.map fun d =>
      .object [("path", .text d.path.text), ("reason", .text d.reason.message)])),
    ("modules", .list (index.owners.map fun owner =>
      .object [("functions", .list ((index.functionNames owner).map Json.text)),
        ("module", .text owner)]))]

end Index

end CallChart
