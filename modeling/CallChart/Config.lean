import CallChart.Diagram
import CallChart.Files.Disk
import CallChart.Toml.Reader
import CallChart.Toml.Writer

/-!
# Configuration

A configuration is a TOML document with four tables. What it leaves out has a
default, key by key, and what it does not know is skipped. A table may also be
given as a list of its values in order.

Saving and loading use numbers of TOML, so a number that TOML cannot hold is
refused when a configuration is saved.
-/

namespace CallChart

open Files (Disk SystemError)

/-- What is drawn and where. -/
structure ProjectOptions where
  name : String := "Unnamed Project"
  /-- The files, folders and patterns that are indexed. -/
  locations : List String := ["lib/**/*.ex"]
  outputFolder : Path := ⟨"diagrams"⟩
  deriving DecidableEq, Repr

/-- A configuration. Every field has its default here and nowhere else: what a document leaves out
and what the first configuration holds is read off this. -/
structure Config where
  project : ProjectOptions := {}
  reading : ReadingOptions := {}
  tracing : TraceOptions := {}
  format : ChartFormat := .mermaid
  deriving DecidableEq, Repr

/-- Why a configuration cannot be used. -/
inductive ConfigError where
  | noKnownLanguage (error : NoKnownLanguage)
  /-- The document is not TOML, or a value has the wrong type. -/
  | malformed
  /-- A number is too large to be written. -/
  | outOfRange
  deriving DecidableEq, Repr

def ConfigError.message : ConfigError → String
  | noKnownLanguage error => "Configuration error: " ++ error.message
  | malformed => "Configuration error: TOML parse error"
  | outOfRange => "Configuration error: number out of range"

namespace Config

/-! ## From a document -/

abbrev Fields := String → Option Toml

/-- The fields of a table; a list gives them in the order of `names`, and a moment gives none. -/
def fields? (names : List String) : Toml → Option Fields
  | .table entries => some fun name => (entries.find? (·.1 == name)).map (·.2)
  | .list items => some fun name => ((names.zip items).find? (·.1 == name)).map (·.2)
  | .moment => some fun _ => none
  | _ => none

/-- What a field holds, or its default if it is not there. A field that is there and cannot be read
is no reason for the default: then nothing is answered. -/
def field {α : Type} (fields : Fields) (name : String) (default : α) (read? : Toml → Option α) :
    Option α :=
  match fields name with
  | none => some default
  | some value => read? value

def text? : Toml → Option String
  | .text value => some value
  | _ => none

def natural? : Toml → Option Nat
  | .integer value => if 0 ≤ value then some value.toNat else none
  | _ => none

def boolean? : Toml → Option Bool
  | .boolean value => some value
  | _ => none

def texts? : Toml → Option (List String)
  | .list items => items.mapM text?
  | _ => none

/-- An output format: its name, or a table with an empty value under its name. -/
def format? : Toml → Option ChartFormat
  | .text name => ChartFormat.ofName? name
  | .table [(name, .list [])] => ChartFormat.ofName? name
  | .table [(name, .table [])] => ChartFormat.ofName? name
  | _ => none

def project? (value : Toml) : Option ProjectOptions := do
  let default : ProjectOptions := {}
  let fields ← fields? ["name", "source_locations", "output_dir"] value
  return {
    name := ← field fields "name" default.name text?
    locations := ← field fields "source_locations" default.locations texts?
    outputFolder := ⟨← field fields "output_dir" default.outputFolder.text text?⟩ }

def reading? (value : Toml) : Option ReadingOptions := do
  let default : ReadingOptions := {}
  let fields ← fields? ["languages", "max_file_size"] value
  return {
    languages := ← field fields "languages" default.languages texts?
    sizeLimit := ← field fields "max_file_size" default.sizeLimit natural? }

def tracing? (value : Toml) : Option TraceOptions := do
  let fields ← fields? ["max_depth", "walk_call_arguments"] value
  return {
    depthLimit := ← field fields "max_depth" none fun depth => (natural? depth).map some
    withArguments := ← field fields "walk_call_arguments" false boolean? }

def output? (value : Toml) : Option ChartFormat := do
  let fields ← fields? ["format"] value
  field fields "format" .mermaid format?

/-- The configuration that a document gives. Tables and keys that are not known are skipped, and one
value of the wrong type refuses the whole document. -/
def ofToml? (document : Toml) : Option Config := do
  let fields ← fields? ["project", "parsing", "extraction", "output"] document
  return {
    project := ← field fields "project" {} project?
    reading := ← field fields "parsing" {} reading?
    tracing := ← field fields "extraction" {} tracing?
    format := ← field fields "output" .mermaid output? }

def parse (text : String) : Except ConfigError Config :=
  match (Toml.parse? text).bind ofToml? with
  | some config => .ok config
  | none => .error .malformed

/-! ## To a document -/

/-- The tables of a configuration, as they are written. A limit that is not set is left out, since
TOML has no value for it; everything else is written even if it is the default. -/
def tables (config : Config) : List (String × List (String × Toml)) :=
  [("project",
      [("name", .text config.project.name),
       ("source_locations", .list (config.project.locations.map Toml.text)),
       ("output_dir", .text config.project.outputFolder.text)]),
   ("parsing",
      [("languages", .list (config.reading.languages.map Toml.text)),
       ("max_file_size", .integer config.reading.sizeLimit)]),
   ("extraction",
      (config.tracing.depthLimit.toList.map fun (depth : Nat) => ("max_depth", .integer depth))
        ++ [("walk_call_arguments", .boolean config.tracing.withArguments)]),
   ("output", [("format", .text config.format.name)])]

def writable (config : Config) : Bool :=
  config.reading.sizeLimit ≤ Toml.maxInteger
    && config.tracing.depthLimit.all (· ≤ Toml.maxInteger)

def render (config : Config) : Except ConfigError String :=
  if config.writable then .ok (String.ofList (Toml.renderDocument config.tables))
  else .error .outOfRange

/-! ## On disk -/

/-- Why a configuration cannot be read or written. -/
inductive FileError where
  | config (error : ConfigError)
  | system (error : SystemError)
  deriving DecidableEq, Repr

def FileError.message : FileError → String
  | config error => error.message
  | system error => "IO error: " ++ error.message

def load (disk : Disk) (path : Path) : Except FileError Config := do
  let text ← (disk.textAt path).mapError .system
  (parse text).mapError .config

/-- Where a configuration is looked for, the first place first. -/
def usualPaths : List Path := [⟨"calltrail.toml"⟩, ⟨".calltrail.toml"⟩]

/-- Reads the configuration under a path, or the first one in the usual places. Where nothing is
found, everything has its default, also if a path was given: a path that leads nowhere is not an
error, but a file there that cannot be read is. -/
def discover (disk : Disk) (path : Option Path) : Except FileError Config :=
  match (path.elim usualPaths ([·])).find? disk.holds with
  | some path => load disk path
  | none => .ok {}

/-- Writes a configuration. A number that TOML cannot hold is found out before the disk is touched,
and the folder for the file has to be there. -/
def save (config : Config) (disk : Disk) (path : Path) : Except FileError Disk := do
  let text ← config.render.mapError .config
  (disk.write path text.toUTF8).mapError .system

end Config

end CallChart
