import CallChart.Glob.Pattern
import CallChart.Source.Reading
import CallChart.Source.Texts
import CallChart.Table

/-!
# The index of modules

The index holds the bodies of functions by module and by name. Units are
merged one after another. A function that is written again replaces the one
before it, and a module is listed even if it has no function. A unit that
cannot be loaded leaves a diagnostic and nothing else.
-/

namespace CallChart

/-- Why a source location names no files. A folder or a pattern in which no file is found is no
error. -/
inductive LocationError where
  | missing (location : String)
  | badPattern (pattern : String) (error : GlobError)
  deriving DecidableEq, Repr

def LocationError.message : LocationError → String
  | missing location => "File system error: " ++ location ++ " does not exist"
  | badPattern pattern error =>
    "Invalid source pattern `" ++ pattern ++ "`: error parsing glob '" ++ pattern ++ "': "
      ++ error.message

/-- Why a unit or a location was skipped. -/
inductive SkipReason where
  | sourceNotFound
  | unreadable (error : SourceError)
  | badLocation (error : LocationError)
  deriving DecidableEq, Repr

def SkipReason.message : SkipReason → String
  | sourceNotFound => "source not found"
  | unreadable error => error.message
  | badLocation error => error.message

structure Diagnostic where
  path : Path
  reason : SkipReason
  deriving DecidableEq, Repr

inductive Loaded where
  | notFound
  | failed (error : SourceError)
  | unit (unit : SourceUnit)

def SourceReader.fetch (reader : SourceReader) (store : TextStore) (path : Path) : Loaded :=
  match store.read? path with
  | none => .notFound
  | some text =>
    match reader.readUnit path text with
    | .ok unit => .unit unit
    | .error error => .failed error

/-- The bodies of functions, by module and by name, and what was skipped. A module may be there
without functions. Nothing tells which unit a body came from, so a unit cannot be taken out again.
-/
structure Index where
  modules : Table (Table Expr) := .empty
  diagnostics : List Diagnostic := []
  deriving Inhabited

namespace Index

def empty : Index := {}

/-- The functions of a module, none if it is not there. -/
def functionsOf (modules : Table (Table Expr)) (name : String) : Table Expr :=
  (modules.get? name).getD .empty

/-- The functions of a module, with more of them written over those of the same name. -/
def addFunctions (functions : Table Expr) (definitions : List Definition) : Table Expr :=
  definitions.foldl (fun functions f => functions.insert f.name f.body) functions

/-- Adds the functions of a module to those it has already. A function that is there gets the new
body and the others stay, so a module may be spread over several units. -/
def addModule (modules : Table (Table Expr)) (m : ModuleOutline) : Table (Table Expr) :=
  modules.insert m.name (addFunctions (functionsOf modules m.name) m.definitions)

def addUnit (index : Index) (unit : SourceUnit) : Index :=
  { index with modules := unit.modules.foldl addModule index.modules }

def note (index : Index) (path : Path) (reason : SkipReason) : Index :=
  { index with diagnostics := index.diagnostics ++ [⟨path, reason⟩] }

/-- Adds what comes of loading the unit under a path. A unit that cannot be loaded leaves what the
index holds as it was and is noted under its path. -/
def add (index : Index) (path : Path) : Loaded → Index
  | .notFound => index.note path .sourceNotFound
  | .failed error => index.note path (.unreadable error)
  | .unit unit => index.addUnit unit

/-- The index of the units under the paths, loaded in order. So of two definitions of a function the
one under the later path is kept, and the diagnostics come in the order of the paths. -/
def ofPaths (reader : SourceReader) (store : TextStore) (paths : List Path) : Index :=
  paths.foldl (fun index path => index.add path (reader.fetch store path)) empty

def body? (index : Index) (owner function : String) : Option Expr :=
  (index.modules.get? owner).bind (·.get? function)

def hasModule (index : Index) (name : String) : Bool := index.modules.contains name

def owners (index : Index) : List String := index.modules.keys

def functionNames (index : Index) (owner : String) : List String :=
  (functionsOf index.modules owner).keys

def size (index : Index) : Nat := index.modules.size

def isEmpty (index : Index) : Bool := index.size == 0

/-- The number of functions with a body. This bounds how deep expansions can stand inside each
other. -/
def bodyCount (index : Index) : Nat :=
  (index.modules.entries.flatMap fun m => m.2.entries).length

end Index

end CallChart
