import CallChart.Index
import CallChart.Location.Walk

/-!
# Source locations

A location is a file, a folder or a pattern. A folder stands for the source
files in it that no ignore rule leaves out. A pattern stands for the files it
matches; to find them it is enough to walk the folder that the pattern names
before its first wildcard. The files of a location come in the order of
paths, and a file that was found before is not listed again.
-/

namespace CallChart

open Files (Disk Entry)

namespace Location

/-- A text is a pattern if it holds a wildcard, a bracket or a brace, even an escaped one. A
backslash alone does not make it one. -/
def isPattern (text : String) : Bool :=
  text.toList.any fun c => c == '*' || c == '?' || c == '[' || c == '\x7b'

/-- The components before the first one that is a pattern. The last one is always left for the
files, and a dot at the start is dropped. -/
def fixedComponents : List Component → List Component
  | [] | [_] => []
  | .normal name :: more =>
    if isPattern name then [] else .normal name :: fixedComponents more
  | .current :: more => fixedComponents more
  | component :: more => component :: fixedComponents more

def ofComponents (components : List Component) : Path :=
  components.foldl (fun path component => path.join ⟨component.text⟩) ⟨""⟩

/-- The folder that holds everything a pattern can match, empty for the current one. -/
def patternFolder (pattern : String) : Path :=
  ofComponents (fixedComponents (Path.components ⟨pattern⟩))

/-- The regular files below a folder, as paths below `base`. The two differ where a pattern starts
with a wildcard: then the folder is the current one and the paths are spelled without it. -/
def filesBelow (disk : Disk) (base folder : Path) : List Path :=
  match disk.entry folder with
  | .ok (.folder entries) => (Entry.filesAmong entries).map fun file => pathBelow base file.1
  | _ => []

def withoutDot (pattern : String) : String :=
  match pattern.toList with
  | '.' :: '/' :: rest => String.ofList rest
  | _ => pattern

/-- The files that a pattern matches, in the order of the tree. One dot and slash in front of the
pattern are taken off, and the rest is matched as it is spelled against the paths below its folder.
No ignore rules are asked. -/
def matchingFiles (disk : Disk) (pattern : String) : Except LocationError (List Path) :=
  let pattern := withoutDot pattern
  match Glob.tokens pattern with
  | .error e => .error (.badPattern pattern e)
  | .ok tokens =>
    let base := patternFolder pattern
    let folder := if base.text.isEmpty then ⟨"."⟩ else base
    .ok ((filesBelow disk base folder).filter fun path => Glob.isMatch tokens path.text)

/-- The files of a location, in order. A file and a folder of that name go before the pattern it may
be too. A location that leads nowhere is an error unless it is a pattern, and a pattern that matches
nothing is none. -/
def sources (disk : Disk) (extensions : List String) (location : String) :
    Except LocationError (List Path) :=
  let path : Path := ⟨location⟩
  if disk.isFile path then .ok [path]
  else if disk.isFolder path then .ok (Path.sort (sourcesBelow disk extensions path))
  else if isPattern location then (matchingFiles disk location).map Path.sort
  else .error (.missing location)

end Location

structure Located where
  paths : List Path := []
  diagnostics : List Diagnostic := []
  deriving Repr

namespace Located

/-- Adds the paths that are not there yet. Paths of one place count as one, and the spelling that
came first stays. -/
def addPaths (paths : List Path) (found : List Path) : List Path :=
  found.foldl (fun paths path => if paths.any (·.same path) then paths else paths ++ [path]) paths

def add (located : Located) (location : String) :
    Except LocationError (List Path) → Located
  | .ok found => { located with paths := addPaths located.paths found }
  | .error e =>
    { located with diagnostics := located.diagnostics ++ [⟨⟨location⟩, .badLocation e⟩] }

/-- The files of the locations, in order. A location that fails is noted and the others are gone
through all the same. -/
def ofLocations (disk : Disk) (extensions : List String) (locations : List String) : Located :=
  locations.foldl
    (fun located location => located.add location (Location.sources disk extensions location)) {}

end Located

/-- The index of the units at the locations; locations that were skipped are noted first. -/
def Index.ofLocations (reader : SourceReader) (store : TextStore) (disk : Disk)
    (locations : List String) : Index :=
  let located := Located.ofLocations disk reader.extensions locations
  let index := Index.ofPaths reader store located.paths
  { index with diagnostics := located.diagnostics ++ index.diagnostics }

/-- The files of a disk as a place to read texts from. What cannot be read as text is not there. -/
def Files.Disk.toTextStore (disk : Disk) : TextStore :=
  ⟨fun path => (disk.textAt path).toOption⟩

end CallChart
