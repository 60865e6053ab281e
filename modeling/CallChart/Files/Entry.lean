/-!
# File trees

An entry of a file tree is a file with its bytes, a link with the path it
leads to, or a folder with entries of its own. A place in the tree is the
list of names that lead to it from the root.
-/

namespace CallChart.Files

/-- The names that lead from the root to an entry. -/
abbrev Place := List String

/-- An entry of a file tree. A folder is a list and not a table, so two of its entries could have
one name; the first is then the one that is found. Trees where that does not happen are said to be
well-named where it matters. -/
inductive Entry where
  | file (content : ByteArray)
  | link (target : String)
  | folder (entries : List (String × Entry))
  deriving Inhabited

namespace Entry

def child? (entries : List (String × Entry)) (name : String) : Option Entry :=
  (entries.find? (·.1 == name)).map (·.2)

/-- Writes an entry under a name, instead of the one that was there. -/
def setChild (name : String) (entry : Entry) : List (String × Entry) → List (String × Entry)
  | [] => [(name, entry)]
  | first :: entries =>
    if first.1 = name then (name, entry) :: entries else first :: setChild name entry entries

/-- The entry at a place below this one. Links are not followed: a place leads through folders only,
so each place has at most one entry, and a link is found as a link. -/
def at? : Entry → Place → Option Entry
  | entry, [] => some entry
  | .folder entries, name :: place => (child? entries name).bind (·.at? place)
  | _, _ :: _ => none

/-- Writes an entry at a place. Nothing changes if the folder it should stand in is not there. -/
def put (entry : Entry) : Place → Entry → Entry
  | [], _ => entry
  | name :: place, .folder entries =>
    match child? entries name, place with
    | some inner, _ => .folder (setChild name (put entry place inner) entries)
    | none, [] => .folder (setChild name entry entries)
    | none, _ :: _ => .folder entries
  | _ :: _, other => other

def isFolder : Entry → Bool
  | .folder _ => true
  | _ => false

def isFile : Entry → Bool
  | .file _ => true
  | _ => false

mutual

/-- The files at and below an entry, with their places below it; links are not followed. -/
def files : Entry → List (Place × ByteArray)
  | .file content => [([], content)]
  | .link _ => []
  | .folder entries => filesAmong entries

def filesAmong : List (String × Entry) → List (Place × ByteArray)
  | [] => []
  | (name, entry) :: entries =>
    entry.files.map (fun file => (name :: file.1, file.2)) ++ filesAmong entries

end

mutual

/-- The folders at and below an entry, with their places below it, outer ones first. -/
def folders : Entry → List Place
  | .folder entries => [] :: foldersAmong entries
  | _ => []

def foldersAmong : List (String × Entry) → List Place
  | [] => []
  | (name, entry) :: entries => entry.folders.map (name :: ·) ++ foldersAmong entries

end

def changes (before after : Entry) : List (Place × ByteArray) :=
  after.files.filter fun file =>
    match before.at? file.1 with
    | some (.file content) => content != file.2
    | _ => true

def newFolders (before after : Entry) : List Place :=
  after.folders.filter fun place => !(before.at? place).any isFolder

end Entry

end CallChart.Files
