import CallChart.Location.Ignore

/-!
# Walking a folder

A walk lists what stands in a folder and in the folders below it, without
following links. Nothing that ignore rules leave out is listed or gone into.
The folder that the walk starts from is never left out.
-/

namespace CallChart.Location

open Files (Disk Entry Place)

/-- The scopes of the folders around a place, nearest first. `inner` leads from the folder at
`outer` down to the place. -/
def scopesAround (root : Entry) (outer : Place) : Place → List Scope
  | [] => []
  | name :: inner =>
    scopesAround root (outer ++ [name]) inner
      ++ [{ rules := FolderRules.at root outer, place := name :: inner }]

mutual

/-- What a walk lists of an entry: the places of files and links, from where the walk started. A
folder that is gone into asks its own rules first of all. `place` leads from the root and `below`
from the start of the walk. -/
def walkEntry (root : Entry) (scopes : List Scope) (place below : Place) :
    Entry → List Place
  | .folder entries =>
    walkEntries root (⟨FolderRules.at root place, []⟩ :: scopes) place below entries
  | .file _ | .link _ => [below]

def walkEntries (root : Entry) (scopes : List Scope) (place below : Place) :
    List (String × Entry) → List Place
  | [] => []
  | (name, entry) :: entries =>
    let inner := descend scopes name
    (if isIgnored inner entry.isFolder then []
      else walkEntry root inner (place ++ [name]) (below ++ [name]) entry)
      ++ walkEntries root scopes place below entries

end

def pathBelow (base : Path) (place : Place) : Path :=
  place.foldl (fun path name => path.join ⟨name⟩) base

/-- The files below a folder that have one of the extensions. A link counts if it leads to a file.
The folders above take part with their rules, but the folder itself is never left out. -/
def sourcesBelow (disk : Disk) (extensions : List String) (folder : Path) : List Path :=
  match disk.find folder with
  | .error _ => []
  | .ok place =>
    match disk.root.at? place with
    | some (.folder entries) =>
      let around := scopesAround disk.root [] place
      let found := walkEntry disk.root around place [] (.folder entries)
      (found.map (pathBelow folder)).filter fun path =>
        disk.isFile path && path.extension?.any extensions.contains
    | _ => []

end CallChart.Location
