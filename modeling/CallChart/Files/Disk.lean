import CallChart.Files.Entry
import CallChart.Path

/-!
# Reading and writing files

A disk is a file tree and the place that relative paths start from. A path is
followed piece by piece: an empty piece or a dot stays, two dots go back, and
a link leads on from where it stands. Every piece asks for a folder, so a
slash after the name of a file leads nowhere.

Operations that change the disk keep what they have changed even if they
fail later.
-/

namespace CallChart.Files

inductive SystemError where
  | notFound
  | alreadyThere
  | notFolder
  | isFolder
  | nameTooLong
  | tooManyLinks
  | notText
  | zeroInName
  | noRoot
  deriving DecidableEq, Repr

def SystemError.message : SystemError → String
  | notFound => "No such file or directory (os error 2)"
  | alreadyThere => "File exists (os error 17)"
  | notFolder => "Not a directory (os error 20)"
  | isFolder => "Is a directory (os error 21)"
  | nameTooLong => "File name too long (os error 36)"
  | tooManyLinks => "Too many levels of symbolic links (os error 40)"
  | notText => "stream did not contain valid UTF-8"
  | zeroInName => "file name contained an unexpected NUL byte"
  | noRoot => "failed to create whole tree"

/-- A file tree, and the folder that relative paths start from. There are no owners and no rights:
all that can be in the way of an operation is what stands in the tree. -/
structure Disk where
  root : Entry
  here : Place := []
  deriving Inhabited

def piecesOf (text : String) : List String := (Path.pieces text.toList).map String.ofList

def maxLinks : Nat := 40

/-- The length of the longest name, in bytes. -/
def maxName : Nat := 255

namespace Disk

/-! ## Following paths -/

/-- Follows the pieces from a folder; `onLink` follows what a link leads to. The place may be one
where nothing stands, if the folder for it is there. Where a file is looked for, a slash after the
last name is refused, since only a folder can have one. -/
def follow (root : Entry) (toFile : Bool)
    (onLink : Place → List String → Except SystemError Place) :
    Place → List String → Except SystemError Place
  | place, [] => .ok place
  | place, piece :: rest =>
    match root.at? place with
    | none => .error .notFound
    | some (.folder entries) =>
      if toFile ∧ piece ≠ "" ∧ rest ≠ [] ∧ rest.all (·.isEmpty) then .error .isFolder
      else if piece = "" ∨ piece = "." then follow root toFile onLink place rest
      else if piece = ".." then follow root toFile onLink place.dropLast rest
      else if maxName < piece.utf8ByteSize then .error .nameTooLong
      else
        match Entry.child? entries piece with
        | none => if rest.isEmpty then .ok (place ++ [piece]) else .error .notFound
        | some (.link target) =>
          onLink (if (Path.mk target).isAbsolute then [] else place) (piecesOf target ++ rest)
        | some _ => follow root toFile onLink (place ++ [piece]) rest
    | some _ => .error .notFolder

/-- Follows the pieces from a folder, through at most `n` links. So links in a circle are an error
and not an endless search. The number counts for the whole path and not for each piece. -/
def followLinks (root : Entry) (toFile : Bool) :
    Nat → Place → List String → Except SystemError Place
  | 0 => follow root toFile fun _ _ => .error .tooManyLinks
  | n + 1 => follow root toFile (followLinks root toFile n)

def startOf (disk : Disk) (path : Path) : Place := if path.isAbsolute then [] else disk.here

/-- Refuses a path without a name and one with a zero in it. -/
def checkPath (path : Path) : Except SystemError Unit :=
  if path.text.isEmpty then .error .notFound
  else if path.text.toList.contains '\x00' then .error .zeroInName
  else .ok ()

/-- The place that a path leads to. Links are followed, also at the end of the path, and nothing
needs to stand at the place if the folder for it is there. -/
def find (disk : Disk) (path : Path) : Except SystemError Place := do
  checkPath path
  followLinks disk.root false maxLinks (disk.startOf path) (piecesOf path.text)

def entry (disk : Disk) (path : Path) : Except SystemError Entry := do
  match disk.root.at? (← disk.find path) with
  | some entry => return entry
  | none => throw .notFound

def holds (disk : Disk) (path : Path) : Bool := (disk.entry path).isOk

def isFile (disk : Disk) (path : Path) : Bool :=
  match disk.entry path with
  | .ok entry => entry.isFile
  | .error _ => false

def isFolder (disk : Disk) (path : Path) : Bool :=
  match disk.entry path with
  | .ok entry => entry.isFolder
  | .error _ => false

/-- The text of the file that a path leads to. A file whose bytes are not UTF-8 has none. -/
def textAt (disk : Disk) (path : Path) : Except SystemError String := do
  match ← disk.entry path with
  | .file content =>
    match String.fromUTF8? content with
    | some text => return text
    | none => throw .notText
  | _ => throw .isFolder

/-! ## Writing -/

/-- The pieces without empty ones at the end, and whether there were any. -/
def trimSlashes (pieces : List String) : List String × Bool :=
  let kept := (pieces.reverse.dropWhile (·.isEmpty)).reverse
  (kept, kept.length < pieces.length)

def folderAt (root : Entry) (place : Place) : Except SystemError (List (String × Entry)) :=
  match root.at? place with
  | some (.folder entries) => .ok entries
  | some _ => .error .notFolder
  | none => .error .notFound

/-- The place of the file that is written under a path. A link is written through, and if it leads
where nothing stands, the file is made there. -/
def filePlace (disk : Disk) (path : Path) : Except SystemError Place := do
  checkPath path
  let place ← followLinks disk.root true maxLinks (disk.startOf path) (piecesOf path.text)
  match disk.root.at? place with
  | some (.folder _) => throw .isFolder
  | _ => return place

def put (disk : Disk) (place : Place) (entry : Entry) : Disk :=
  { disk with root := Entry.put entry place disk.root }

/-- Writes a file, in place of the one that was there. The folder for it has to be there. -/
def write (disk : Disk) (path : Path) (content : ByteArray) : Except SystemError Disk := do
  return disk.put (← disk.filePlace path) (.file content)

/-- The place of a new entry under a path. Something that stands there already is in the way, and
is not followed if it is a link. -/
def newPlace (disk : Disk) (path : Path) : Except SystemError Place := do
  checkPath path
  let (pieces, _) := trimSlashes (piecesOf path.text)
  match pieces.getLast? with
  | none => throw .alreadyThere
  | some name =>
    let place ← followLinks disk.root false maxLinks (disk.startOf path) pieces.dropLast
    let entries ← folderAt disk.root place
    if name = "." ∨ name = ".." then throw .alreadyThere
    if maxName < name.utf8ByteSize then throw .nameTooLong
    if (Entry.child? entries name).isSome then throw .alreadyThere
    return place ++ [name]

def createFolder (disk : Disk) (path : Path) : Except SystemError Disk := do
  return disk.put (← disk.newPlace path) (.folder [])

def createLink (disk : Disk) (path : Path) (target : String) : Except SystemError Disk := do
  return disk.put (← disk.newPlace path) (.link target)

/-- Makes a folder that may be there already. The error of making it stands only if the path does
not lead to a folder afterwards, so a link to a folder will do. -/
def ensureFolder (disk : Disk) (path : Path) : Except SystemError Unit × Disk :=
  match disk.createFolder path with
  | .ok disk => (.ok (), disk)
  | .error e => if disk.isFolder path then (.ok (), disk) else (.error e, disk)

/-- Makes a folder and the folders it stands in, `n` of them at most. The folder itself is tried
first and those around it only if they are missing. What was made before something failed stays. -/
def createFoldersWithin : Nat → Path → Disk → Except SystemError Unit × Disk
  | 0, _, disk => (.error .noRoot, disk)
  | n + 1, path, disk =>
    if path.text.isEmpty then (.ok (), disk)
    else
      match disk.ensureFolder path with
      | (.error .notFound, _) =>
        match path.parent? with
        | none => (.error .noRoot, disk)
        | some parent =>
          match createFoldersWithin n parent disk with
          | (.ok (), disk) => disk.ensureFolder path
          | failed => failed
      | result => result

/-- Makes a folder and the folders it stands in. A path has no more parents than characters, so
there is room for all of them. For the empty path there is nothing to make. -/
def createFolders (disk : Disk) (path : Path) : Except SystemError Unit × Disk :=
  createFoldersWithin (path.text.length + 1) path disk

/-! ## What has changed -/

def hereEntry (disk : Disk) : Entry := (disk.root.at? disk.here).getD (.folder [])

/-- The files of the second disk, below the place that relative paths start from, that are new or
have changed. -/
def changes (before after : Disk) : List (Place × ByteArray) :=
  before.hereEntry.changes after.hereEntry

end Disk

end CallChart.Files
