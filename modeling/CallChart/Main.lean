import CallChart.CommandLine

/-!
# The program

The folder that the program is started in is pictured as a disk. The command
line runs on the picture, and what it has changed there is written back.

The picture holds the folder and all that is below it. Of the folders above it
holds only what says which files are ignored. A link that leads nowhere is left
out, and so is what cannot be read.
-/

namespace CallChart.Program

open Files (Entry Disk Place)

/-- Asks for an entry, which may not be readable. -/
def attempt (read : IO Entry) : IO (Option Entry) := do
  try return some (← read) catch _ => return none

/-- Pictures a folder. -/
partial def folder (path : String) : IO Entry := do
  let mut entries := #[]
  for found in ← (← IO.FS.realPath path).readDir do
    let inner := path ++ "/" ++ found.fileName
    let entry? ← match (← found.path.symlinkMetadata).type with
      | .dir => attempt (folder inner)
      | .file => attempt (Entry.file <$> IO.FS.readBinFile inner)
      | .symlink =>
        if ← found.path.pathExists then
          attempt do return .link (← IO.FS.realPath inner).toString
        else pure none
      | .other => pure none
    if let some entry := entry? then
      entries := entries.push (found.fileName, entry)
  return .folder entries.toList

/-- The names in a folder that bear on what is ignored below it. -/
def markers : List String := [".git", ".gitignore", ".ignore"]

def markersIn (path : String) : IO (List (String × Entry)) := do
  let mut entries := #[]
  for found in ← (← IO.FS.realPath path).readDir do
    if markers.contains found.fileName then
      let entry? ← if ← found.path.isDir then pure (some (Entry.folder []))
        else attempt (Entry.file <$> IO.FS.readBinFile (path ++ "/" ++ found.fileName))
      if let some entry := entry? then
        entries := entries.push (found.fileName, entry)
  return entries.toList

/-- Pictures the folders on the way from a path down to a place below it. Of each only the markers
are taken and the folder that the way goes on through. -/
def chain (path : String) : Place → IO Entry
  | [] => folder path
  | name :: place => do
    let entry ← chain (path ++ "/" ++ name) place
    let markers ← try markersIn (path ++ "/") catch _ => pure []
    return .folder (Entry.setChild name entry markers)

/-- Pictures the disk as seen from the working folder. -/
def disk : IO Disk := do
  let here := (Files.piecesOf (← IO.currentDir).toString).filter (!·.isEmpty)
  return { root := ← chain "" here, here }

def pathOf (place : Place) : String := "/" ++ "/".intercalate place

/-- Writes back what has changed: new folders first, and then the files that are new or other than
before. Nothing is ever removed. -/
def store (before after : Entry) : IO Unit := do
  for place in before.newFolders after do
    IO.FS.createDirAll (pathOf place)
  for (place, content) in before.changes after do
    IO.FS.writeBinFile (pathOf place) content

end CallChart.Program

open CallChart in
/-- Runs the command line in the working folder. -/
def main (arguments : List String) : IO UInt32 := do
  let disk ← Program.disk
  let outcome := CommandLine.run disk arguments
  Program.store disk.root outcome.disk.root
  IO.print outcome.output
  IO.eprint outcome.report
  if outcome.exit = 2 then
    IO.eprintln CommandLine.programSpec.usage
  return outcome.exit.toUInt32
