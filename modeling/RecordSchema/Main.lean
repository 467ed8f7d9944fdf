import RecordSchema.Program.Run

/-!
# The executable

Looks up the files that the command line names, runs the program on them, and makes what has
changed real.
-/

namespace RecordSchema

/-- The text of a place, from the root. -/
def pathOf (place : Place) : String := "/" ++ String.intercalate "/" place

/-- Look up what stands at a place. -/
def lookUp (store : FileStore) (place : Place) : IO FileStore := do
  let path := (← IO.currentDir) / pathOf place
  if ← path.isDir then return { store with directories := store.directories ++ [place] }
  else if ← path.pathExists then return store.put place (Content.ofBytes (← IO.FS.readBinFile path))
  else return store

/-- Look up what stands on the way to a path, and at its end. -/
def lookUpPath (store : FileStore) (path : String) : IO FileStore := do
  let mut store := store
  let mut place := store.startOf path
  for part in FileStore.partsOf path do
    place := FileStore.placeAfter place part
    store ← lookUp store place
  return store

/-- Make what has changed since `earlier` real. -/
def makeReal (store earlier : FileStore) : IO Unit := do
  for place in store.directories do
    unless earlier.directories.contains place do
      IO.FS.createDir (pathOf place)
  for (place, content) in store.files do
    unless earlier.files.lookup place = some content do
      IO.FS.writeBinFile (pathOf place) ⟨content.stored.toArray⟩

/-- All that stands on the input. -/
def readInput : IO String := do
  let input ← IO.getStdin
  let mut text := ""
  repeat
    let line ← input.getLine
    if line.isEmpty then break
    text := text ++ line
  return text

end RecordSchema

open RecordSchema in
/-- Run the program. -/
def main (arguments : List String) : IO UInt32 := do
  let directory := (← IO.currentDir).toString
  let parts := (FileStore.partsOf directory).filter (!·.isEmpty)
  let needs := Program.needs arguments
  let mut store : FileStore := { workingDirectory := parts }
  for path in needs.paths do
    store ← lookUpPath store path
  let input ← if needs.input then readInput else pure ""
  match Program.runArguments arguments { input, store } with
  | .error setting =>
    IO.eprintln (Program.missingMessage setting)
    return 1
  | .ok outcome =>
    makeReal outcome.store store
    IO.print outcome.output
    IO.eprint outcome.errors
    return outcome.status.toUInt32
