import RecordSchema.Failure
import RecordSchema.Files.Path
import RecordSchema.Sorting

/-!
# File stores

The files that a run can see, as a value.  A place is known by the names on the way from the root;
relative paths start at the working directory.  Walking along a path and opening, making and
writing follow the rules of the system, down to which failure is reported when there are several.
-/

namespace RecordSchema

/-- What a file holds. -/
inductive Content where
  | plain (bytes : List UInt8)
  /-- The compressed form of some bytes.  If it is cut off, these are the bytes before the cut. -/
  | compressed (bytes : List UInt8) (isWhole : Bool)
  /-- Compressed data with a fault after the form of these bytes. -/
  | damaged (bytes : List UInt8) (fault : Gzip.Fault)
deriving DecidableEq, Repr

/-- The names on the way from the root to a place. -/
abbrev Place := List String

/-- The files and directories of a run. -/
structure FileStore where
  files : List (Place × Content) := []
  /-- Directories that exist even if they hold nothing. -/
  directories : List Place := []
  /-- Where relative paths start.  Unless it matters where that is, it is a place that no path
  from the root leads to, since no part of a path is empty. -/
  workingDirectory : Place := [""]
deriving Inhabited

namespace FileStore

/-- A place counts as a directory if it is listed, or on the way to something. -/
def isDirectory (store : FileStore) (place : Place) : Bool :=
  let leads := fun other : Place => place.isPrefixOf other
  place.isPrefixOf store.workingDirectory || store.directories.any leads ||
    store.files.any fun (other, _) => other != place && leads other

/-- What stands at a place. -/
inductive Entry where
  | file (content : Content)
  | directory
  | missing

/-- What stands at a place. -/
def entryAt (store : FileStore) (place : Place) : Entry :=
  match store.files.lookup place with
  | some content => .file content
  | none => if store.isDirectory place then .directory else .missing

/-- The place that one part of a path leads to. -/
def placeAfter (place : Place) (part : String) : Place :=
  if part = "" ∨ part = "." then place
  else if part = ".." then place.dropLast
  else place ++ [part]

/-- Walk along parts.  Each part but the last has to lead to a directory. -/
def walk (store : FileStore) (path : String) (place : Place) : List String → Except Failure Place
  | [] => .ok place
  | part :: parts =>
    match store.entryAt place with
    | .directory => store.walk path (placeAfter place part) parts
    | .file _ => .error (.notDirectory path)
    | .missing => .error (.fileNotFound path)

/-- Where a path starts: at the root if it begins with a slash. -/
def startOf (store : FileStore) (path : String) : Place :=
  if path.toList.head? = some '/' then [] else store.workingDirectory

/-- The parts of a path. -/
def partsOf (path : String) : List String := (Path.parts path.toList).map String.ofList

/-- The place of a path, existing or not.  The empty path has none. -/
def resolve (store : FileStore) (path : String) : Except Failure Place :=
  if path.toList.contains '\x00' then .error .nulInPath
  else if path.isEmpty then .error (.fileNotFound path)
  else store.walk path (store.startOf path) (partsOf path)

/-- Something stands at a path. -/
def pathExists (store : FileStore) (path : String) : Bool :=
  match store.resolve path with
  | .ok place =>
    match store.entryAt place with
    | .missing => false
    | _ => true
  | .error _ => false

/-- The content of the file at a path. -/
def openFile (store : FileStore) (path : String) : Except Failure Content := do
  let place ← store.resolve path
  match store.entryAt place with
  | .file content => return content
  | .directory => .error (.isDirectory path)
  | .missing => .error (.fileNotFound path)

/-- The directory in which the last part of a path lies, and that part.  Slashes at the end of
the path do not count as parts. -/
def locate (store : FileStore) (path : String) : Except Failure (Place × String) :=
  if path.toList.contains '\x00' then .error .nulInPath
  else if path.isEmpty then .error (.fileNotFound path)
  else do
    let parts := partsOf (String.ofList (Path.trimSlashes path.toList))
    let place ← store.walk path (store.startOf path) parts.dropLast
    match store.entryAt place with
    | .directory => return (place, parts.getLast?.getD "")
    | .file _ => .error (.notDirectory path)
    | .missing => .error (.fileNotFound path)

/-- Make one directory, whose parent has to be there. -/
def makeDirectory (store : FileStore) (path : String) : Except Failure FileStore := do
  let (place, part) ← store.locate path
  let target := placeAfter place part
  match store.entryAt target with
  | .missing => return { store with directories := store.directories ++ [target] }
  | _ => .error (.fileExists path)

/-- Make a directory and those on the way to it that are missing, outermost first.  That one of
those turns out to exist is no failure, and a failure leaves what has been made before it. -/
def makeDirectoriesWithin : Nat → FileStore → String → FileStore × Option Failure
  | 0, store, _ => (store, none)
  | depth + 1, store, path =>
    let (head, last) :=
      match Path.split path.toList with
      | (head, []) => Path.split head
      | parts => parts
    let parent := String.ofList head
    let missing := !head.isEmpty && !last.isEmpty && !store.pathExists parent
    let (store, failure?) :=
      if missing then makeDirectoriesWithin depth store parent else (store, none)
    let makeLast :=
      -- a dot names the directory that has just been made
      if missing && last = ['.'] then (store, none)
      else
        match store.makeDirectory path with
        | .ok store => (store, none)
        | .error failure => (store, some failure)
    match failure? with
    | none => makeLast
    | some (.fileExists _) => makeLast
    | some failure => (store, some failure)

/-- Make a directory and those on the way to it.  Every step up the path shortens its text. -/
def makeDirectories (store : FileStore) (path : String) : FileStore × Option Failure :=
  makeDirectoriesWithin (path.length + 1) store path

/-- Put a file at a place, over the one that may be there. -/
def put (store : FileStore) (place : Place) (content : Content) : FileStore :=
  { store with files := store.files.filter (fun (other, _) => other != place) ++ [(place, content)] }

/-- Write a text as the file at a path, whose directory has to be there.  A path that ends in a
slash names no file. -/
def writeFile (store : FileStore) (path text : String) : Except Failure FileStore := do
  let (place, part) ← store.locate path
  let target := placeAfter place part
  match store.entryAt target with
  | .directory => .error (.isDirectory path)
  | _ =>
    if path.toList.getLast? = some '/' then .error (.isDirectory path)
    else return store.put target (.plain (Utf8.ofString text))

/-! ### Comparing stores -/

/-- The path from the working directory to a place below it. -/
def relativePath? (store : FileStore) (place : Place) : Option String :=
  let depth := store.workingDirectory.length
  if store.workingDirectory.isPrefixOf place && decide (depth < place.length) then
    some (String.intercalate "/" (place.drop depth))
  else none

/-- The files below the working directory that an earlier store did not hold in this form, by
their relative paths and in the order of these. -/
def changesSince (store earlier : FileStore) : List (String × Content) :=
  let changed := store.files.filterMap fun (place, content) =>
    if earlier.files.lookup place = some content then none
    else (store.relativePath? place).map fun path => (path, content)
  sortBy (fun a b => decide (a.1 ≤ b.1)) changed

end FileStore

end RecordSchema
