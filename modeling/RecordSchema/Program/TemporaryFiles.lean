import RecordSchema.Program.Run

/-!
# Temporary files

How a run goes about its work in files.  An input that is not in a file is first put into one, and a
report for the output is written to a file, read back and printed.  Both files are made at places of
their own before the work starts, and taken away when it ends, whether it succeeds or fails.
-/

namespace RecordSchema

namespace FileStore

/-- A store without the files at some places. -/
def remove (store : FileStore) (places : List Place) : FileStore :=
  { store with files := store.files.filter fun (place, _) => !places.contains place }

/-- The content of the file at a place that is known by a name. -/
def contentAt (store : FileStore) (place : Place) (name : String) : Except Failure Content :=
  match store.entryAt place with
  | .file content => .ok content
  | .directory => .error (.isDirectory name)
  | .missing => .error (.fileNotFound name)

end FileStore

namespace Program

/-- The places of the files that a run makes for itself. -/
structure Temporaries where
  /-- For an input that is not in a file. -/
  input : Place
  /-- For a report that goes to the output. -/
  output : Place

/-- The file for the report on the output, as it is known. -/
def reportName : String := "<report>"

/-- The files that a run makes before it starts: the input if no file is named, and an empty one for
a report that goes to the output. -/
def Request.temporaryFiles (r : Request) (t : Temporaries) (around : Surroundings) :
    List (Place × Content) :=
  let input := if r.inputs.isEmpty then [(t.input, .plain (Utf8.ofString around.input))] else []
  let output := match r.destination with
    | .output => [(t.output, .plain [])]
    | .file _ | .unnamedFile | .unusable _ => []
  input ++ output

/-- The sources of a request when its input is in a file. -/
def Request.sourcesInFiles (r : Request) (t : Temporaries) (store : FileStore) : List Source :=
  if r.inputs.isEmpty then
    match store.contentAt t.input inputName with
    | .ok content => [.ofBytes inputName content.stored]
    | .error failure => [.ofFailure inputName failure]
  else r.inputs.map store.source

/-- What is printed of the report in a file: its text with unified line ends. -/
def printed (store : FileStore) (place : Place) : Except Fault String := do
  let content ← (store.contentAt place reportName).mapError Fault.failure
  match Utf8.decode content.stored with
  | .ok text => return Newline.unified text
  | .error fault => .error (.failure (.invalidText fault))

/-- Work with the files that have been made. -/
def Request.workBetween (r : Request) (t : Temporaries) (store : FileStore) : Work :=
  match r.options with
  | .error fault => ⟨.error fault, store, []⟩
  | .ok options =>
    let sources := r.sourcesInFiles t store
    let toFile := fun path =>
      let converted := convert options r.style sources path store
      let result := match converted.failure? with
        | none => .ok ""
        | some failure => .error (.failure failure)
      ⟨result, converted.store, converted.log⟩
    let found := survey options sources
    match r.destination, found.report r.style with
    | .file path, _ => toFile path
    | .unnamedFile, _ => toFile Destination.unnamedPath
    | _, .error failure => ⟨.error (.failure failure), store, found.log⟩
    | .unusable value, .ok _ => ⟨.error (.notAPath value.typeName), store, found.log⟩
    | .output, .ok text =>
      let store := store.put t.output (.plain (Utf8.ofString text))
      ⟨printed store t.output, store, found.log⟩

/-- Make the files, work with them, and take them away. -/
def Request.workInFiles (r : Request) (t : Temporaries) (around : Surroundings) : Work :=
  let files := r.temporaryFiles t around
  let store := files.foldl (fun store (place, content) => store.put place content) around.store
  let work := r.workBetween t store
  { work with store := work.store.remove (files.map Prod.fst) }

end Program

end RecordSchema
