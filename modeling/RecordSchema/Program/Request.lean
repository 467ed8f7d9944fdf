import RecordSchema.CommandLine.Reference
import RecordSchema.Program.Interface
import RecordSchema.Report
import RecordSchema.Survey

/-!
# Requests

What the settings of a run ask for.  Settings need not come from the command line of the program,
so each of them may be missing or of any type.  The report goes to the output of the program if
the settings name no file; a name that is empty, or not there at all, stands for a file of its own.
-/

namespace RecordSchema.Program

/-- The ways in which a run can fail. -/
inductive Fault where
  | failure (cause : Failure)
  | missing (setting : MissingSetting)
  /-- The inputs are no list. -/
  | notAList (typeName : String)
  /-- An input is no text. -/
  | notAText (position : Nat) (typeName : String)
  /-- A count is no number. -/
  | notANumber (typeName : String)
  /-- The output is no path. -/
  | notAPath (typeName : String)

/-- What is said about a setting that is not there. -/
def missingMessage (setting : MissingSetting) : String :=
  "'Namespace' object has no attribute " ++ Quoted.text setting.name

/-- What is said about a fault. -/
def Fault.message : Fault → String
  | .failure cause => cause.message
  | .missing setting => missingMessage setting
  | .notAList typeName => "'" ++ typeName ++ "' object is not iterable"
  | .notAText position typeName =>
    "sequence item " ++ toString position ++ ": expected str instance, " ++ typeName ++ " found"
  | .notANumber typeName =>
    "'>' not supported between instances of '" ++ typeName ++ "' and 'int'"
  | .notAPath typeName => "expected str, bytes or os.PathLike object, not " ++ typeName

/-- Where the report goes. -/
inductive Destination where
  /-- The output of the program. -/
  | output
  /-- A file that the settings name. -/
  | file (path : String)
  /-- The file that stands for an empty name. -/
  | unnamedFile
  /-- What cannot be a path. -/
  | unusable (value : Setting)

namespace Destination

/-- The name of the file that stands for an empty name. -/
def unnamedPath : String := "output_file_path"

/-- The destination that the settings name: the output if there is none, and a file of its own
for one that is there and empty. -/
def ofSettings (settings : Settings) : Destination :=
  match settings.get? "out" with
  | some .null => .output
  | some (.text path) => if path.isEmpty then .unnamedFile else .file path
  | some value => if value.holds then .unusable value else .unnamedFile
  | none => .unnamedFile

/-- The name under which a destination is announced, if it is. -/
def announced? : Destination → Option String
  | .file path => some path
  | .unusable value => some value.shown
  | .output | .unnamedFile => none

end Destination

/-- The texts among the inputs, all of which have to be texts. -/
def textsFrom (position : Nat) : List Setting → Except Fault (List String)
  | [] => .ok []
  | .text text :: rest => do return text :: (← textsFrom (position + 1) rest)
  | other :: _ => .error (.notAText position other.typeName)

/-- The inputs that the settings name.  A text is the list of its characters. -/
def inputs (settings : Settings) : Except Fault (List String) :=
  let value := (settings.get? "input").getD .null
  if !value.holds then .ok []
  else
    match value with
    | .list items => textsFrom 0 items
    | .text text => .ok (text.toList.map fun c => String.ofList [c])
    | other => .error (.notAList other.typeName)

/-- The count that a setting stands for.  A number that is not whole is no count; it only matters
whether it exceeds `bound`, and if it does it stands for `above`. -/
def count (bound above : Int) : Setting → Except Fault Int
  | .number value => .ok (if (Double.ofInt bound).lt value then above else bound)
  | setting =>
    match setting.toInteger? with
    | some value => .ok value
    | none => .error (.notANumber setting.typeName)

/-- What a run is asked for. -/
structure Request where
  inputs : List String
  destination : Destination
  style : ReportStyle
  /-- Settings of the wrong type show only when the survey starts. -/
  options : Except Fault SurveyOptions

/-- What the settings ask for.  Of several settings that are missing, the first one counts. -/
def request (settings : Settings) : Except Fault Request := do
  let resolve := fun text => (settings.resolve text).mapError Fault.missing
  let inputs ← inputs settings
  let tableName ← resolve "args.table_name"
  let flat ← resolve "args.flat"
  let sampleSize ← resolve "args.sample_size"
  let skipErrors ← resolve "args.skip_errors"
  let jobs ← resolve "args.jobs"
  let timestamps ← resolve "not args.no_timestamps"
  let binary ← resolve "not args.no_binary"
  let shapes ← resolve "args.shapes"
  let options := do
    let jobs ← count 1 2 jobs
    let sampleSize ← count 0 (maxSample + 1) sampleSize
    return {
      sampleSize, jobs
      skipErrors := skipErrors.holds
      detection := { timestamps := timestamps.holds, binary := binary.holds } }
  return {
    inputs, options
    destination := .ofSettings settings
    style := { tableName := tableName.shown, flat := flat.holds, shapes := shapes.holds } }

/-- What has to be known before a run. -/
structure Needs where
  /-- The paths whose files, or whose places, matter. -/
  paths : List String := []
  /-- The input is read. -/
  input : Bool := false

/-- The paths of a destination. -/
def Destination.paths : Destination → List String
  | .file path => [path]
  | .unnamedFile => [unnamedPath]
  | .output | .unusable _ => []

/-- What has to be known before a run with a command line.  The input matters only if no file is
named, and nothing does if the command line asks for no more than help. -/
def needs (arguments : List String) : Needs :=
  match interface.parse arguments with
  | .error _ => {}
  | .ok settings =>
    let isInfer := ((settings.get? "command").getD .null).agrees (.text inferCommand.name)
    if !isInfer || ((settings.get? "version").getD .null).holds then {}
    else
      match request settings with
      | .error _ => {}
      | .ok request =>
        { paths := request.inputs ++ request.destination.paths
          input := request.inputs.isEmpty }

end RecordSchema.Program
