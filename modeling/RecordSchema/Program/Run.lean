import RecordSchema.Conversion
import RecordSchema.Program.Request
import RecordSchema.Text.Newline

/-!
# Runs

A run is a function from settings, input and files to what is printed and what the files are then.
Without files to read it reads its input, which is stored first and known by a name of its own.
A report for the output goes through a file as well, so its line ends are unified.
-/

namespace RecordSchema.Program

/-- What a run has around it. -/
structure Surroundings where
  /-- What stands on its input. -/
  input : String := ""
  store : FileStore := {}

/-- What a run comes to. -/
structure Outcome where
  status : Nat := 0
  output : String := ""
  errors : String := ""
  store : FileStore

/-- The name under which the input is known once it has been stored. -/
def inputName : String := "<temp>"

/-- The sources of a request: the files it names, or the input if it names none. -/
def Request.sources (r : Request) (around : Surroundings) : List Source :=
  if r.inputs.isEmpty then [.ofBytes inputName (Utf8.ofString around.input)]
  else r.inputs.map around.store.source

/-- What is printed before the work starts, if the report goes to a named file. -/
def Request.announcement (r : Request) : String :=
  match r.destination.announced? with
  | none => ""
  | some destination =>
    let inputs := if r.inputs.isEmpty then [inputName] else r.inputs
    "Executing " ++ inferCommand.summary ++ " with input " ++ String.intercalate ", " inputs ++
      " and output " ++ destination ++ "\n"

/-- What is printed about a fault. -/
def faultText (fault : Fault) : String := "Error:  " ++ fault.message ++ "\n"

/-- The log as it is printed: warnings, and the rest if it is asked for. -/
def logText (isVerbose : Bool) (log : List LogEntry) : String :=
  let kept := log.filter fun entry => isVerbose || entry.level = .warning
  String.join (kept.map fun entry =>
    entry.level.name ++ " hiveschema.jsontohive: " ++ entry.text ++ "\n")

/-- What the work on a request comes to. -/
structure Work where
  result : Except Fault String
  store : FileStore
  log : List LogEntry := []

/-- Work on a request with options of the right types. -/
def Request.workWith (r : Request) (options : SurveyOptions) (around : Surroundings) : Work :=
  let sources := r.sources around
  let toFile := fun path =>
    let converted := convert options r.style sources path around.store
    let result := match converted.failure? with
      | none => .ok ""
      | some failure => .error (.failure failure)
    ⟨result, converted.store, converted.log⟩
  let report := fun finish =>
    let found := survey options sources
    ⟨(found.report r.style).mapError Fault.failure >>= finish, around.store, found.log⟩
  match r.destination with
  | .output => report fun text => .ok (Newline.unified text)
  | .file path => toFile path
  | .unnamedFile => toFile Destination.unnamedPath
  | .unusable value => report fun _ => .error (.notAPath value.typeName)

/-- Work on a request: what it prints beside the announcement, or its fault. -/
def Request.work (r : Request) (around : Surroundings) : Work :=
  match r.options with
  | .ok options => r.workWith options around
  | .error fault => ⟨.error fault, around.store, []⟩

/-- Infer a schema as the settings ask. -/
def infer (settings : Settings) (around : Surroundings) : Outcome :=
  match request settings with
  | .error fault => { status := 1, output := faultText fault, store := around.store }
  | .ok request =>
    let work := request.work around
    let isVerbose := ((settings.get? "verbose").getD .null).holds
    let (status, text) := match work.result with
      | .ok text => (0, text)
      | .error fault => (1, faultText fault)
    { status
      output := request.announcement ++ text
      errors := logText isVerbose work.log
      store := work.store }

/-- Do what the settings ask.  Without the setting for the command there is nothing to ask. -/
def run (settings : Settings) (around : Surroundings) : Except MissingSetting Outcome := do
  let printing := fun text => { output := text, store := around.store : Outcome }
  if ((settings.get? "version").getD .null).holds then
    return printing ("hiveschema " ++ version ++ "\n")
  match ← settings.require "command" with
  | .null => return printing interface.parser.help
  | command =>
    if command.agrees (.text inferCommand.name) then return infer settings around
    else
      return { printing ("Error: Command " ++ command.shown ++ " not found.\n") with status := 1 }

/-- Do what a command line asks. -/
def runArguments (arguments : List String) (around : Surroundings) :
    Except MissingSetting Outcome :=
  match interface.parse arguments with
  | .ok settings => run settings around
  | .error exit =>
    .ok { status := exit.status, output := exit.output, errors := exit.errors,
          store := around.store }

end RecordSchema.Program
