import RecordSchema.Records
import RecordSchema.Classification

/-!
# Surveys

A survey goes through the records of its sources in order and infers one node that covers them.
It may stop after a sample, and it may skip records with numbers that do not fit.  What lies
behind the sample is never looked at, so no failure there is seen and no source there is opened.

With several jobs each source is surveyed by itself and the nodes are merged afterwards.  There are
always as many workers as are asked for; that a system may not have them is left out here.
-/

namespace RecordSchema

/-- How a survey is made. -/
structure SurveyOptions where
  /-- The greatest number of records to read; all of them if it is not positive. -/
  sampleSize : Int := 0
  /-- Skip records with numbers out of range, in place of failing. -/
  skipErrors : Bool := false
  /-- The number of workers. -/
  jobs : Int := 1
  detection : Detection := {}
deriving DecidableEq, Repr, Inhabited

/-- How much a log entry matters. -/
inductive LogLevel where
  | info
  | warning
deriving DecidableEq, Repr

/-- The name of a level. -/
def LogLevel.name : LogLevel → String
  | .info => "INFO"
  | .warning => "WARNING"

/-- A remark made on the way. -/
structure LogEntry where
  level : LogLevel
  text : String
deriving DecidableEq, Repr

/-- What has been found so far. -/
structure Tally where
  /-- The records read, skipped ones included. -/
  read : Nat := 0
  skipped : Nat := 0
  node : Node := .void
  /-- The remarks made, the last one first. -/
  log : List LogEntry := []

/-- The ways in which a survey ends before its last record. -/
inductive Halt where
  /-- The sample is complete. -/
  | sampled (tally : Tally)
  | failed (failure : Failure) (tally : Tally)

/-- The records that a survey is about: how many, and the node that covers them. -/
structure Findings where
  count : Nat
  node : Node

/-- The result of a survey and the remarks made on the way. -/
structure Survey where
  result : Except Failure Findings
  log : List LogEntry

namespace Tally

/-- Make a remark. -/
def note (t : Tally) (level : LogLevel) (text : String) : Tally :=
  { t with log := ⟨level, text⟩ :: t.log }

/-- The sample has as many records as were asked for. -/
def isFull (t : Tally) (options : SurveyOptions) : Bool :=
  decide (0 < options.sampleSize) && decide (options.sampleSize ≤ t.read)

/-- Halt once the sample is complete. -/
def unlessFull (t : Tally) (options : SurveyOptions) : Except Halt Tally :=
  if t.isFull options then .error (.sampled t) else .ok t

/-- Take one more record.  A record that is skipped leaves the node as it was. -/
def takeRecord (options : SurveyOptions) (file : String) (t : Tally) (record : Value) :
    Except Halt Tally := do
  let t ← t.unlessFull options
  let t := { t with read := t.read + 1 }
  match t.node.fold options.detection record with
  | .ok node => return { t with node }
  | .error failure =>
    match options.skipErrors, failure with
    | true, .outOfRange _ _ =>
      let t := { t with skipped := t.skipped + 1 }
      return t.note .warning
        ("Skipping record " ++ toString t.read ++ " from " ++ file ++ ": " ++ failure.message)
    | _, _ => .error (.failed failure t)

/-- Take the records of one more source, and what ends it. -/
def takeSource (options : SurveyOptions) (t : Tally) (source : Source) : Except Halt Tally := do
  let t ← t.unlessFull options
  let t := t.note .info ("Reading " ++ source.name)
  let t ← source.records.foldlM (takeRecord options source.name) t
  match source.failure? with
  | none => return t
  | some failure =>
    let t ← t.unlessFull options
    .error (.failed failure t)

/-- The findings, with a remark on the totals. -/
def conclude (t : Tally) : Survey :=
  let t := t.note .info
    (toString t.read ++ " records read, " ++ toString t.skipped ++ " skipped")
  ⟨.ok ⟨t.read, t.node⟩, t.log.reverse⟩

end Tally

/-- Survey sources one after the other. -/
def surveyInOrder (options : SurveyOptions) (sources : List Source) : Survey :=
  match sources.foldlM (Tally.takeSource options) {} with
  | .ok t => t.conclude
  | .error (.sampled t) => t.conclude
  | .error (.failed failure t) => ⟨.error failure, t.log.reverse⟩

/-- Survey one source as a worker does: all of it, with failures handed over as errors. -/
def surveyByWorker (options : SurveyOptions) (source : Source) : Except Failure Findings :=
  match (surveyInOrder { options with sampleSize := 0 } [source]).result with
  | .ok findings => .ok findings
  | .error failure => .error failure.relayed

/-- Survey every source by itself.  The first source that fails decides the failure; remarks of
workers are not kept. -/
def surveyByWorkers (options : SurveyOptions) (sources : List Source) : Survey :=
  let result := do
    let parts ← sources.mapM (surveyByWorker options)
    return ⟨parts.foldl (fun total part => total + part.count) 0, Node.mergeAll (parts.map Findings.node)⟩
  ⟨result, []⟩

/-- The greatest sample that can be asked for. -/
def maxSample : Int := 0x7fffffffffffffff

/-- Survey sources with the given options. -/
def survey (options : SurveyOptions) (sources : List Source) : Survey :=
  if sources.isEmpty then ⟨.error .noInput, []⟩
  else if 1 < options.jobs ∧ 0 < options.sampleSize then ⟨.error .sampleWithJobs, []⟩
  else if 1 < options.jobs ∧ 1 < sources.length then surveyByWorkers options sources
  else if maxSample < options.sampleSize then ⟨.error .sampleTooLarge, []⟩
  else surveyInOrder options sources

end RecordSchema
