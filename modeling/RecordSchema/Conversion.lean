import RecordSchema.Survey
import RecordSchema.Report

/-!
# Conversions

A conversion surveys its sources, renders the report and writes it to a file.  Nothing is made or
written before the report stands.
-/

namespace RecordSchema

/-- What a conversion leaves behind. -/
structure Conversion where
  store : FileStore
  failure? : Option Failure
  log : List LogEntry

/-- Write a report to a path, making the directory it lies in if it is missing. -/
def FileStore.writeReport (store : FileStore) (path text : String) : FileStore × Option Failure :=
  let directory := Path.parent path
  let (store, failure?) :=
    if directory.isEmpty || store.pathExists directory then (store, none)
    else store.makeDirectories directory
  match failure? with
  | some failure => (store, some failure)
  | none =>
    match store.writeFile path text with
    | .ok store => (store, none)
    | .error failure => (store, some failure)

/-- The text that a survey comes to, in the given style. -/
def Survey.report (s : Survey) (style : ReportStyle) : Except Failure String := do
  let findings ← s.result
  RecordSchema.report style findings.count findings.node

/-- Survey sources and write the report to a path. -/
def convert (options : SurveyOptions) (style : ReportStyle) (sources : List Source)
    (path : String) (store : FileStore) : Conversion :=
  let found := survey options sources
  match found.report style with
  | .error failure => ⟨store, some failure, found.log⟩
  | .ok text =>
    let (store, failure?) := store.writeReport path text
    ⟨store, failure?, found.log⟩

end RecordSchema
