import RecordSchema.ErrorObject
import RecordSchema.Files.Gzip

/-!
# Failures

Everything that can go wrong, by cause.  The wording is in one place, `Failure.arguments`; a failure
is raised as an error of its class (`Failure.error`), which decides what its message is and what it
is about — a location in a record, a file.
-/

namespace RecordSchema

/-- The ways in which inference, reading or writing can fail. -/
inductive Failure where
  /-- A value of a type that records do not hold. -/
  | unsupportedValue (typeName path : String)
  /-- An integral number outside the signed 64-bit range. -/
  | outOfRange (literal : Literal) (path : String)
  /-- The same, after a worker has handed it over by its text. -/
  | outOfRangeInWorker (literal : Literal) (path : String)
  /-- A signaling NaN where a double is needed. -/
  | signalingNaN
  /-- A table is asked for, and the type is not a struct. -/
  | notATable (typeText : String)
  /-- A file stops being well-formed after so many values.  The message ends before the colon after
  which the parser's own words on the place would follow; they are not part of this description. -/
  | malformed (records : Nat) (file : String)
  /-- The bytes of a string are not a text. -/
  | invalidText (fault : Utf8.Fault)
  /-- The power of ten of a number is out of bounds. -/
  | invalidNumber
  /-- No input file is given. -/
  | noInput
  /-- A sample is asked for, together with several jobs. -/
  | sampleWithJobs
  /-- A sample is asked for that no count can reach. -/
  | sampleTooLarge
  | fileNotFound (path : String)
  | isDirectory (path : String)
  | notDirectory (path : String)
  | fileExists (path : String)
  /-- A path holds a NUL character. -/
  | nulInPath
  /-- A file that should be compressed is not what compressed files are. -/
  | notCompressed (fault : Gzip.Fault)
  /-- A compressed file stops before its end mark. -/
  | compressedEndsEarly
deriving DecidableEq, Repr

namespace Failure

/-- The class of the error that is raised. -/
def errorClass : Failure → ErrorClass
  | .unsupportedValue _ _ => .record
  | .outOfRange _ _ | .outOfRangeInWorker _ _ => .range
  | .notATable _ => .table
  | .malformed _ _ => .input
  | .signalingNaN | .noInput | .sampleWithJobs | .sampleTooLarge | .nulInPath => .value
  | .invalidText _ => .decoding
  | .invalidNumber => .decimal
  | .fileNotFound _ | .isDirectory _ | .notDirectory _ | .fileExists _ => .system
  | .notCompressed (.data _) => .inflation
  | .notCompressed _ => .archive
  | .compressedEndsEarly => .ending

/-- What the error is built from. -/
def arguments : Failure → List ErrorArgument
  | .unsupportedValue typeName path =>
    [.text ("Unsupported value of type " ++ typeName), .text path]
  | .outOfRange literal path => [.literal literal, .text path]
  | .outOfRangeInWorker literal path => [.literal literal, .text path]
  | .signalingNaN => [.text "cannot convert signaling NaN to float"]
  | .notATable typeText =>
    [.text ("Cannot declare a table for top-level type " ++ typeText),
      .text "only flat rendering supports non-struct records"]
  | .malformed records file =>
    [.text ("Malformed JSON after " ++ toString records ++ " records"), .text file]
  | .invalidText fault => [.undecoded fault]
  | .invalidNumber => [.text "[<class 'decimal.InvalidOperation'>]"]
  | .noInput => [.text "At least one input file is required"]
  | .sampleWithJobs => [.text "sample_size cannot be combined with more than one job"]
  | .sampleTooLarge =>
    [.text "Stop argument for islice() must be None or an integer: 0 <= x <= sys.maxsize."]
  | .fileNotFound path => [.number 2, .text "No such file or directory", .text path]
  | .isDirectory path => [.number 21, .text "Is a directory", .text path]
  | .notDirectory path => [.number 20, .text "Not a directory", .text path]
  | .fileExists path => [.number 17, .text "File exists", .text path]
  | .nulInPath => [.text "embedded null byte"]
  | .notCompressed fault => [.text fault.text]
  | .compressedEndsEarly =>
    [.text "Compressed file ended before the end-of-stream marker was reached"]

/-- The error that stands for a failure.  One that a worker has handed over has been built twice. -/
def error (failure : Failure) : ErrorObject :=
  let raised := failure.errorClass.build failure.arguments
  match failure with
  | .outOfRangeInWorker _ _ => raised.rebuilt
  | _ => raised

/-- What the failure is about: a location in a record, a file, or a remark. -/
def context? (failure : Failure) : Option String := failure.error.attributes.context?

/-- The full text of a failure. -/
def message (failure : Failure) : String := failure.error.text

/-- A failure as it arrives from a worker, where its error has been built again.  Only the error of
a number out of range is another one then. -/
def relayed : Failure → Failure
  | .outOfRange literal path => .outOfRangeInWorker literal path
  | failure => failure

end Failure

end RecordSchema
