import RecordSchema.Json.Reader
import RecordSchema.Files.Store
import RecordSchema.Text.Whitespace

/-!
# Sources of records

A source is a file as it was found: the values that can be read from it, and the failure that
ends it early, if one does.  Only files whose names end in `.gz` are decompressed.  One of them that
is cut off or damaged has the values that stand in its data up to there.

An input in which no value stands is reported like a malformed one.  The file is then looked through
once more, since a blank file is no failure: it has no records.
-/

namespace RecordSchema

/-- The records of one input. -/
structure Source where
  /-- The path under which the input was asked for. -/
  name : String
  records : List Value
  /-- What comes after the last record, if it is not the end. -/
  failure? : Option Failure

/-- What a defect of an input means for the file it stands in, after so many values. -/
def Json.Defect.toFailure (file : String) (records : Nat) : Json.Defect → Failure
  | .malformed => .malformed records file
  | .text fault => .invalidText fault
  | .number => .invalidNumber

/-- What is reported after the values of an input.  One without a value is malformed. -/
def Json.Reading.reported? (reading : Json.Reading) : Option Json.Defect :=
  if reading.values.isEmpty then some (reading.defect?.getD .malformed) else reading.defect?

namespace Source

/-- The source that some bytes make.  Where the first value is malformed, the bytes are looked
through a second time. -/
def ofBytes (name : String) (bytes : List UInt8) : Source :=
  let reading := Json.read bytes
  let reported? := reading.reported?
  { name
    records := reading.values
    failure? :=
      if reported? = some .malformed && reading.values.isEmpty && Whitespace.fills bytes then none
      else reported?.map (Json.Defect.toFailure name reading.values.length) }

/-- The source that some bytes make if reading on fails.  A second look fails as well, unless it
meets something before that. -/
def ofPart (name : String) (bytes : List UInt8) (failure : Failure) : Source :=
  let reading := Json.readPart bytes
  { name
    records := reading.values
    failure? :=
      match reading.defect? with
      | none => some failure
      | some defect =>
        if defect = .malformed && reading.values.isEmpty && Whitespace.fills bytes then some failure
        else some (defect.toFailure name reading.values.length) }

/-- The source that fails before its first record. -/
def ofFailure (name : String) (failure : Failure) : Source := ⟨name, [], some failure⟩

end Source

/-- The bytes that reading yields, and the failure that keeps it from going on. -/
structure Delivery where
  bytes : List UInt8
  failure? : Option Failure

namespace Delivery

/-- How many bytes are asked for at a time. -/
def pieceSize : Nat := 0x10000

/-- The delivery of bytes after which reading fails.  They are delivered in pieces, and a piece that
is not complete by then is lost. -/
def broken (bytes : List UInt8) (failure : Failure) : Delivery :=
  ⟨bytes.take (bytes.length / pieceSize * pieceSize), some failure⟩

/-- The source that a delivery makes. -/
def source (name : String) (delivery : Delivery) : Source :=
  match delivery.failure? with
  | none => .ofBytes name delivery.bytes
  | some failure => .ofPart name delivery.bytes failure

end Delivery

namespace Content

/-- The content of a file with the given bytes.  Bytes that start like compressed data are unpacked.
Where the data make no sense, all that can be unpacked counts as being there, although what has been
unpacked of a piece just before that place may be lost with the next one. -/
def ofBytes (bytes : ByteArray) : Content :=
  if bytes.toList.take 2 ≠ Gzip.mark then .plain bytes.toList
  else
    match Gzip.unpack bytes with
    | (data, none) => .compressed data true
    | (data, some none) => .compressed data false
    | (data, some (some fault)) => .damaged data fault

/-- The bytes as they stand in the file.  Of compressed data only the start is known, which is
enough to tell that it is no text. -/
def stored : Content → List UInt8
  | .plain bytes => bytes
  | .compressed _ _ => Gzip.mark
  | .damaged _ _ => Gzip.mark

/-- The bytes that decompressing yields.  An empty file counts as compressed.  Plain bytes are not
unpacked: if they start like compressed data, they are cut off before the first byte. -/
def decompressed : Content → Delivery
  | .compressed bytes true => ⟨bytes, none⟩
  | .compressed bytes false => .broken bytes .compressedEndsEarly
  | .damaged bytes fault => .broken bytes (.notCompressed fault)
  | .plain [] => ⟨[], none⟩
  | .plain bytes =>
    if bytes.take 2 = Gzip.mark then .broken [] .compressedEndsEarly
    else .broken [] (.notCompressed (.start (bytes.take 2)))

end Content

namespace FileStore

/-- What reading the file at a path yields.  It is decompressed if its name asks for it. -/
def deliver (store : FileStore) (path : String) : Delivery :=
  match store.openFile path with
  | .ok content => if path.endsWith ".gz" then content.decompressed else ⟨content.stored, none⟩
  | .error failure => ⟨[], some failure⟩

/-- The bytes of a file that can be read to its end. -/
def readFile (store : FileStore) (path : String) : Except Failure (List UInt8) :=
  match store.deliver path with
  | ⟨bytes, none⟩ => .ok bytes
  | ⟨_, some failure⟩ => .error failure

/-- The records of the file at a path. -/
def source (store : FileStore) (path : String) : Source := (store.deliver path).source path

end FileStore

end RecordSchema
