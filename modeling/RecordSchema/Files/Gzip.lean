import RecordSchema.Files.Deflate
import RecordSchema.Text.Quoted

/-!
# Compressed files

A compressed file is a sequence of members, each a header, a deflated stream, and a check sum with
the length.  Zero bytes may follow a member.  What is wrong with a member is found after its data,
so the data of a file that is damaged or cut off can be had up to that place.
-/

namespace RecordSchema.Gzip

open Deflate (Cursor Reader wholeBytes littleEndian)

/-- What is wrong with a compressed file, apart from being cut off. -/
inductive Fault where
  /-- A member does not start with the mark; the bytes that stand in its place. -/
  | start (bytes : List UInt8)
  /-- A member is compressed in an unknown way. -/
  | method
  /-- The check sum is not that of the data. -/
  | checkSum (stored computed : UInt32)
  /-- The length is not that of the data. -/
  | length
  /-- The data make no sense. -/
  | data (fault : Deflate.Fault)
deriving DecidableEq, Repr

/-- A number in hexadecimal digits. -/
def hexText (n : UInt32) : String := "0x" ++ String.ofList (Nat.toDigits 16 n.toNat)

/-- What is said about a fault. -/
def Fault.text : Fault → String
  | .start bytes => "Not a gzipped file (" ++ Quoted.bytes bytes ++ ")"
  | .method => "Unknown compression method"
  | .checkSum stored computed => "CRC check failed " ++ hexText stored ++ " != " ++ hexText computed
  | .length => "Incorrect length of data produced"
  | .data fault => "Error -3 while decompressing data: " ++ fault.text

/-- The two bytes with which a member starts. -/
def mark : List UInt8 := [0x1f, 0x8b]

/-! ### Check sums -/

/-- One bit of a check sum. -/
def stepBit (sum : UInt32) : UInt32 :=
  if sum &&& 1 = 1 then (sum >>> 1) ^^^ 0xedb88320 else sum >>> 1

/-- One byte of a check sum. -/
def stepByte (sum : UInt32) (b : UInt8) : UInt32 := Nat.repeat stepBit 8 (sum ^^^ b.toUInt32)

/-- The check sum of some data. -/
def checkSum (data : ByteArray) : UInt32 := data.foldl stepByte 0xffffffff ^^^ 0xffffffff

/-! ### Members -/

/-- Something read from a compressed file.  Reading stops at a fault, or without one if the file
ends too early. -/
abbrev Unpacker := EStateM (Option Fault) Cursor

/-- Read something that may stand in any data. -/
def ofReader {α : Type} (reader : Reader α) : Unpacker α :=
  reader.adaptExcept (·.map Fault.data)

/-- A text in a header, which ends with a zero byte. -/
def skipText : Nat → Reader Unit
  | 0 => throw none
  | steps + 1 => do
    if (← wholeBytes 1) ≠ [0] then skipText steps

/-- The rest of a header after the mark and the method: flags for what else there is, and six bytes
on the origin of the data. -/
def skipHeader (flags : Nat) : Reader Unit := do
  let steps := (← get).bytes.size
  if flags / 4 % 2 = 1 then
    let size ← wholeBytes 2
    discard (wholeBytes (littleEndian size))
  if flags / 8 % 2 = 1 then skipText steps
  if flags / 16 % 2 = 1 then skipText steps
  if flags / 2 % 2 = 1 then discard (wholeBytes 2)

/-- Pass over zero bytes. -/
def skipZeros : Nat → Unpacker Unit
  | 0 => return
  | steps + 1 => do
    let cursor ← get
    if cursor.bytes[cursor.position / 8]? = some 0 then
      set { cursor with position := cursor.position + 8 }
      skipZeros steps

/-- One member after its mark. -/
def member : Unpacker Unit := do
  let fixed ← ofReader (wholeBytes 8)
  if fixed.head? ≠ some 8 then throw (some .method)
  ofReader (skipHeader ((fixed[1]?).getD 0).toNat)
  ofReader Deflate.stream
  let trailer ← ofReader (wholeBytes 8)
  let cursor ← get
  let data := cursor.found.extract cursor.start cursor.found.size
  let stored := (littleEndian (trailer.take 4)).toUInt32
  let computed := checkSum data
  if stored ≠ computed then throw (some (.checkSum stored computed))
  if littleEndian (trailer.drop 4) ≠ data.size % Nat.pow 2 32 then throw (some .length)
  skipZeros cursor.bytes.size

/-- The members from here to the end of the file. -/
def members : Nat → Unpacker Unit
  | 0 => throw none
  | steps + 1 => do
    let cursor ← get
    let place := cursor.position / 8
    let start := (cursor.bytes.extract place (place + 2)).toList
    if start.isEmpty then return
    if start ≠ mark then throw (some (.start start))
    ofReader (discard (wholeBytes 2))
    member
    members steps

/-- The data of a compressed file, and what is wrong with it after them, if something is: a fault,
or none for a file that is cut off. -/
def unpack (bytes : ByteArray) : List UInt8 × Option (Option Fault) :=
  match members (bytes.size + 1) { bytes } with
  | .ok _ cursor => (cursor.found.toList, none)
  | .error stop cursor => (cursor.found.toList, some stop)

end RecordSchema.Gzip
