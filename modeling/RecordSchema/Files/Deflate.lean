/-!
# Deflated data

The bytes that a deflated stream stands for.  A stream is a sequence of blocks; a block holds
bytes as they are, or symbols in one of two prefix codes: a literal byte, the end of the block, or
the length and distance of a repetition.  A prefix code is given by the lengths of its words alone:
shorter words come first, and among words of one length the lower symbol.

A stream can be cut off, and it can hold what no stream holds.  In both cases the bytes that stand
before that place are kept.

Every step takes at least one bit, so the number of bits bounds the number of steps.
-/

namespace RecordSchema.Deflate

/-- What no stream holds. -/
inductive Fault where
  /-- A block of no known kind. -/
  | blockType
  /-- Two lengths of plain bytes that are not each other's complement. -/
  | plainLength
  /-- More words than a code can have. -/
  | symbolCount
  /-- Lengths of words that make no code of lengths. -/
  | lengthCode
  /-- A run of lengths that repeats nothing, or one that is too long. -/
  | lengthRun
  /-- Codes in which a block cannot end. -/
  | noEnd
  /-- Lengths of words that make no code of literals. -/
  | literalCode
  /-- Lengths of words that make no code of distances. -/
  | distanceCode
  /-- A word that stands for no literal. -/
  | literal
  /-- A word that stands for no distance. -/
  | distance
  /-- A distance that leads to before the start. -/
  | farDistance
deriving DecidableEq, Repr

/-- What is said about a fault. -/
def Fault.text : Fault → String
  | .blockType => "invalid block type"
  | .plainLength => "invalid stored block lengths"
  | .symbolCount => "too many length or distance symbols"
  | .lengthCode => "invalid code lengths set"
  | .lengthRun => "invalid bit length repeat"
  | .noEnd => "invalid code -- missing end-of-block"
  | .literalCode => "invalid literal/lengths set"
  | .distanceCode => "invalid distances set"
  | .literal => "invalid literal/length code"
  | .distance => "invalid distance code"
  | .farDistance => "invalid distance too far back"

/-- A place in the bits of some bytes, of which the low bits of a byte come first, and what has been
found on the way there. -/
structure Cursor where
  bytes : ByteArray
  position : Nat := 0
  found : ByteArray := .empty
  /-- Where in what has been found the stream starts. -/
  start : Nat := 0

/-- Something read from bits.  Reading stops at a fault, or without one if the bits end too
early. -/
abbrev Reader := EStateM (Option Fault) Cursor

/-- The next bit. -/
def bit : Reader Nat := do
  let cursor ← get
  match cursor.bytes[cursor.position / 8]? with
  | none => throw none
  | some byte =>
    set { cursor with position := cursor.position + 1 }
    return (byte.toNat >>> (cursor.position % 8)) % 2

/-- A number of so many bits, the low one first. -/
def number : Nat → Reader Nat
  | 0 => return 0
  | count + 1 => do
    let low ← bit
    return low + 2 * (← number count)

/-- So many bytes, which start at the next whole byte. -/
def wholeBytes (count : Nat) : Reader (List UInt8) := do
  let cursor ← get
  let start := (cursor.position + 7) / 8
  if cursor.bytes.size < start + count then throw none
  set { cursor with position := 8 * (start + count) }
  return (cursor.bytes.extract start (start + count)).toList

/-- The number that some bytes make, the low one first. -/
def littleEndian (bytes : List UInt8) : Nat := bytes.foldr (fun b n => b.toNat + 256 * n) 0

/-- Add a byte to what has been found. -/
def emit (b : UInt8) : Reader Unit :=
  modify fun cursor => { cursor with found := cursor.found.push b }

/-! ### Prefix codes -/

/-- A prefix code: for each length of words, from one bit on, the symbols in order. -/
abbrev PrefixCode := List (Array Nat)

/-- The prefix code with the given lengths of words; a symbol of length zero has none.  It goes as
far as its longest word. -/
def PrefixCode.ofLengths (lengths : List Nat) : PrefixCode :=
  (List.range (max 1 (lengths.foldl max 0))).map fun length =>
    ((lengths.zipIdx.filter fun (other, _) => other = length + 1).map Prod.snd).toArray

/-- How much room is left behind the words of a code, in words of its greatest length.  It is
negative if the words are too many. -/
def PrefixCode.room (code : PrefixCode) : Int :=
  code.foldl (fun room symbols => 2 * room - symbols.size) 1

/-- No two words of a code collide, and no word is missing, unless all of them are of one bit. -/
def PrefixCode.isSound (code : PrefixCode) : Bool :=
  decide (code.room = 0) || decide (0 < code.room ∧ code.length = 1)

/-- The symbol whose word comes next.  `word` is what has been read of it, and `first` the first
word of this length. -/
def symbolFrom (fault : Fault) (word first : Nat) : PrefixCode → Reader Nat
  | [] => throw (some fault)
  | symbols :: longer => do
    let word := 2 * word + (← bit)
    let first := 2 * first
    match symbols[word - first]? with
    | some symbol => return symbol
    | none => symbolFrom fault word (first + symbols.size) longer

/-- The symbol whose word comes next. -/
def symbol (fault : Fault) (code : PrefixCode) : Reader Nat := symbolFrom fault 0 0 code

/-! ### Repetitions -/

/-- Of a family of numbers in classes of growing width, the number of one class: `steps` classes
of each width, and more bits for the exact value. -/
def classValue (steps start index : Nat) : Reader Nat :=
  if index < 2 * steps then return start + index
  else do
    let width := index / steps - 1
    return start + (steps + index % steps) * Nat.pow 2 width + (← number width)

/-- The length of a repetition. -/
def repetitionLength (symbol : Nat) : Reader Nat :=
  if symbol = 285 then return 258
  else if symbol < 285 then classValue 4 3 (symbol - 257)
  else throw (some .literal)

/-- The distance of a repetition. -/
def repetitionDistance (symbol : Nat) : Reader Nat :=
  if symbol < 30 then classValue 2 1 symbol else throw (some .distance)

/-- Repeat what stands at a distance, byte by byte, so that it may overlap itself. -/
def repeatBytes (distance : Nat) : Nat → Reader Unit
  | 0 => return
  | length + 1 => do
    modify fun cursor =>
      { cursor with found := cursor.found.push (cursor.found.get! (cursor.found.size - distance)) }
    repeatBytes distance length

/-! ### Blocks -/

/-- The symbols of a block, up to its end. -/
def symbols (literals distances : PrefixCode) : Nat → Reader Unit
  | 0 => throw none
  | steps + 1 => do
    let next ← symbol .literal literals
    if next < 256 then
      emit next.toUInt8
      symbols literals distances steps
    else if next = 256 then return
    else
      let length ← repetitionLength next
      let distance ← repetitionDistance (← symbol .distance distances)
      let cursor ← get
      if cursor.found.size < cursor.start + distance then throw (some .farDistance)
      repeatBytes distance length
      symbols literals distances steps

/-- The codes of a block that does not bring its own. -/
def fixedCodes : PrefixCode × PrefixCode :=
  let many := fun (count length : Nat) => List.replicate count length
  (.ofLengths (many 144 8 ++ many 112 9 ++ many 24 7 ++ many 8 8), .ofLengths (many 32 5))

/-- The order in which the lengths for the code of lengths are written. -/
def lengthOrder : List Nat := [16, 17, 18, 0, 8, 7, 9, 6, 10, 5, 11, 4, 12, 3, 13, 2, 14, 1, 15]

/-- So many lengths of words, in a code of their own, with runs written shorter. -/
def wordLengths (code : PrefixCode) (count : Nat) : Nat → Array Nat → Reader (Array Nat)
  | 0, _ => throw none
  | steps + 1, lengths => do
    if count ≤ lengths.size then return lengths
    let next ← symbol .lengthCode code
    if next < 16 then wordLengths code count steps (lengths.push next)
    else
      let (value?, times) ←
        if next = 16 then do pure (lengths.back?, 3 + (← number 2))
        else if next = 17 then do pure (some 0, 3 + (← number 3))
        else do pure (some 0, 11 + (← number 7))
      match value? with
      | some value =>
        if count < lengths.size + times then throw (some .lengthRun)
        wordLengths code count steps (lengths ++ Array.replicate times value)
      | none => throw (some .lengthRun)

/-- The codes that a block brings. -/
def ownCodes : Reader (PrefixCode × PrefixCode) := do
  let literals := 257 + (← number 5)
  let distances := 1 + (← number 5)
  let givenCount := 4 + (← number 4)
  if 286 < literals || 30 < distances then throw (some .symbolCount)
  let given ← (List.replicate givenCount ()).mapM fun _ => number 3
  let pairs := lengthOrder.zip given
  let code : PrefixCode :=
    -- without words, every bit stands for a length of zero
    if given.all (· = 0) then [#[0, 0]]
    else .ofLengths ((List.range 19).map fun i => (pairs.lookup i).getD 0)
  if code.room ≠ 0 then throw (some .lengthCode)
  let lengths ← wordLengths code (literals + distances) (literals + distances + 1) #[]
  let lengths := lengths.toList
  if (lengths[256]?).getD 0 = 0 then throw (some .noEnd)
  let literalCode := PrefixCode.ofLengths (lengths.take literals)
  let distanceCode := PrefixCode.ofLengths (lengths.drop literals)
  if !literalCode.isSound then throw (some .literalCode)
  if !distanceCode.isSound then throw (some .distanceCode)
  return (literalCode, distanceCode)

/-- Bytes as they are. -/
def plainBytes : Nat → Reader Unit
  | 0 => return
  | count + 1 => do
    emit ((← wholeBytes 1).headD 0)
    plainBytes count

/-- One block. -/
def block : Reader Unit := do
  let steps := 8 * (← get).bytes.size + 1
  match ← number 2 with
  | 0 =>
    let sizes ← wholeBytes 4
    let size := littleEndian (sizes.take 2)
    if size + littleEndian (sizes.drop 2) ≠ 0xffff then throw (some .plainLength)
    plainBytes size
  | 1 => symbols fixedCodes.1 fixedCodes.2 steps
  | 2 => do
    let (literals, distances) ← ownCodes
    symbols literals distances steps
  | _ => throw (some .blockType)

/-- The blocks of a stream, up to the one that is marked as the last. -/
def blocks : Nat → Reader Unit
  | 0 => throw none
  | steps + 1 => do
    let isLast ← bit
    block
    if isLast = 1 then return else blocks steps

/-- A stream, whose repetitions do not reach back to before its start. -/
def stream : Reader Unit := do
  modify fun cursor => { cursor with start := cursor.found.size }
  blocks (8 * (← get).bytes.size + 1)

end RecordSchema.Deflate
