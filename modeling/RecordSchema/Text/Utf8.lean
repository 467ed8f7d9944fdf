/-!
# UTF-8

Strict decoding of bytes to characters: every character in its shortest form, no surrogates,
nothing above `10FFFF`.  A fault says which byte is to blame and where it stands.  Encoding goes
by the number alone, so it also writes the surrogates that decoding then refuses.
-/

namespace RecordSchema.Utf8

/-- Why a byte cannot stand where it stands. -/
inductive Reason where
  /-- No character starts with this byte. -/
  | start
  /-- A character starts here and is not continued as it has to be. -/
  | continuation
deriving DecidableEq, Repr

/-- The first byte that is to blame. -/
structure Fault where
  /-- How many bytes stand before it. -/
  position : Nat
  byte : UInt8
  reason : Reason
deriving DecidableEq, Repr

/-- What is said about a fault. -/
def Fault.reasonText (fault : Fault) : String :=
  match fault.reason with
  | .start => "invalid start byte"
  | .continuation => "invalid continuation byte"

/-- A byte that continues a character. -/
def isContinuation (b : UInt8) : Bool := decide (0x80 ≤ b) && decide (b < 0xc0)

/-- The six bits that a continuation byte carries. -/
def payload (b : UInt8) : Nat := b.toNat % 0x40

/-- A second byte that suits the first one of three: the shortest form, and no surrogate. -/
def suitsThree (first second : UInt8) : Bool :=
  isContinuation second &&
    !(first = 0xe0 && decide (second < 0xa0)) && !(first = 0xed && decide (0xa0 ≤ second))

/-- A second byte that suits the first one of four: the shortest form, and nothing too large. -/
def suitsFour (first second : UInt8) : Bool :=
  isContinuation second &&
    !(first = 0xf0 && decide (second < 0x90)) && !(first = 0xf4 && decide (0x90 ≤ second))

/-- Decode onto the characters found so far, the last one first. -/
def decodeOnto (found : List Char) (position : Nat) : List UInt8 → Except Fault (List Char)
  | [] => .ok found.reverse
  | a :: rest =>
    if a < 0x80 then decodeOnto (Char.ofNat a.toNat :: found) (position + 1) rest
    else if a < 0xc2 || 0xf4 < a then .error ⟨position, a, .start⟩
    else if a < 0xe0 then
      match rest with
      | b :: rest =>
        if isContinuation b then
          decodeOnto (Char.ofNat (a.toNat % 0x20 * 0x40 + payload b) :: found) (position + 2) rest
        else .error ⟨position, a, .continuation⟩
      | [] => .error ⟨position, a, .continuation⟩
    else if a < 0xf0 then
      match rest with
      | b :: c :: rest =>
        if suitsThree a b && isContinuation c then
          decodeOnto
            (Char.ofNat ((a.toNat % 0x10 * 0x40 + payload b) * 0x40 + payload c) :: found)
            (position + 3) rest
        else .error ⟨position, a, .continuation⟩
      | _ => .error ⟨position, a, .continuation⟩
    else
      match rest with
      | b :: c :: d :: rest =>
        if suitsFour a b && isContinuation c && isContinuation d then
          decodeOnto
            (Char.ofNat (((a.toNat % 8 * 0x40 + payload b) * 0x40 + payload c) * 0x40 + payload d)
              :: found)
            (position + 4) rest
        else .error ⟨position, a, .continuation⟩
      | _ => .error ⟨position, a, .continuation⟩

/-- The text that bytes spell, or the first fault. -/
def decode (bytes : List UInt8) : Except Fault String :=
  (decodeOnto [] 0 bytes).map String.ofList

/-- The bytes for a number below `200000`, whether a character has it or not. -/
def encode (n : Nat) : List UInt8 :=
  let more := fun k => UInt8.ofNat (0x80 + n / Nat.pow 0x40 k % 0x40)
  if n < 0x80 then [UInt8.ofNat n]
  else if n < 0x800 then [UInt8.ofNat (0xc0 + n / 0x40), more 0]
  else if n < 0x10000 then [UInt8.ofNat (0xe0 + n / 0x1000), more 1, more 0]
  else [UInt8.ofNat (0xf0 + n / 0x40000), more 2, more 1, more 0]

/-- The bytes of a text. -/
def ofString (s : String) : List UInt8 := s.toUTF8.toList

end RecordSchema.Utf8
