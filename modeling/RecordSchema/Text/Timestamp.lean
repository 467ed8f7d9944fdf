/-!
# Date and time strings

The strings that are taken for timestamps: a date of four, two and two digits, `T` or a blank, a
time of three two-digit parts, and optionally a zone.  A double quote may stand at either end,
independently of the other one.  Only the form counts, so month 99 is fine.
-/

namespace RecordSchema.Timestamp

/-- One of the ten ASCII digits. -/
def isDigit (c : Char) : Bool := decide ('0' ≤ c) && decide (c ≤ '9')

/-- The rest of a text after one character of a class. -/
def skipOne (p : Char → Bool) : List Char → Option (List Char)
  | c :: cs => if p c then some cs else none
  | [] => none

/-- The rest of a text after two digits. -/
def skipTwoDigits (cs : List Char) : Option (List Char) :=
  (skipOne isDigit cs).bind (skipOne isDigit)

/-- The rest of a text after one given character, or the text itself if it starts otherwise. -/
def skipOptional (c : Char) : List Char → List Char
  | d :: cs => if d = c then cs else d :: cs
  | [] => []

/-- The rest of a text after a date: digits in groups of four, two and two, parted by `-` or `/`
in any mixture. -/
def skipDate (cs : List Char) : Option (List Char) := do
  let separator := fun c => c = '-' || c = '/'
  let cs ← skipTwoDigits cs
  let cs ← skipTwoDigits cs
  let cs ← skipOne separator cs
  let cs ← skipTwoDigits cs
  let cs ← skipOne separator cs
  skipTwoDigits cs

/-- The rest of a text after a time of day: three groups of two digits, parted by colons. -/
def skipTime (cs : List Char) : Option (List Char) := do
  let cs ← skipTwoDigits cs
  let cs ← skipOne (· = ':') cs
  let cs ← skipTwoDigits cs
  let cs ← skipOne (· = ':') cs
  skipTwoDigits cs

/-- Nothing, or one double quote. -/
def isClosing (cs : List Char) : Bool := cs = [] || cs = ['"']

/-- The minutes of a zone: nothing, or two digits with an optional colon before them. -/
def isZoneMinutes (cs : List Char) : Bool :=
  isClosing cs ||
    match skipTwoDigits (skipOptional ':' cs) with
    | some rest => isClosing rest
    | none => false

/-- What may follow the time: no zone, `Z`, or an optional blank, a sign, two digits of hours and
optional minutes. -/
def isZone (cs : List Char) : Bool :=
  isClosing cs ||
    match cs with
    | 'Z' :: rest => isClosing rest
    | _ =>
      match skipOne (fun c => c = '+' || c = '-') (skipOptional ' ' cs) with
      | some rest =>
        match skipTwoDigits rest with
        | some minutes => isZoneMinutes minutes
        | none => false
      | none => false

/-- A string that has the form of a timestamp from its first to its last character. -/
def isTimestamp (s : String) : Bool :=
  let afterTime? := do
    let cs ← skipDate (skipOptional '"' s.toList)
    let cs ← skipOne (fun c => c = 'T' || c = ' ') cs
    skipTime cs
  match afterTime? with
  | some rest => isZone rest
  | none => false

end RecordSchema.Timestamp
