import RecordSchema.Text.Hex
import RecordSchema.Text.Printable

/-!
# Quoted texts

Messages show names and bytes in quotes.  The quotes are single ones unless the text holds a
single quote and no double one.  The quote and the backslash are escaped by a backslash, line
feed, carriage return and tabulator have letters, and what has no picture is written as a number.
-/

namespace RecordSchema.Quoted

/-- The quote to put around a text: double if it holds a single quote and no double one. -/
def quoteFor (cs : List Char) : Char :=
  if cs.contains '\'' && !cs.contains '"' then '"' else '\''

/-- A character written as a number, in the least of the three widths that it fits. -/
def numeric (c : Char) : List Char :=
  if c.toNat < 0x100 then '\\' :: 'x' :: Hex.fixed 2 c.toNat
  else if c.toNat < 0x10000 then '\\' :: 'u' :: Hex.fixed 4 c.toNat
  else '\\' :: 'U' :: Hex.fixed 8 c.toNat

/-- A character as it stands between the given quotes, if `shown` says what has a picture. -/
def escape (shown : Char → Bool) (quote c : Char) : List Char :=
  if c = quote || c = '\\' then ['\\', c]
  else if c = '\n' then ['\\', 'n']
  else if c = '\r' then ['\\', 'r']
  else if c = '\t' then ['\\', 't']
  else if shown c then [c]
  else numeric c

/-- A text between quotes. -/
def enclose (shown : Char → Bool) (cs : List Char) : List Char :=
  let quote := quoteFor cs
  quote :: cs.flatMap (escape shown quote) ++ [quote]

/-- A text in quotes. -/
def text (s : String) : String := String.ofList (enclose Printable.isPrintable s.toList)

/-- Bytes in quotes after the letter `b`; only ASCII has pictures. -/
def bytes (bs : List UInt8) : String :=
  let shown := fun c => Printable.isPrintable c && decide (c.toNat < 0x7f)
  String.ofList ('b' :: enclose shown (bs.map fun b => Char.ofNat b.toNat))

end RecordSchema.Quoted
