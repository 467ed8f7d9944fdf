/-!
# Whitespace

Bytes that stand for nothing.  A content that may be long is looked through piece by piece, and only
until a piece turns up that holds something else.
-/

namespace RecordSchema.Whitespace

/-- Blank, tabulator, line feed, carriage return, vertical tabulator and form feed. -/
def isSpace (b : UInt8) : Bool := [0x20, 0x09, 0x0a, 0x0d, 0x0b, 0x0c].contains b

/-- Bytes without the whitespace at their two ends. -/
def strip (bytes : List UInt8) : List UInt8 :=
  ((bytes.dropWhile isSpace).reverse.dropWhile isSpace).reverse

/-- Nothing is left of any piece of this size; the last piece may be smaller. -/
def fillsPieces (size : Nat) (bytes : List UInt8) : Bool :=
  if bytes.take size = [] then true
  else (strip (bytes.take size)).isEmpty && fillsPieces size (bytes.drop size)
termination_by bytes.length
decreasing_by
  rename_i ended
  obtain ⟨hsize, hbytes⟩ := not_or.mp (mt List.take_eq_nil_iff.mpr ended)
  have hlength := List.length_pos_iff.mpr hbytes
  rw [List.length_drop]
  omega

/-- How many bytes are looked at together. -/
def pieceSize : Nat := 0x10000

/-- There is nothing but whitespace. -/
def fills (bytes : List UInt8) : Bool := fillsPieces pieceSize bytes

end RecordSchema.Whitespace
