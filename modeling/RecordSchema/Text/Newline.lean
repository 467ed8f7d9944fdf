/-!
# Line ends

Text that is read back line by line has one kind of line end: a carriage return, with a line feed
after it or without, counts as a line feed.
-/

namespace RecordSchema.Newline

/-- A text with line feeds for all its line ends. -/
def unify : List Char → List Char
  | [] => []
  | '\r' :: '\n' :: rest => '\n' :: unify rest
  | c :: rest => (if c = '\r' then '\n' else c) :: unify rest

/-- A text with line feeds for all its line ends. -/
def unified (s : String) : String := String.ofList (unify s.toList)

end RecordSchema.Newline
