/-!
# Path texts

A path is a text whose parts are parted by slashes.  Splitting one off takes the part after the
last slash; the slashes before it go as well, unless nothing else is left.
-/

namespace RecordSchema.Path

/-- The text after the last slash, and all before it, the slash included. -/
def splitLast (path : List Char) : List Char × List Char :=
  let last := (path.reverse.takeWhile (· != '/')).reverse
  (path.take (path.length - last.length), last)

/-- A text without the slashes at its end, unless there are only slashes. -/
def trimSlashes (head : List Char) : List Char :=
  let trimmed := (head.reverse.dropWhile (· == '/')).reverse
  if trimmed.isEmpty then head else trimmed

/-- The directory and the last part of a path. -/
def split (path : List Char) : List Char × List Char :=
  let (head, last) := splitLast path
  (trimSlashes head, last)

/-- The directory that a path lies in; empty for a path of one part. -/
def parent (path : String) : String := String.ofList (split path.toList).1

/-- The parts between the slashes, empty ones included. -/
def parts (path : List Char) : List (List Char) :=
  path.foldr
    (fun c parts =>
      match parts with
      | part :: rest => if c = '/' then [] :: part :: rest else (c :: part) :: rest
      | [] => [[c]])
    [[]]

end RecordSchema.Path
