import RecordSchema.CommandLine.Argument

/-!
# Portions

Which texts go to which argument is decided by marks alone: what is a value, what is an option,
and where `--` stands.  Every argument has a pattern over marks.  A pattern takes as much as it
can, and gives back only what later patterns need.
-/

namespace RecordSchema

/-- What a text of the command line is, before its meaning is looked at. -/
inductive Mark where
  | value
  | option
  /-- The text `--`, after which there are no options. -/
  | separator
deriving DecidableEq, Repr

namespace Portion

/-- One piece of a pattern. -/
inductive Piece where
  /-- One mark. -/
  | one (fits : Mark → Bool)
  /-- One mark or none. -/
  | atMostOne (fits : Mark → Bool)
  /-- Any number of marks. -/
  | any (fits : Mark → Bool)

/-- How many of the first marks some pieces can take together, the greediest way first. -/
def lengths : List Piece → List Mark → List Nat
  | [], _ => [0]
  | .one fits :: pieces, marks =>
    match marks with
    | mark :: rest => if fits mark then (lengths pieces rest).map (· + 1) else []
    | [] => []
  | .atMostOne fits :: pieces, marks =>
    let without := lengths pieces marks
    match marks with
    | mark :: rest =>
      if fits mark then (lengths pieces rest).map (· + 1) ++ without else without
    | [] => without
  | .any fits :: pieces, marks =>
    let run := (marks.takeWhile fits).length
    (List.range (run + 1)).reverse.flatMap fun count =>
      (lengths pieces (marks.drop count)).map (· + count)

/-- A value. -/
def isValue (mark : Mark) : Bool := mark = .value

/-- A separator. -/
def isSeparator (mark : Mark) : Bool := mark = .separator

/-- Anything but an option. -/
def isPlain (mark : Mark) : Bool := mark ≠ .option

/-- The pieces for so many texts. -/
def piecesOfArity : Arity → List Piece
  | .one => [.one isValue]
  | .atMostOne => [.atMostOne isValue]
  | .any => [.any isValue]
  | .atLeastOne => [.one isValue, .any isValue]
  | .exactly count => List.replicate count (.one isValue)

/-- The number of texts that an argument waits for. -/
def arityOfRole : Role → Arity
  | .help | .switch => .exactly 0
  | .value _ arity => arity
  | .command _ => .atLeastOne

/-- The pattern of an option: values only. -/
def optionPieces (a : Argument) : List Piece := piecesOfArity (arityOfRole a.role)

/-- The pattern of an argument known by its place: separators may stand anywhere around its
values, and the text that selects a command may be followed by everything. -/
def positionalPieces (a : Argument) : List Piece :=
  let gap := Piece.any isSeparator
  match a.role with
  | .command _ => [gap, .one isValue, .any fun _ => true]
  | .value _ .any => [gap, .any isPlain]
  | .value _ .atLeastOne => [gap, .one isValue, .any isPlain]
  | role => gap :: (piecesOfArity (arityOfRole role)).flatMap fun piece => [piece, gap]

/-- How many of the first marks an option takes. -/
def ofOption? (a : Argument) (marks : List Mark) : Option Nat := (lengths (optionPieces a) marks).head?

/-- How many marks each of several arguments takes, one after the other. -/
def split? : List Argument → List Mark → Option (List Nat)
  | [], _ => some []
  | a :: rest, marks =>
    (lengths (positionalPieces a) marks).findSome? fun count =>
      (split? rest (marks.drop count)).map (count :: ·)

/-- How many marks each of the first arguments takes; as many arguments as possible. -/
def ofPositionals (arguments : List Argument) (marks : List Mark) : List Nat :=
  let attempts := (List.range arguments.length).map fun fewer =>
    arguments.take (arguments.length - fewer)
  (attempts.findSome? fun first => split? first marks).getD []

end Portion

end RecordSchema
