import RecordSchema.CommandLine.Misuse
import RecordSchema.CommandLine.Portion

/-!
# Options and values

Which texts of a command line are options is decided before any of them is taken.  A text that
starts with a dash is an option if it spells one, or the beginning of just one; what looks like a
negative number is a value, and so is what holds a blank.
-/

namespace RecordSchema

/-- A text that is attached to the spelling of an option. -/
structure Attached where
  text : List Char
  /-- It stands after an equals sign. -/
  isMarked : Bool

/-- An option as it was found on the command line. -/
structure Found where
  argument : Argument
  spelling : String
  attached? : Option Attached

/-- What one text of the command line is. -/
inductive Reading where
  | value
  | separator
  | unknownOption
  | option (found : Found)

/-- A text of the command line, and what it is. -/
structure Token where
  text : String
  reading : Reading

namespace Token

/-- The mark of a token. -/
def mark (t : Token) : Mark :=
  match t.reading with
  | .value => .value
  | .separator => .separator
  | .unknownOption | .option _ => .option

/-- A token that looks like an option, known or not. -/
def isOption (t : Token) : Bool := t.mark = .option

end Token

/-- A dash, digits, and possibly a point among or before them; a line feed may end it. -/
def looksNegative (text : String) : Bool :=
  match text.toList with
  | '-' :: rest =>
    let body := if rest.getLast? = some '\n' then rest.dropLast else rest
    match body.dropWhile Digit.isDigit with
    | [] => !body.isEmpty
    | '.' :: fraction => !fraction.isEmpty && fraction.all Digit.isDigit
    | _ => false
  | _ => false

namespace Parser

/-- The text before the first equals sign, and the text after it if there is one. -/
def splitEquals (cs : List Char) : List Char × Option (List Char) :=
  match cs.dropWhile (· != '=') with
  | [] => (cs, none)
  | _ :: rest => (cs.takeWhile (· != '='), some rest)

/-- The options that a text may be short for.  After two dashes a beginning of the spelling will
do; after one dash a text may also be attached to the spelling of one letter. -/
def candidates (p : Parser) (cs : List Char) : List Found :=
  match cs with
  | '-' :: '-' :: _ =>
    let (start, rest?) := splitEquals cs
    p.spellings.filterMap fun (spelling, a) =>
      if start.isPrefixOf spelling.toList then some ⟨a, spelling, rest?.map (⟨·, true⟩)⟩ else none
  | _ =>
    p.spellings.filterMap fun (spelling, a) =>
      if spelling.toList = cs.take 2 then some ⟨a, spelling, some ⟨cs.drop 2, false⟩⟩
      else if cs.isPrefixOf spelling.toList then some ⟨a, spelling, none⟩
      else none

/-- The option that a text spells out, with what is attached by an equals sign. -/
def spelledOut? (p : Parser) (text : String) : Option Found :=
  match p.option? text with
  | some a => some ⟨a, text, none⟩
  | none =>
    match splitEquals text.toList with
    | (start, some rest) =>
      let spelling := String.ofList start
      (p.option? spelling).map (⟨·, spelling, some ⟨rest, true⟩⟩)
    | (_, none) => none

/-- A text that starts with a dash and is no option after all: it looks like a negative number,
where no option does, or it holds a blank. -/
def isValueWithDash (p : Parser) (text : String) : Bool :=
  (looksNegative text && !p.spellings.any fun (spelling, _) => looksNegative spelling) ||
    text.toList.contains ' '

/-- What a text is that stands before any `--`. -/
def read (p : Parser) (text : String) : Except Misuse Reading :=
  match text.toList with
  | '-' :: _ =>
    match p.spelledOut? text with
    | some found => .ok (.option found)
    | none =>
      if text = "-" then .ok .value
      else
        match p.candidates text.toList with
        | [found] => .ok (.option found)
        | [] => .ok (if p.isValueWithDash text then .value else .unknownOption)
        | several => .error (.ambiguous text (several.map Found.spelling))
  | _ => .ok .value

/-- Tell options from values.  After `--` all texts are values. -/
def tokens (p : Parser) : List String → Except Misuse (List Token)
  | [] => .ok []
  | text :: rest =>
    if text = "--" then .ok (⟨text, .separator⟩ :: rest.map (⟨·, .value⟩))
    else do
      let reading ← p.read text
      return ⟨text, reading⟩ :: (← p.tokens rest)

end Parser

end RecordSchema
