import RecordSchema.CommandLine.Usage

/-!
# Misuse

What can be wrong with a command line, by cause, and how a parse can end before its time.
-/

namespace RecordSchema

/-- The name of a type of values, as messages give it. -/
def ValueType.name : ValueType → String
  | .text => "str"
  | .integer => "int"
  | .number => "float"

/-- The ways in which a command line can be wrong. -/
inductive Misuse where
  /-- An argument does not get as many texts as it takes. -/
  | wrongCount (label : String) (arity : Arity)
  /-- A text that cannot be read as a value. -/
  | unreadable (label : String) (type : ValueType) (text : String)
  /-- A value that is not among those allowed. -/
  | notAllowed (label : String) (value : Setting) (allowed : List Setting)
  /-- A text attached to an option that takes none. -/
  | notWanted (label : String) (text : String)
  /-- A beginning that several options share. -/
  | ambiguous (given : String) (candidates : List String)
  /-- Arguments that have to be given and are not. -/
  | missing (labels : List String)
  /-- Texts that no argument takes. -/
  | unrecognized (texts : List String)
deriving Repr

/-- How many texts an argument waits for. -/
def Arity.expectation : Arity → String
  | .one => "one argument"
  | .atMostOne => "at most one argument"
  | .any => "any number of arguments"
  | .atLeastOne => "at least one argument"
  | .exactly 1 => "1 argument"
  | .exactly count => toString count ++ " arguments"

/-- What is said about a misuse. -/
def Misuse.message : Misuse → String
  | .wrongCount label arity => "argument " ++ label ++ ": expected " ++ arity.expectation
  | .unreadable label type text =>
    "argument " ++ label ++ ": invalid " ++ type.name ++ " value: " ++ Quoted.text text
  | .notAllowed label value allowed =>
    "argument " ++ label ++ ": invalid choice: " ++ value.quoted ++
      " (choose from " ++ String.intercalate ", " (allowed.map Setting.quoted) ++ ")"
  | .notWanted label text =>
    "argument " ++ label ++ ": ignored explicit argument " ++ Quoted.text text
  | .ambiguous given candidates =>
    "ambiguous option: " ++ given ++ " could match " ++ String.intercalate ", " candidates
  | .missing labels =>
    "the following arguments are required: " ++ String.intercalate ", " labels
  | .unrecognized texts => "unrecognized arguments: " ++ String.intercalate " " texts

/-- The ways in which a parse ends without settings. -/
inductive Exit where
  /-- Help is asked for. -/
  | help (parser : Parser)
  /-- The command line is wrong in the part of a parser. -/
  | misuse (parser : Parser) (cause : Misuse)

namespace Exit

/-- The status with which the program ends. -/
def status : Exit → Nat
  | .help _ => 0
  | .misuse _ _ => 2

/-- What is printed. -/
def output : Exit → String
  | .help parser => parser.help
  | .misuse _ _ => ""

/-- What is printed as an error: the usage of the part, and what is wrong. -/
def errors : Exit → String
  | .help _ => ""
  | .misuse parser cause =>
    parser.usage ++ parser.program ++ ": error: " ++ cause.message ++ "\n"

end Exit

end RecordSchema
