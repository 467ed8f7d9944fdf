import RecordSchema.CommandLine.Setting

/-!
# Arguments

A command line is described by its arguments.  Options are known by a spelling that starts with a
dash and may come anywhere; the others are known by their place.  An interface has arguments of
its own, and commands with theirs.
-/

namespace RecordSchema

/-- What the texts of an argument are read as. -/
inductive ValueType where
  | text
  | integer
  | number
deriving DecidableEq, Repr

/-- How many texts an argument takes. -/
inductive Arity where
  /-- One, and its value stands by itself. -/
  | one
  | atMostOne
  | any
  | atLeastOne
  /-- So many, and their values make a list. -/
  | exactly (count : Nat)
deriving DecidableEq, Repr

/-- What an argument does. -/
inductive Role where
  /-- Shows the help and ends the run. -/
  | help
  /-- Turns a setting on. -/
  | switch
  /-- Sets a setting to what it takes. -/
  | value (type : ValueType) (arity : Arity)
  /-- Selects a command, by name and with a summary each, and hands it all that follows. -/
  | command (summaries : List (String × String))
deriving Repr

/-- An argument of a command line. -/
structure Argument where
  /-- The spellings of an option, the one that the usage shows first.  An argument without
  spellings is known by its place. -/
  spellings : List String := []
  /-- The name of the setting. -/
  target : String
  role : Role
  /-- The values that are allowed, if not all are. -/
  choices? : Option (List Setting) := none
  default : Setting := .null
  required : Bool := false
  help : String := ""
deriving Repr

namespace Argument

/-- An argument that is known by its spelling. -/
def isOption (a : Argument) : Bool := !a.spellings.isEmpty

/-- What messages call an argument. -/
def label (a : Argument) : String :=
  if a.isOption then String.intercalate "/" a.spellings else a.target

/-- An argument that takes nothing. -/
def isBare (a : Argument) : Bool :=
  match a.role with
  | .help | .switch => true
  | .value _ _ | .command _ => false

/-- The values that are allowed, if not all are; for a command the names. -/
def allowed? (a : Argument) : Option (List Setting) :=
  match a.role with
  | .command summaries => some (summaries.map fun (name, _) => .text name)
  | _ => a.choices?

/-- The option that every parser has. -/
def helpOption : Argument :=
  { spellings := ["-h", "--help"], target := "help", role := .help
    help := "show this help message and exit" }

end Argument

/-- A command with the arguments of its own. -/
structure Command where
  name : String
  summary : String
  arguments : List Argument
deriving Repr

/-- What reads one part of a command line: the whole, or what follows a command. -/
structure Parser where
  /-- What stands before the arguments in the usage. -/
  program : String
  description? : Option String := none
  /-- All arguments, the option for help included, in the order in which they are listed. -/
  arguments : List Argument

namespace Parser

/-- The options, in order. -/
def options (p : Parser) : List Argument := p.arguments.filter Argument.isOption

/-- The arguments that are known by their place, in order. -/
def positionals (p : Parser) : List Argument := p.arguments.filter fun a => !a.isOption

/-- Every spelling with its option, in order. -/
def spellings (p : Parser) : List (String × Argument) :=
  p.options.flatMap fun a => a.spellings.map fun spelling => (spelling, a)

/-- The option with a spelling. -/
def option? (p : Parser) (spelling : String) : Option Argument := p.spellings.lookup spelling

end Parser

/-- The description of a whole command line. -/
structure Interface where
  program : String
  description? : Option String := none
  /-- The options that stand before the command. -/
  options : List Argument := []
  commands : List Command

namespace Interface

/-- The argument that selects a command. -/
def commandArgument (i : Interface) : Argument :=
  { target := "command"
    role := .command (i.commands.map fun command => (command.name, command.summary)) }

/-- What reads the whole command line. -/
def parser (i : Interface) : Parser :=
  { program := i.program
    description? := i.description?
    arguments := .helpOption :: i.options ++ [i.commandArgument] }

/-- What reads the arguments of a command. -/
def commandParser (i : Interface) (command : Command) : Parser :=
  { program := i.program ++ " " ++ command.name
    arguments := .helpOption :: command.arguments }

end Interface

end RecordSchema
