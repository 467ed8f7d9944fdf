import RecordSchema.CommandLine.Argument

/-!
# Tables of commands

Commands may be described by a table, whose entries were not checked by whoever wrote it.  An
entry may lack what it needs, name a type that does not exist, or ask for what its type does not
have.
-/

namespace RecordSchema

/-- The number of texts that an entry asks for: by a sign or as a number. -/
inductive EntryArity where
  | sign (text : String)
  | count (count : Nat)
deriving DecidableEq, Repr

/-- An argument as a table describes it. -/
structure ArgumentEntry where
  name? : Option String := none
  type? : Option String := none
  help? : Option String := none
  arity? : Option EntryArity := none
  choices? : Option (List Setting) := none
  default? : Option Setting := none
  required? : Option Bool := none

/-- A command as a table describes it. -/
structure CommandEntry where
  name? : Option String := none
  description? : Option String := none
  arguments? : Option (List ArgumentEntry) := none

/-- What can be wrong with a table. -/
inductive TableFault where
  /-- A part is missing, or it names something unknown. -/
  | missingPart
  /-- A switch with values. -/
  | switchWithValues
  /-- A name that leaves nothing for the setting. -/
  | emptyTarget (name : String)
  /-- An argument without any name. -/
  | emptyName
  /-- No number of texts is known by this sign. -/
  | unknownArity
  /-- An argument that takes no text at all. -/
  | zeroArity
  /-- A spelling or a command that is there already. -/
  | conflict
deriving DecidableEq, Repr

/-- What is said about a table, where something is. -/
def TableFault.message? : TableFault → Option String
  | .emptyTarget name => some ("dest= is required for options like " ++ Quoted.text name)
  | .unknownArity => some "invalid nargs value"
  | .zeroArity =>
    some ("nargs for store actions must be != 0; if you have nothing to store, actions such as " ++
      "store true or store const may be more appropriate")
  | _ => none

/-- What a table has to have. -/
def needed {α : Type} : Option α → Except TableFault α
  | some x => .ok x
  | none => .error .missingPart

/-- The type with a name; a switch has none. -/
def ValueType.ofName : String → Except TableFault (Option ValueType)
  | "bool" => .ok none
  | "str" => .ok (some .text)
  | "int" => .ok (some .integer)
  | "float" => .ok (some .number)
  | _ => .error .missingPart

/-- The number of texts that an entry asks for; one if it does not ask. -/
def Arity.ofEntry : Option EntryArity → Except TableFault Arity
  | none => .ok .one
  | some (.sign "?") => .ok .atMostOne
  | some (.sign "*") => .ok .any
  | some (.sign "+") => .ok .atLeastOne
  | some (.sign _) => .error .unknownArity
  | some (.count 0) => .error .zeroArity
  | some (.count count) => .ok (.exactly count)

/-- The setting that an option sets: its name without the dashes in front, the other dashes as
underscores. -/
def optionTarget (name : String) : String :=
  String.ofList ((name.toList.dropWhile (· = '-')).map fun c => if c = '-' then '_' else c)

namespace ArgumentEntry

/-- An argument known by its place has to be given, unless it can do without texts and has a
default for that. -/
def placeRequired (entry : ArgumentEntry) : Bool :=
  match entry.arity? with
  | some (.sign "?") => false
  | some (.sign "*") => entry.default?.isNone
  | _ => true

/-- The argument that an entry describes.  Options with two dashes have to be given unless the
entry says otherwise; those with one dash never have to. -/
def argument (entry : ArgumentEntry) : Except TableFault Argument := do
  let help ← needed entry.help?
  let type? ← ValueType.ofName (← needed entry.type?)
  let name ← needed entry.name?
  let isOption := name.startsWith "-"
  if name.isEmpty then .error .emptyName
  if isOption && (optionTarget name).isEmpty then .error (.emptyTarget name)
  let role ← match type? with
    | some type => .ok (Role.value type (← Arity.ofEntry entry.arity?))
    | none =>
      if entry.arity?.isSome || entry.choices?.isSome then .error .switchWithValues
      else .ok .switch
  let fallback := match type? with
    | some _ => Setting.null
    | none => .boolean false
  return {
    spellings := if isOption then [name] else []
    target := if isOption then optionTarget name else name
    role
    choices? := entry.choices?
    default := entry.default?.getD fallback
    required :=
      if name.startsWith "--" then entry.required?.getD true
      else !isOption && entry.placeRequired
    help }

end ArgumentEntry

namespace CommandEntry

/-- Add an argument, whose spellings must be new. -/
def addArgument (arguments : List Argument) (entry : ArgumentEntry) :
    Except TableFault (List Argument) := do
  let a ← entry.argument
  let known := (Argument.helpOption :: arguments).flatMap Argument.spellings
  if a.spellings.any known.contains then .error .conflict
  return arguments ++ [a]

/-- Add the command that an entry describes, whose name must be new. -/
def addCommand (commands : List Command) (entry : CommandEntry) :
    Except TableFault (List Command) := do
  let name ← needed entry.name?
  let summary ← needed entry.description?
  if commands.any fun command => command.name = name then .error .conflict
  let arguments ← (← needed entry.arguments?).foldlM addArgument []
  return commands ++ [⟨name, summary, arguments⟩]

end CommandEntry

/-- The commands that a table describes. -/
def commandsOfTable (entries : List CommandEntry) : Except TableFault (List Command) :=
  entries.foldlM CommandEntry.addCommand []

end RecordSchema
