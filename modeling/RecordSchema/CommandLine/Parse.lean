import RecordSchema.CommandLine.Token

/-!
# Parsing a command line

A parser first tells options from values, for all texts at once, and then takes them from left to
right: a run of values goes to the arguments that are waiting for their place, an option takes
what follows it.  What nobody takes is kept and reported by the outermost parser.
-/

namespace RecordSchema

namespace Argument

/-- Read a text as a value of a type. -/
def convert (a : Argument) (type : ValueType) (text : String) : Except Misuse Setting :=
  let value? := match type with
    | .text => some (.text text)
    | .integer => (Typed.integer? text).map .integer
    | .number => (Typed.double? text).map .number
  match value? with
  | some value => .ok value
  | none => .error (.unreadable a.label type text)

/-- Refuse a value that is not among those allowed. -/
def check (a : Argument) (value : Setting) : Except Misuse Unit :=
  match a.allowed? with
  | some allowed =>
    if allowed.any value.agrees then .ok () else .error (.notAllowed a.label value allowed)
  | none => .ok ()

/-- Read a text as a value that is allowed. -/
def take (a : Argument) (type : ValueType) (text : String) : Except Misuse Setting := do
  let value ← a.convert type text
  a.check value
  return value

/-- The default; as a text it is read like a text of the command line. -/
def readDefault (a : Argument) (type : ValueType) : Except Misuse Setting :=
  match a.default with
  | .text text => a.take type text
  | value => .ok value

/-- The value of an argument that takes some texts. -/
def valueOf (a : Argument) (type : ValueType) (arity : Arity) (texts : List String) :
    Except Misuse Setting :=
  match arity, texts with
  | .one, [text] | .atMostOne, [text] => a.take type text
  | .atMostOne, [] => if a.isOption then .ok .null else a.readDefault type
  | .any, [] =>
    if a.isOption then .ok (.list [])
    else do
      let value := match a.default with
        | .null => .list []
        | value => value
      a.check value
      return value
  | _, _ => do
    let values ← texts.mapM (a.convert type)
    values.forM a.check
    return .list values

end Argument

/-- The state of a parse. -/
structure Parse where
  settings : Settings
  /-- The arguments met so far, by their labels. -/
  met : List String := []
  /-- The arguments that wait for their place. -/
  waiting : List Argument
  /-- What nobody has taken. -/
  extras : List String := []
  /-- What nobody has taken of what follows the command. -/
  commandExtras : List String := []

/-- What a parser makes of texts: settings, and what nobody has taken. -/
structure Parsed where
  settings : Settings
  extras : List String

namespace Parser

/-- Add the parser to a misuse. -/
def blame {α : Type} (p : Parser) (r : Except Misuse α) : Except Exit α := r.mapError (.misuse p)

/-- The settings before anything is read. -/
def defaults (p : Parser) : Settings :=
  p.arguments.foldl
    (fun settings a =>
      match a.role with
      | .help => settings
      | _ => settings.setDefault a.target a.default)
    []

/-- Carry out an argument with the texts that it takes.  The texts of a command are handed to
`run`, name first. -/
def perform (p : Parser) (run : String → List String → Except Exit Parsed) (s : Parse)
    (a : Argument) (texts : List String) : Except Exit Parse := do
  let s := { s with met := a.label :: s.met }
  -- the first separator among the texts of a place is not one of them
  let values := if a.isOption then texts else texts.erase "--"
  match a.role with
  | .help => .error (.help p)
  | .switch => return { s with settings := s.settings.set a.target (.boolean true) }
  | .value type arity =>
    let value ← p.blame (a.valueOf type arity values)
    return { s with settings := s.settings.set a.target value }
  | .command _ =>
    let name := texts.headD ""
    p.blame (a.check (.text name))
    let parsed ← run name texts.tail
    return { s with
      settings := (s.settings.set a.target (.text name)).update parsed.settings
      commandExtras := s.commandExtras ++ parsed.extras }

/-- Hand the next texts to the arguments that wait for their place, as many as can be served.
Also returns the texts that are left. -/
def takePlaces (p : Parser) (run : String → List String → Except Exit Parsed) (s : Parse)
    (tokens : List Token) : Except Exit (Parse × Nat) := do
  let counts := Portion.ofPositionals s.waiting (tokens.map Token.mark)
  let served := s.waiting.zip counts
  let s := { s with waiting := s.waiting.drop counts.length }
  served.foldlM
    (fun (s, start) (a, count) => do
      let texts := ((tokens.drop start).take count).map Token.text
      return (← p.perform run s a texts, start + count))
    (s, 0)

/-- What an option comes to: the arguments to carry out with their texts, how many of the
following texts are used, and the part of the text that is no option. -/
structure Taken where
  actions : List (Argument × List String)
  used : Nat
  extra? : Option String := none

/-- How many of the marks an option takes. -/
def countOf (a : Argument) (marks : List Mark) : Except Misuse Nat :=
  match Portion.ofOption? a marks with
  | some count => .ok count
  | none => .error (.wrongCount a.label (Portion.arityOfRole a.role))

/-- What an option takes of the following tokens if nothing is attached to it. -/
def takeFollowing (a : Argument) (following : List Token) : Except Misuse Taken := do
  let count ← countOf a (following.map Token.mark)
  return ⟨[(a, (following.take count).map Token.text)], count, none⟩

/-- What an option takes that has a text attached.  If it is an option of one dash that takes
nothing, the text goes on with further options of one letter. -/
def takeAttached (p : Parser) (following : List Token) (a : Argument) (spelling : String)
    (isMarked : Bool) (text : List Char) : Except Misuse Taken := do
  let count ← countOf a [.value]
  let refusal := Misuse.notWanted a.label (String.ofList text)
  if count = 1 then return ⟨[(a, [String.ofList text])], 0, none⟩
  match text with
  | [] => .error refusal
  | c :: rest =>
    if count ≠ 0 ∨ spelling.toList.take 2 = ['-', '-'] ∨ isMarked ∨ c = '-' then .error refusal
    else
      let next := String.ofList ['-', c]
      match p.option? next with
      | none => return ⟨[(a, [])], 0, some (String.ofList ('-' :: text))⟩
      | some b =>
        let taken ← match rest with
          | [] => takeFollowing b following
          | '=' :: value => p.takeAttached following b next true value
          | value => p.takeAttached following b next false value
        return { taken with actions := (a, []) :: taken.actions }
termination_by text.length
decreasing_by all_goals simp only [List.length_cons]; omega

/-- What a found option takes. -/
def takeFound (p : Parser) (following : List Token) (found : Found) : Except Misuse Taken :=
  match found.attached? with
  | none => takeFollowing found.argument following
  | some attached =>
    p.takeAttached following found.argument found.spelling attached.isMarked attached.text

/-- Take one option, and what belongs to it of the following tokens. -/
def takeOption (p : Parser) (run : String → List String → Except Exit Parsed) (s : Parse)
    (token : Token) (following : List Token) : Except Exit (Parse × Nat) :=
  match token.reading with
  | .option found => do
    let taken ← p.blame (p.takeFound following found)
    let s := { s with extras := s.extras ++ taken.extra?.toList }
    let s ← taken.actions.foldlM (fun s (a, texts) => p.perform run s a texts) s
    return (s, taken.used)
  | _ => .ok ({ s with extras := s.extras ++ [token.text] }, 0)

/-- Take tokens from left to right. -/
def consume (p : Parser) (run : String → List String → Except Exit Parsed) (s : Parse)
    (tokens : List Token) : Except Exit Parse := do
  match tokens with
  | [] => return (← p.takePlaces run s []).1
  | token :: rest =>
    if token.isOption then
      let (s, used) ← p.takeOption run s token rest
      p.consume run s (rest.drop used)
    else
      let (s, count) ← p.takePlaces run s (token :: rest)
      match count with
      | count + 1 => p.consume run s (rest.drop count)
      | 0 =>
        let skipped := token :: rest.takeWhile (!·.isOption)
        let s := { s with extras := s.extras ++ skipped.map Token.text }
        let left := rest.dropWhile (!·.isOption)
        if left.isEmpty then return s else p.consume run s left
termination_by tokens.length
decreasing_by
  · simp only [List.length_drop, List.length_cons]; omega
  · simp only [List.length_drop, List.length_cons]; omega
  · exact Nat.lt_succ_of_le (List.dropWhile_suffix _).length_le

/-- Read the default of an argument that was not met, if nothing else has set its target. -/
def settleDefault (p : Parser) (s : Parse) (a : Argument) : Except Exit Parse :=
  match a.role, a.default with
  | .value type _, .text text =>
    match s.settings.get? a.target with
    | some (.text current) =>
      if current = text then do
        let value ← p.blame (a.convert type text)
        return { s with settings := s.settings.set a.target value }
      else .ok s
    | _ => .ok s
  | _, _ => .ok s

/-- Read texts. -/
def parseWith (p : Parser) (run : String → List String → Except Exit Parsed)
    (texts : List String) : Except Exit Parsed := do
  let tokens ← p.blame (p.tokens texts)
  let s ← p.consume run { settings := p.defaults, waiting := p.positionals } tokens
  let unmet := p.arguments.filter fun a => !s.met.contains a.label
  let (required, optional) := unmet.partition Argument.required
  let s ← optional.foldlM p.settleDefault s
  if !required.isEmpty then
    p.blame (.error (.missing (required.map Argument.label)))
  return ⟨s.settings, s.extras ++ s.commandExtras⟩

end Parser

namespace Interface

/-- Read what follows a command.  Commands have no commands of their own. -/
def parseCommand (i : Interface) (name : String) (texts : List String) : Except Exit Parsed :=
  match i.commands.find? fun command => command.name = name with
  | some command => (i.commandParser command).parseWith (fun _ _ => .ok ⟨[], []⟩) texts
  | none => .ok ⟨[], texts⟩

/-- Read a command line. -/
def parse (i : Interface) (texts : List String) : Except Exit Settings := do
  let parsed ← i.parser.parseWith i.parseCommand texts
  if parsed.extras.isEmpty then return parsed.settings
  else .error (.misuse i.parser (.unrecognized parsed.extras))

end Interface

end RecordSchema
