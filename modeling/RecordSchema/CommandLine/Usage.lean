import RecordSchema.CommandLine.Argument

/-!
# Usage and help

The usage names the arguments of a parser in one paragraph, and the help explains them one by one.
Both are set for a page of 80 columns, of which the last two stay free.  The usage breaks between
arguments and never within brackets; in the help, explanations stand side by side in a column of
their own.
-/

namespace RecordSchema

/-- Break words into lines.  The first line starts at one column and the others at another; a
word that would pass the last column opens a new line, unless the line is still empty. -/
def wrapFrom (width rest : Nat) (column : Nat) (line : List String) :
    List String → List (List String)
  | [] => if line.isEmpty then [] else [line.reverse]
  | word :: words =>
    if !line.isEmpty && decide (width < column + word.length) then
      line.reverse :: wrapFrom width rest (rest + word.length + 1) [word] words
    else wrapFrom width rest (column + word.length + 1) (word :: line) words

/-- Break words into lines, the first of which starts at the column `first` and the others at
`rest`. -/
def wrapWords (width first rest : Nat) (words : List String) : List String :=
  (wrapFrom width rest first [] words).map (String.intercalate " ")

/-- The columns that are used. -/
def pageWidth : Nat := 78

namespace Argument

/-- What stands for a value: the allowed ones in braces, or the name of the setting, in capitals
for an option. -/
def placeholder (a : Argument) : String :=
  match a.allowed? with
  | some choices => "\x7b" ++ String.intercalate "," (choices.map Setting.shown) ++ "\x7d"
  | none => if a.isOption then a.target.toUpper else a.target

/-- What stands for all values that an argument takes. -/
def placeholders (a : Argument) : String :=
  let one := a.placeholder
  match a.role with
  | .help | .switch => ""
  | .command _ => one ++ " ..."
  | .value _ .one => one
  | .value _ .atMostOne => "[" ++ one ++ "]"
  | .value _ .any => "[" ++ one ++ " ...]"
  | .value _ .atLeastOne => one ++ " [" ++ one ++ " ...]"
  | .value _ (.exactly count) => String.intercalate " " (List.replicate count one)

/-- A spelling with what it takes. -/
def invocation (a : Argument) (spelling : String) : String :=
  if a.isBare then spelling else spelling ++ " " ++ a.placeholders

/-- An argument as the usage shows it: options by their first spelling, in brackets if they may
be left out. -/
def usage (a : Argument) : String :=
  match a.spellings with
  | [] => a.placeholders
  | spelling :: _ =>
    if a.required then a.invocation spelling else "[" ++ a.invocation spelling ++ "]"

/-- An argument as the help shows it: options with all their spellings. -/
def heading (a : Argument) : String :=
  if a.isOption then String.intercalate ", " (a.spellings.map a.invocation) else a.placeholder

end Argument

/-- Split a text at the blanks that stand outside brackets. -/
def outerWords (depth : Nat) : List Char → List (List Char)
  | [] => [[]]
  | c :: cs =>
    if c = ' ' ∧ depth = 0 then [] :: outerWords depth cs
    else
      let depth := if c = '[' then depth + 1 else if c = ']' then depth - 1 else depth
      match outerWords depth cs with
      | word :: words => (c :: word) :: words
      | [] => [[c]]

/-- The parts of the usage of some arguments between which a line may end. -/
def usageParts (arguments : List Argument) : List String :=
  arguments.flatMap fun a =>
    ((outerWords 0 a.usage.toList).filter (!·.isEmpty)).map String.ofList

namespace Parser

/-- The word that opens a usage. -/
def usageMark : String := "usage: "

/-- The usage: on one line if it fits, otherwise with the options before the others and each of
the two on lines of their own. -/
def usage (p : Parser) : String :=
  let options := usageParts p.options
  let others := usageParts p.positionals
  let line := String.intercalate " " (p.program :: (p.options ++ p.positionals).map Argument.usage)
  let margin := usageMark.length + p.program.length + 1
  let lines :=
    if usageMark.length + line.length ≤ pageWidth then [line]
    else if 4 * (margin - 1) ≤ 3 * pageWidth then
      let paragraphs :=
        if options.isEmpty then [wrapWords pageWidth usageMark.length margin (p.program :: others)]
        else
          [wrapWords pageWidth usageMark.length margin (p.program :: options),
            wrapWords pageWidth margin margin others]
      match paragraphs.flatten with
      | [] => []
      | first :: rest => first :: rest.map (blanks margin ++ ·)
    else
      -- a long name stands alone
      let margin := usageMark.length
      let wrap := wrapWords pageWidth margin margin
      let together := wrap (options ++ others)
      let rest := if together.length ≤ 1 then together else wrap options ++ wrap others
      p.program :: rest.map (blanks margin ++ ·)
  usageMark ++ String.intercalate "\n" lines ++ "\n"

end Parser

/-- An entry of the help: something at an indentation, and what is said about it. -/
structure HelpEntry where
  indent : Nat
  heading : String
  explanation : String

namespace HelpEntry

/-- The lines of an entry.  The explanation starts in the column `position`, on the line of the
heading if that ends two columns before. -/
def lines (position : Nat) (entry : HelpEntry) : List String :=
  let header := blanks entry.indent ++ entry.heading
  let words := (entry.explanation.splitOn " ").filter (!·.isEmpty)
  match wrapWords (pageWidth - position) 0 0 words with
  | [] => [header]
  | first :: rest =>
    let rest := rest.map (blanks position ++ ·)
    if header.length + 2 ≤ position then
      (header ++ blanks (position - header.length) ++ first) :: rest
    else header :: (blanks position ++ first) :: rest

end HelpEntry

namespace Argument

/-- The entries of an argument: itself, and the commands that it selects. -/
def helpEntries (a : Argument) : List HelpEntry :=
  let commands := match a.role with
    | .command summaries => summaries.map fun (name, summary) => ⟨4, name, summary⟩
    | _ => []
  ⟨2, a.heading, a.help⟩ :: commands

end Argument

namespace Parser

/-- The column in which explanations start: two after the longest heading, and 24 at most. -/
def helpPosition (p : Parser) : Nat :=
  let entries := p.arguments.flatMap Argument.helpEntries
  Nat.min 24 ((entries.map fun entry => entry.heading.length + 2).foldl Nat.max 0 + 2)

/-- The paragraph that explains some arguments, if there are any. -/
def helpSection (p : Parser) (title : String) (arguments : List Argument) : List String :=
  if arguments.isEmpty then []
  else
    let lines := (arguments.flatMap Argument.helpEntries).flatMap (HelpEntry.lines p.helpPosition)
    [String.intercalate "\n" ((title ++ ":") :: lines) ++ "\n"]

/-- The help: the usage, what the program does, and the arguments. -/
def help (p : Parser) : String :=
  String.intercalate "\n"
    (p.usage :: (p.description?.map (· ++ "\n")).toList ++
      p.helpSection "positional arguments" p.positionals ++ p.helpSection "options" p.options)

end Parser

end RecordSchema
