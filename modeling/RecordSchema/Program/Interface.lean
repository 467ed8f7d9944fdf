import RecordSchema.CommandLine.Parse
import RecordSchema.Render.Table

/-!
# The command line of the program

The program has one command, which infers a table schema from files of records.
-/

namespace RecordSchema.Program

/-- The version of the program. -/
def version : String := "0.1.0"

/-- An option that turns a setting on. -/
def switch (name target help : String) : Argument :=
  { spellings := [name], target, role := .switch, default := .boolean false, help }

/-- An option that takes one value. -/
def option (name target : String) (type : ValueType) (default : Setting) (help : String) :
    Argument :=
  { spellings := [name], target, role := .value type .one, default, help }

/-- The command that infers a table schema. -/
def inferCommand : Command :=
  { name := "j2h"
    summary := "Infer a Hive table schema from JSON files"
    arguments := [
      { target := "input", role := .value .text .any, required := true
        help := "Path(s) to JSON files (JSON, JSON Lines or concatenated documents, " ++
          "optionally .gz). Reads stdin when omitted." },
      option "--out" "out" .text .null
        "Path to the output file. Writes to stdout when omitted.",
      option "--table-name" "table_name" .text (.text Node.defaultTableName)
        "Name of the table in the create table statement",
      switch "--flat" "flat"
        ("List every leaf field as a dotted path rooted at 'root' instead of a create table " ++
          "statement"),
      option "--sample-size" "sample_size" .integer (.integer 0)
        "Maximum number of records to read (0 = all)",
      switch "--skip-errors" "skip_errors"
        "Skip records with integers outside the 64-bit range instead of failing",
      option "--jobs" "jobs" .integer (.integer 1)
        "Number of worker processes, one input file per worker",
      switch "--no-timestamps" "no_timestamps" "Do not classify date/time strings as timestamp",
      switch "--no-binary" "no_binary" "Do not classify hex-digit strings as binary",
      switch "--shapes" "shapes" "Append the distinct top-level field sets seen in the input"] }

/-- The command line of the program. -/
def interface : Interface :=
  { program := "hiveschema"
    description? := some "Infer Hive schemas from JSON data."
    options := [
      switch "--version" "version" "Print the version of hiveschema.",
      switch "--verbose" "verbose" "Log progress information."]
    commands := [inferCommand] }

end RecordSchema.Program
