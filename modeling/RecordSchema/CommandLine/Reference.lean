import RecordSchema.CommandLine.Setting

/-!
# References to settings

What a run needs is given as texts, some of which refer to settings: `args.` and a name stands
for the setting of this name, and `not ` before it for the opposite of the setting.  Every other
text stands for itself, without a `not ` in front.
-/

namespace RecordSchema

/-- A setting that is asked for and not there. -/
structure MissingSetting where
  name : String
deriving DecidableEq, Repr

namespace Settings

/-- The value of a name that has to be there. -/
def require (settings : Settings) (name : String) : Except MissingSetting Setting :=
  match settings.get? name with
  | some value => .ok value
  | none => .error ⟨name⟩

/-- The rest of a text after a given beginning. -/
def dropStart? (start text : String) : Option String :=
  if start.toList.isPrefixOf text.toList then
    some (String.ofList (text.toList.drop start.length))
  else none

/-- What a text stands for. -/
def resolve (settings : Settings) (text : String) : Except MissingSetting Setting :=
  let (isNegated, text) :=
    match dropStart? "not " text with
    | some rest => (true, rest)
    | none => (false, text)
  match dropStart? "args." text with
  | none => .ok (.text text)
  | some name => do
    let value ← settings.require name
    return if isNegated then .boolean (!value.holds) else value

end Settings

end RecordSchema
