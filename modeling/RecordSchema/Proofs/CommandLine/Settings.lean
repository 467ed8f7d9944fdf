import Mathlib.Data.List.Nodup
import RecordSchema.Proofs.CommandLine.Keeping

/-!
# What a command line sets

Each setting of a command line that is accepted has a value that an argument with its name can set,
and once a command has been chosen none of its arguments is without a setting
(`Interface.suit_of_parse`, `Interface.isServed_of_parse`).
-/

namespace RecordSchema

/-! ### Values and names -/

namespace Settings

variable {settings others : Settings} {name : String} {value : Setting}
  {arguments : List Argument}

/-- Every setting has a value that an argument with its name can set. -/
def Suit (settings : Settings) (arguments : List Argument) : Prop :=
  ∀ entry ∈ settings, ∃ a ∈ arguments, a.target = entry.1 ∧ a.Sets entry.2

/-- Every argument but a question for help has a setting. -/
def Cover (settings : Settings) (arguments : List Argument) : Prop :=
  ∀ a ∈ arguments, a.role ≠ .help → (settings.get? a.target).isSome

lemma Suit.set (h : settings.Suit arguments) {a : Argument} (ha : a ∈ arguments)
    (hvalue : a.Sets value) : (settings.set a.target value).Suit arguments := by
  intro entry hentry
  rcases mem_putEntry hentry with rfl | hentry
  · exact ⟨a, ha, rfl, hvalue⟩
  · exact h entry hentry

lemma Suit.update (h : settings.Suit arguments) (hothers : others.Suit arguments) :
    (settings.update others).Suit arguments := by
  intro entry hentry
  exact (mem_update hentry).elim (h entry) (hothers entry)

lemma Cover.set (h : settings.Cover arguments) : (settings.set name value).Cover arguments :=
  fun a ha hrole => isSome_get?_set (h a ha hrole)

lemma Cover.update (h : settings.Cover arguments) : (settings.update others).Cover arguments :=
  fun a ha hrole => isSome_get?_update others (h a ha hrole)

end Settings

namespace Parser

variable {p : Parser} {run : String → List String → Except Exit Parsed}

/-- The settings with the default of one more argument. -/
def withDefault (settings : Settings) (a : Argument) : Settings :=
  match a.role with
  | .help => settings
  | _ => settings.setDefault a.target a.default

lemma defaults_eq (p : Parser) : p.defaults = p.arguments.foldl withDefault [] := rfl

lemma withDefault_eq (settings : Settings) (a : Argument) :
    withDefault settings a = settings ∨
      withDefault settings a = settings.set a.target a.default := by
  unfold withDefault Settings.setDefault
  split
  · exact Or.inl rfl
  · split_ifs
    · exact Or.inl rfl
    · exact Or.inr rfl

lemma isSome_get?_withDefault (settings : Settings) {a : Argument} (h : a.role ≠ .help) :
    ((withDefault settings a).get? a.target).isSome := by
  unfold withDefault Settings.setDefault
  split
  · next hrole => exact absurd hrole h
  · split_ifs with hsome
    · exact hsome
    · rw [Settings.get?_set, if_pos rfl]
      rfl

/-- Every setting starts with the default of an argument with its name. -/
lemma mem_defaults {entry : String × Setting} (h : entry ∈ p.defaults) :
    ∃ a ∈ p.arguments, a.target = entry.1 ∧ a.default = entry.2 := by
  rw [defaults_eq] at h
  revert entry
  refine List.foldlRecOn (motive := fun settings : Settings => ∀ {entry}, entry ∈ settings →
    ∃ a ∈ p.arguments, a.target = entry.1 ∧ a.default = entry.2) _ _ (fun h => by cases h) ?_
  intro settings hsettings a ha entry hentry
  rcases withDefault_eq settings a with heq | heq
  · exact hsettings (heq ▸ hentry)
  · rcases mem_putEntry (heq ▸ hentry : entry ∈ settings.set a.target a.default) with rfl | hentry
    · exact ⟨a, ha, rfl, rfl⟩
    · exact hsettings hentry

/-- Every argument but a question for help starts with a setting. -/
lemma cover_defaults (p : Parser) : p.defaults.Cover p.arguments := by
  have hkeeps : ∀ (arguments : List Argument) {settings : Settings} {name : String},
      (settings.get? name).isSome → ((arguments.foldl withDefault settings).get? name).isSome := by
    intro arguments settings name h
    refine List.foldlRecOn (motive := fun settings : Settings => (settings.get? name).isSome)
      _ _ h ?_
    intro settings hsettings a ha
    rcases withDefault_eq settings a with heq | heq
    · rwa [heq]
    · rw [heq]
      exact Settings.isSome_get?_set hsettings
  intro a ha hrole
  obtain ⟨front, rest, harguments⟩ := List.append_of_mem ha
  rw [defaults_eq, harguments, List.foldl_append, List.foldl_cons]
  exact hkeeps rest (isSome_get?_withDefault _ hrole)

/-- The settings suit the arguments if those that commands set do. -/
lemma keeps_suit {arguments : List Argument} (harguments : ∀ a ∈ p.arguments, a ∈ arguments)
    (hrun : ∀ name texts parsed, run name texts = .ok parsed → parsed.settings.Suit arguments) :
    p.Keeps run (·.Suit arguments) where
  defaults entry hentry := by
    obtain ⟨a, ha, htarget, hdefault⟩ := mem_defaults hentry
    exact ⟨a, harguments a ha, htarget, hdefault ▸ .default⟩
  set ha _ hvalue h := h.set (harguments _ ha) hvalue
  command ha hrole hparsed h :=
    (h.set (harguments _ ha) (.command hrole)).update (hrun _ _ _ hparsed)

/-- No argument of a parser is without a setting. -/
lemma keeps_cover (p : Parser) (run : String → List String → Except Exit Parsed) :
    p.Keeps run (·.Cover p.arguments) where
  defaults := p.cover_defaults
  set _ _ _ h := h.set
  command _ _ _ h := h.set.update

end Parser

namespace Interface

variable {i : Interface} {settings : Settings} {texts : List String} {command : Command}

/-- All arguments of an interface, those of its commands included. -/
def arguments (i : Interface) : List Argument :=
  i.parser.arguments ++ i.commands.flatMap Command.arguments

lemma parse_eq_ok (h : i.parse texts = .ok settings) :
    ∃ parsed, i.parser.parseWith i.parseCommand texts = .ok parsed ∧
      parsed.settings = settings := by
  obtain ⟨parsed, hparsed, h⟩ := bind_eq_ok_iff.mp h
  split_ifs at h
  exact ⟨parsed, hparsed, Except.ok.inj h⟩

/-- A command sets no names but those of arguments of commands. -/
lemma suit_of_parseCommand {name : String} {parsed : Parsed}
    (h : i.parseCommand name texts = .ok parsed) :
    parsed.settings.Suit (.helpOption :: i.commands.flatMap Command.arguments) := by
  unfold parseCommand at h
  split at h
  · next command hfind =>
    refine (Parser.keeps_suit ?_ ?_).parseWith h
    · intro a ha
      refine (List.mem_cons.mp ha).elim (fun ha => ha ▸ List.mem_cons_self ..) fun ha => ?_
      exact List.mem_cons_of_mem _
        (List.mem_flatMap.mpr ⟨command, List.mem_of_find?_eq_some hfind, ha⟩)
    · intro name texts parsed hparsed
      cases hparsed
      exact List.forall_mem_nil _
  · cases h
    exact List.forall_mem_nil _

/-- Every setting of a command line that is accepted has a value that an argument with its name can
set. -/
theorem suit_of_parse (h : i.parse texts = .ok settings) : settings.Suit i.arguments := by
  obtain ⟨parsed, hparsed, rfl⟩ := parse_eq_ok h
  refine (Parser.keeps_suit ?_ ?_).parseWith hparsed
  · exact fun a ha => List.mem_append_left _ ha
  · intro name texts parsed hparsed entry hentry
    obtain ⟨a, ha, hsets⟩ := suit_of_parseCommand hparsed entry hentry
    refine ⟨a, ?_, hsets⟩
    rcases List.mem_cons.mp ha with rfl | ha
    · exact List.mem_append_left _ (List.mem_cons_self ..)
    · exact List.mem_append_right _ ha

/-- No other argument has the name under which the command is kept. -/
def KeepsCommandApart (i : Interface) : Prop :=
  ∀ a ∈ i.options ++ i.commands.flatMap Command.arguments, a.target ≠ i.commandArgument.target

lemma eq_commandArgument_or {a : Argument} (hapart : i.KeepsCommandApart)
    (ha : a ∈ i.parser.arguments) :
    a = i.commandArgument ∨ a.target ≠ i.commandArgument.target := by
  rcases List.mem_append.mp ha with ha | ha
  · rcases List.mem_cons.mp ha with rfl | ha
    · exact Or.inr (show "help" ≠ "command" by decide)
    · exact Or.inr (hapart a (List.mem_append_left _ ha))
  · exact Or.inl (List.mem_singleton.mp ha)

/-- If a command has been chosen, all of its arguments have settings. -/
def IsServed (i : Interface) (settings : Settings) : Prop :=
  ∀ name command, settings.get? i.commandArgument.target = some (.text name) →
    i.commands.find? (fun command => command.name = name) = some command →
      settings.Cover command.arguments

lemma cover_of_parseCommand {name : String} {parsed : Parsed}
    (h : i.parseCommand name texts = .ok parsed)
    (hcommand : i.commands.find? (fun command => command.name = name) = some command) :
    parsed.settings.Cover command.arguments := by
  unfold parseCommand at h
  rw [hcommand] at h
  have hcover := (Parser.keeps_cover _ _).parseWith h
  exact fun a ha => hcover a (List.mem_cons_of_mem _ ha)

lemma ne_target_of_parseCommand (hapart : i.KeepsCommandApart) {name : String} {parsed : Parsed}
    (h : i.parseCommand name texts = .ok parsed) :
    ∀ entry ∈ parsed.settings, entry.1 ≠ i.commandArgument.target := by
  intro entry hentry
  obtain ⟨a, ha, htarget, -⟩ := suit_of_parseCommand h entry hentry
  rw [← htarget]
  rcases List.mem_cons.mp ha with rfl | ha
  · exact (show "help" ≠ "command" by decide)
  · exact hapart a (List.mem_append_right _ ha)

lemma keeps_isServed (hapart : i.KeepsCommandApart) :
    i.parser.Keeps i.parseCommand i.IsServed where
  defaults name command hname := by
    obtain ⟨a, ha, htarget, hdefault⟩ := Parser.mem_defaults (Settings.mem_of_get? hname)
    rcases eq_commandArgument_or hapart ha with rfl | hne
    · -- no command is chosen by default
      cases hdefault
    · exact absurd htarget hne
  set {settings a value} ha hrole hvalue h name command hname hcommand := by
    rcases eq_commandArgument_or hapart ha with rfl | hne
    · exact absurd rfl (hrole _)
    · rw [Settings.get?_set, if_neg hne.symm] at hname
      exact (h name command hname hcommand).set
  command {settings a summaries chosen texts parsed} ha hrole hparsed h name command hname
      hcommand := by
    rw [Settings.get?_update_of_forall_ne (ne_target_of_parseCommand hapart hparsed),
      Settings.get?_set] at hname
    rcases eq_commandArgument_or hapart ha with rfl | hne
    · rw [if_pos rfl] at hname
      cases hname
      exact fun a ha hrole =>
        Settings.isSome_get?_update_right (cover_of_parseCommand hparsed hcommand a ha hrole)
    · rw [if_neg hne.symm] at hname
      exact (h name command hname hcommand).set.update

/-- If a command has been chosen, all of its arguments have settings. -/
theorem isServed_of_parse (hapart : i.KeepsCommandApart) (h : i.parse texts = .ok settings) :
    i.IsServed settings := by
  obtain ⟨parsed, hparsed, rfl⟩ := parse_eq_ok h
  exact (keeps_isServed hapart).parseWith hparsed

/-- Where no two arguments have the same name, a setting has a value of the one with its name. -/
theorem sets_of_parse (hnames : (i.arguments.map Argument.target).Nodup)
    (h : i.parse texts = .ok settings) {a : Argument} (ha : a ∈ i.arguments) {value : Setting}
    (hvalue : settings.get? a.target = some value) : a.Sets value := by
  obtain ⟨b, hb, htarget, hsets⟩ := suit_of_parse h _ (Settings.mem_of_get? hvalue)
  rwa [List.inj_on_of_nodup_map hnames hb ha htarget] at hsets

end Interface

/-! ### Values that are read -/

namespace Argument

variable {a : Argument} {value : Setting} {type : ValueType}

lemma take_eq_ok {text : String} (h : a.take type text = .ok value) :
    a.convert type text = .ok value := by
  obtain ⟨converted, hconverted, h⟩ := bind_eq_ok_iff.mp h
  obtain ⟨-, -, h⟩ := bind_eq_ok_iff.mp h
  cases h
  exact hconverted

lemma exists_of_convert_integer {text : String} (h : a.convert .integer text = .ok value) :
    ∃ n, value = .integer n := by
  unfold convert at h
  dsimp only at h
  cases hinteger : Typed.integer? text with
  | none =>
    rw [hinteger] at h
    cases h
  | some n =>
    rw [hinteger] at h
    exact ⟨n, (Except.ok.inj h).symm⟩

/-- An option for one text sets its default or what a text is read as. -/
lemma Sets.of_one (h : a.Sets value) (hoption : a.isOption = true)
    (hrole : a.role = .value type .one) :
    value = a.default ∨ ∃ text, a.convert type text = .ok value := by
  cases h with
  | default => exact Or.inl rfl
  | switch h => exact absurd (hrole.symm.trans h) nofun
  | command h => exact absurd (hrole.symm.trans h) nofun
  | readDefault h hdefault hvalue =>
    cases hrole.symm.trans h
    exact Or.inr ⟨_, hvalue⟩
  | value h hone hvalue =>
    cases hrole.symm.trans h
    obtain ⟨text, rfl⟩ := List.length_eq_one_iff.mp (hone hoption rfl)
    exact Or.inr ⟨text, take_eq_ok hvalue⟩

/-- An argument for any number of texts, without a default, sets nothing or a list of what texts are
read as. -/
lemma Sets.of_any (h : a.Sets value) (hrole : a.role = .value type .any)
    (hdefault : a.default = .null) : value = .null ∨ ∃ texts values,
      List.Forall₂ (fun text item => a.convert type text = .ok item) texts values ∧
        value = .list values := by
  cases h with
  | default => exact Or.inl hdefault
  | switch h => exact absurd (hrole.symm.trans h) nofun
  | command h => exact absurd (hrole.symm.trans h) nofun
  | readDefault h htext hvalue => exact absurd (hdefault.symm.trans htext) nofun
  | @value _ _ texts _ h hone hvalue =>
    cases hrole.symm.trans h
    refine Or.inr ?_
    cases texts with
    | nil =>
      refine ⟨[], [], .nil, ?_⟩
      unfold valueOf at hvalue
      dsimp only at hvalue
      split_ifs at hvalue
      · exact (Except.ok.inj hvalue).symm
      · rw [hdefault] at hvalue
        obtain ⟨-, -, hvalue⟩ := bind_eq_ok_iff.mp hvalue
        exact (Except.ok.inj hvalue).symm
    | cons text texts =>
      obtain ⟨values, hvalues, hvalue⟩ := bind_eq_ok_iff.mp hvalue
      obtain ⟨-, -, hvalue⟩ := bind_eq_ok_iff.mp hvalue
      exact ⟨_, values, mapM_eq_ok_iff.mp hvalues, (Except.ok.inj hvalue).symm⟩

end Argument

end RecordSchema
