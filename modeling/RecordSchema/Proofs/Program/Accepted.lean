import RecordSchema.Proofs.CommandLine.Settings
import RecordSchema.Proofs.Program.Output

/-!
# Accepted command lines

A command line that is accepted and chooses the command asks for something: none of the settings
that a run needs is missing or of a wrong type (`request_of_parse`), and the output is either not
named or a text (`output_of_parse`).  The faults of settings are for runs that are not asked for by
a command line.
-/

namespace RecordSchema.Program

variable {settings : Settings} {arguments : List String} {a : Argument}

lemma keepsCommandApart_interface : interface.KeepsCommandApart := by
  unfold Interface.KeepsCommandApart
  decide

lemma nodup_targets_interface : (interface.arguments.map Argument.target).Nodup := by
  decide

/-! ### Values of settings -/

lemma textsFrom_eq_ok {position : Nat} {texts : List String} {values : List Setting}
    (h : List.Forall₂ (fun text item => a.convert .text text = .ok item) texts values) :
    textsFrom position values = .ok texts := by
  induction h generalizing position with
  | nil => rfl
  | cons hitem _ ih =>
    cases hitem
    rw [textsFrom, ih]
    rfl

section Accepted

variable (hparse : interface.parse arguments = .ok settings)
  (hcommand : settings.get? "command" = some (.text inferCommand.name))
include hparse hcommand

/-- Each argument of the command has a setting, with a value that it can set. -/
lemma exists_sets (ha : a ∈ inferCommand.arguments) (hrole : a.role ≠ .help) :
    ∃ value, settings.get? a.target = some value ∧ a.Sets value := by
  have hserved := Interface.isServed_of_parse keepsCommandApart_interface hparse
  have hcover := hserved inferCommand.name inferCommand hcommand rfl
  obtain ⟨value, hvalue⟩ := Option.isSome_iff_exists.mp (hcover a ha hrole)
  refine ⟨value, hvalue, Interface.sets_of_parse nodup_targets_interface hparse ?_ hvalue⟩
  exact List.mem_append_right _ (List.mem_flatMap.mpr ⟨_, List.mem_singleton_self _, ha⟩)

/-- What an option for a whole number sets is one. -/
lemma exists_integer (ha : a ∈ inferCommand.arguments) (hoption : a.isOption = true)
    (hrole : a.role = .value .integer .one) {n : Int} (hdefault : a.default = .integer n) :
    ∃ n, settings.get? a.target = some (.integer n) := by
  obtain ⟨value, hvalue, hsets⟩ := exists_sets hparse hcommand ha (by simp [hrole])
  rcases hsets.of_one hoption hrole with rfl | ⟨text, hconvert⟩
  · exact ⟨n, hdefault ▸ hvalue⟩
  · obtain ⟨n, rfl⟩ := Argument.exists_of_convert_integer hconvert
    exact ⟨n, hvalue⟩

/-- The output is not named, or a text. -/
theorem output_of_parse : settings.get? "out" = some .null ∨
    ∃ path, settings.get? "out" = some (.text path) := by
  have hout : inferCommand.arguments[1] ∈ inferCommand.arguments := List.getElem_mem _
  obtain ⟨value, hvalue, hsets⟩ := exists_sets hparse hcommand hout nofun
  rcases hsets.of_one rfl rfl with rfl | ⟨path, hconvert⟩
  · exact Or.inl hvalue
  · cases hconvert
    exact Or.inr ⟨path, hvalue⟩

/-- The inputs are a list of texts. -/
lemma inputs_of_parse : ∃ names, inputs settings = .ok names := by
  have hinput : inferCommand.arguments[0] ∈ inferCommand.arguments := List.getElem_mem _
  obtain ⟨value, hvalue, hsets⟩ := exists_sets hparse hcommand hinput nofun
  have hvalue : settings.get? "input" = some value := hvalue
  unfold inputs
  rw [hvalue]
  dsimp only [Option.getD_some]
  rcases hsets.of_any rfl rfl with rfl | ⟨texts, values, htexts, rfl⟩
  · exact ⟨[], rfl⟩
  · split_ifs
    · exact ⟨[], rfl⟩
    · exact ⟨texts, textsFrom_eq_ok htexts⟩

/-- A reference to an argument of the command stands for something. -/
lemma resolve_of_parse {text : String} (ha : a ∈ inferCommand.arguments) (hrole : a.role ≠ .help)
    (htext : referred? text = some a.target) :
    ∃ value, settings.resolve text = .ok value := by
  obtain ⟨value, hvalue, -⟩ := exists_sets hparse hcommand ha hrole
  unfold referred? at htext
  unfold Settings.resolve Settings.require
  cases hnot : Settings.dropStart? "not " text with
  | none =>
    rw [hnot] at htext
    dsimp only [Option.getD_none] at htext ⊢
    rw [htext]
    dsimp only
    rw [hvalue]
    exact ⟨_, rfl⟩
  | some rest =>
    rw [hnot] at htext
    dsimp only [Option.getD_some] at htext ⊢
    rw [htext]
    dsimp only
    rw [hvalue]
    exact ⟨_, rfl⟩

/-- A reference to an option for a whole number stands for one. -/
lemma resolve_integer_of_parse {text : String} (ha : a ∈ inferCommand.arguments)
    (hoption : a.isOption = true) (hrole : a.role = .value .integer .one) {n : Int}
    (hdefault : a.default = .integer n) (hnot : Settings.dropStart? "not " text = none)
    (htext : Settings.dropStart? "args." text = some a.target) :
    ∃ n, settings.resolve text = .ok (.integer n) := by
  obtain ⟨n, hvalue⟩ := exists_integer hparse hcommand ha hoption hrole hdefault
  refine ⟨n, ?_⟩
  unfold Settings.resolve Settings.require
  rw [hnot]
  dsimp only
  rw [htext]
  dsimp only
  rw [hvalue]
  rfl

/-- A command line that is accepted asks for something: no setting is missing or of a wrong type. -/
theorem request_of_parse : ∃ r options, request settings = .ok r ∧ r.options = .ok options ∧
    r.destination = .ofSettings settings := by
  have hmem : ∀ (i : Nat) (hi : i < inferCommand.arguments.length),
      inferCommand.arguments[i] ∈ inferCommand.arguments := fun i hi => List.getElem_mem hi
  have hresolve : ∀ {a : Argument} (text : String), a ∈ inferCommand.arguments → a.role ≠ .help →
      referred? text = some a.target → ∃ value, settings.resolve text = .ok value :=
    fun text => resolve_of_parse hparse hcommand
  obtain ⟨names, hnames⟩ := inputs_of_parse hparse hcommand
  obtain ⟨tableName, htableName⟩ := hresolve "args.table_name" (hmem 2 (by decide)) nofun rfl
  obtain ⟨flat, hflat⟩ := hresolve "args.flat" (hmem 3 (by decide)) nofun rfl
  obtain ⟨sampleSize, hsampleSize⟩ :=
    resolve_integer_of_parse hparse hcommand (hmem 4 (by decide)) rfl rfl rfl
      (rfl : Settings.dropStart? "not " "args.sample_size" = none) rfl
  obtain ⟨skipErrors, hskipErrors⟩ := hresolve "args.skip_errors" (hmem 5 (by decide)) nofun rfl
  obtain ⟨jobs, hjobs⟩ :=
    resolve_integer_of_parse hparse hcommand (hmem 6 (by decide)) rfl rfl rfl
      (rfl : Settings.dropStart? "not " "args.jobs" = none) rfl
  obtain ⟨timestamps, htimestamps⟩ :=
    hresolve "not args.no_timestamps" (hmem 7 (by decide)) nofun rfl
  obtain ⟨binary, hbinary⟩ := hresolve "not args.no_binary" (hmem 8 (by decide)) nofun rfl
  obtain ⟨shapes, hshapes⟩ := hresolve "args.shapes" (hmem 9 (by decide)) nofun rfl
  unfold request
  dsimp only
  rw [hnames, htableName, hflat, hsampleSize, hskipErrors, hjobs, htimestamps, hbinary, hshapes]
  exact ⟨_, _, rfl, rfl, rfl⟩

end Accepted

end RecordSchema.Program
