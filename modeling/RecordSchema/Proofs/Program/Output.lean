import RecordSchema.Program.Run
import RecordSchema.Proofs.Files.Conversions
import RecordSchema.Proofs.Render.Returns
import RecordSchema.Proofs.Survey.Labels

/-!
# Output and output files

The same command line with and without a file for the report asks for the same survey and the same
report (`Redirects.request_eq`).  Both runs fail together, unless the file cannot be written.  What
the file gets is the report; what is printed is the report with unified line ends.  These are the
same text just when the report has no carriage return, and it has one just when a key within a
folded record has one, or the name of a table that is declared (`output_redirected`).
-/

namespace RecordSchema

open Newline (HasReturn)

/-! ### Carriage returns in the report on a survey -/

lemma hasReturn_shapeSignature {names : List String} :
    HasReturn (shapeSignature names) ↔ ∃ name ∈ names, HasReturn name := by
  have hcomma : ¬ HasReturn "," := by decide
  rw [shapeSignature, Newline.hasReturn_intercalate hcomma]
  exact exists_congr fun name => and_congr_left' mem_sortBy

/-- The report on a survey has the returns of the keys within the folded records and of the name of
a table that is declared. -/
theorem hasReturn_report_of_survey {options : SurveyOptions} {sources : List Source}
    {findings : Findings} (h : (survey options sources).result = .ok findings)
    {style : ReportStyle} {text : String}
    (hreport : report style findings.count findings.node = .ok text) :
    HasReturn text ↔
      (∃ record ∈ folded options sources, ∃ key ∈ record.keys, HasReturn key) ∨
        (style.flat = false ∧ folded options sources ≠ [] ∧ HasReturn style.tableName) := by
  obtain ⟨hnames, hshapes⟩ := labels_of_survey h
  have hreturn : findings.node.NamesReturn ↔
      ∃ record ∈ folded options sources, ∃ key ∈ record.keys, HasReturn key := by
    constructor
    · rintro ⟨name, hname, hreturn⟩
      obtain ⟨record, hrecord, hkey⟩ := (hnames name).mp hname
      exact ⟨record, hrecord, name, hkey, hreturn⟩
    · rintro ⟨record, hrecord, key, hkey, hreturn⟩
      exact ⟨key, (hnames key).mpr ⟨record, hrecord, hkey⟩, hreturn⟩
  rw [hasReturn_report hreport ?_, hreturn, Ne, (kind_of_survey h).1]
  intro shape hshape hshapeReturn
  obtain ⟨record, hrecord, names, hkeys, rfl⟩ := hshapes shape hshape
  obtain ⟨name, hname, hreturn⟩ := hasReturn_shapeSignature.mp hshapeReturn
  exact ⟨name, (hnames name).mpr ⟨record, hrecord, hkeys name hname⟩, hreturn⟩

namespace Program

/-! ### Settings that differ in the output -/

/-- Two command lines for the same run.  The first one has no file for the report, the second one
has a file that is named. -/
structure Redirects (settings settings' : Settings) (path : String) : Prop where
  command : settings.get? "command" = some (.text inferCommand.name)
  version : settings.get? "version" = some (.boolean false)
  output : settings.get? "out" = some .null
  file : settings'.get? "out" = some (.text path)
  nonempty : path ≠ ""
  others : ∀ name, name ≠ "out" → settings'.get? name = settings.get? name

/-- The name of the setting that a text refers to. -/
def referred? (text : String) : Option String :=
  Settings.dropStart? "args." ((Settings.dropStart? "not " text).getD text)

namespace Redirects

variable {settings settings' : Settings} {path : String}

lemma resolve (h : Redirects settings settings' path) (text : String) {name : String}
    (hname : referred? text = some name) (hne : name ≠ "out") :
    settings'.resolve text = settings.resolve text := by
  unfold Settings.resolve Settings.require
  unfold referred? at hname
  cases hnot : Settings.dropStart? "not " text with
  | none =>
    rw [hnot] at hname
    dsimp only [Option.getD_none] at hname ⊢
    rw [hname]
    dsimp only
    rw [h.others name hne]
  | some rest =>
    rw [hnot] at hname
    dsimp only [Option.getD_some] at hname ⊢
    rw [hname]
    dsimp only
    rw [h.others name hne]

/-- The requests differ in the destination only. -/
lemma request_eq (h : Redirects settings settings' path) :
    request settings' =
      (fun r => { r with destination := .file path }) <$> request settings := by
  have hdestination : Destination.ofSettings settings' = .file path := by
    rw [Destination.ofSettings, h.file]
    exact if_neg (by simpa using h.nonempty)
  have hinputs : inputs settings' = inputs settings := by
    unfold inputs
    rw [h.others "input" (by decide)]
  unfold request
  simp only [map_bind, map_pure, hinputs, hdestination,
    h.resolve "args.table_name" rfl (by decide),
    h.resolve "args.flat" rfl (by decide), h.resolve "args.sample_size" rfl (by decide),
    h.resolve "args.skip_errors" rfl (by decide), h.resolve "args.jobs" rfl (by decide),
    h.resolve "not args.no_timestamps" rfl (by decide),
    h.resolve "not args.no_binary" rfl (by decide), h.resolve "args.shapes" rfl (by decide)]

lemma destination_eq (h : Redirects settings settings' path) {r : Request}
    (hrequest : request settings = .ok r) : r.destination = .output := by
  have hdestination : Destination.ofSettings settings = .output := by
    rw [Destination.ofSettings, h.output]
  have heq : (fun r : Request => { r with destination := .output }) <$> request settings =
      request settings := by
    unfold request
    simp only [map_bind, map_pure, hdestination]
  rw [hrequest] at heq
  exact (congrArg Request.destination (Except.ok.inj heq)).symm

end Redirects

/-! ### Runs -/

variable {settings : Settings} {r : Request} {options : SurveyOptions} {arguments : List String}
  {path text : String} (around : Surroundings)

/-- A command line with the command and without a question for the version is worked on. -/
lemma runArguments_of_command (hparse : interface.parse arguments = .ok settings)
    (hcommand : settings.get? "command" = some (.text inferCommand.name))
    (hversion : settings.get? "version" = some (.boolean false)) :
    runArguments arguments around = .ok (infer settings around) := by
  rw [runArguments, hparse]
  dsimp only
  unfold run Settings.require
  rw [hversion, hcommand]
  rfl

lemma infer_of_fault {fault : Fault} (h : request settings = .error fault) :
    (infer settings around).status = 1 := by
  rw [infer, h]

/-- A run succeeds if the work on its request does. -/
lemma infer_status (h : request settings = .ok r) :
    (infer settings around).status = 0 ↔ ∃ text, (r.work around).result = .ok text := by
  rw [infer, h]
  dsimp only
  cases (r.work around).result <;> simp

lemma infer_store (h : request settings = .ok r) :
    (infer settings around).store = (r.work around).store := by
  rw [infer, h]

lemma infer_output (h : request settings = .ok r) (hwork : (r.work around).result = .ok text) :
    (infer settings around).output = r.announcement ++ text := by
  rw [infer, h]
  dsimp only
  rw [hwork]

/-- Without a file, what is printed is the report with unified line ends. -/
lemma work_of_output (hdestination : r.destination = .output) (hoptions : r.options = .ok options) :
    (r.work around).result =
      ((survey options (r.sources around)).report r.style).mapError Fault.failure >>=
        fun text => .ok (Newline.unified text) := by
  rw [Request.work, hoptions]
  dsimp only
  rw [Request.workWith, hdestination]

/-- With a file, the work is a conversion. -/
lemma work_of_file (hdestination : r.destination = .file path)
    (hoptions : r.options = .ok options) :
    ((∃ text, (r.work around).result = .ok text) ↔
      (convert options r.style (r.sources around) path around.store).failure? = none) ∧
    (r.work around).store =
      (convert options r.style (r.sources around) path around.store).store := by
  rw [Request.work, hoptions]
  dsimp only
  rw [Request.workWith, hdestination]
  dsimp only
  cases (convert options r.style (r.sources around) path around.store).failure? <;> simp

/-- A run that prints its report succeeds if there is one, and prints it with unified line ends. -/
lemma infer_of_output (hrequest : request settings = .ok r) (hdestination : r.destination = .output)
    (hoptions : r.options = .ok options) :
    ((infer settings around).status = 0 ↔
      ∃ text, (survey options (r.sources around)).report r.style = .ok text) ∧
    ∀ text, (survey options (r.sources around)).report r.style = .ok text →
      (infer settings around).output = Newline.unified text := by
  have hwork := work_of_output around hdestination hoptions
  constructor
  · rw [infer_status around hrequest, hwork]
    cases (survey options (r.sources around)).report r.style with
    | ok text => exact iff_of_true ⟨_, rfl⟩ ⟨text, rfl⟩
    | error failure => exact iff_of_false (by rintro ⟨text, ⟨⟩⟩) (by simp)
  · intro text hreport
    rw [hreport] at hwork
    rw [infer_output around hrequest hwork, Request.announcement, hdestination]
    exact String.empty_append

/-- A run that writes its report succeeds if there is one and it can be written, and then it can be
read from the file. -/
lemma infer_of_file (hrequest : request settings = .ok r)
    (hdestination : r.destination = .file path) (hoptions : r.options = .ok options) :
    ((infer settings around).status = 0 ↔
      ∃ text, (survey options (r.sources around)).report r.style = .ok text ∧
        (around.store.writeReport path text).2 = none) ∧
    ∀ text, (survey options (r.sources around)).report r.style = .ok text →
      (around.store.writeReport path text).2 = none →
        (infer settings around).store.openFile path = .ok (.plain (Utf8.ofString text)) := by
  obtain ⟨hstatus, hstore⟩ := work_of_file around hdestination hoptions
  constructor
  · rw [infer_status around hrequest, hstatus]
    cases hreport : (survey options (r.sources around)).report r.style with
    | ok text => simp [(convert_of_report path around.store hreport).1]
    | error failure => simp [(convert_of_failure path around.store hreport).1]
  · intro text hreport hwritten
    rw [infer_store around hrequest, hstore, (convert_of_report path around.store hreport).2]
    exact FileStore.openFile_writeReport hwritten

/-- Settings of the wrong type fail the run. -/
lemma infer_of_options_fault (hrequest : request settings = .ok r) {fault : Fault}
    (hoptions : r.options = .error fault) : (infer settings around).status ≠ 0 := by
  rw [Ne, infer_status around hrequest, Request.work, hoptions]
  rintro ⟨text, ⟨⟩⟩

/-! ### One command line without and one with a file -/

/-- Both runs have the outcome of the inference that their settings ask for. -/
lemma Redirects.runs {arguments' : List String} {settings' : Settings}
    (h : Redirects settings settings' path) (hparse : interface.parse arguments = .ok settings)
    (hparse' : interface.parse arguments' = .ok settings') :
    runArguments arguments around = .ok (infer settings around) ∧
      runArguments arguments' around = .ok (infer settings' around) := by
  refine ⟨runArguments_of_command around hparse h.command h.version,
    runArguments_of_command around hparse' ?_ ?_⟩
  · rw [h.others "command" (by decide), h.command]
  · rw [h.others "version" (by decide), h.version]

/-- Two command lines for the same run, of which only the second one names a file for the report.
If the second run succeeds, so does the first one.  If the first one does, there is a report: the
second run succeeds just when the report can be written, and then the file holds the report, while
the first run prints it with unified line ends.  This is the same text just when no key within a
folded record has a carriage return, nor the name of a table that is declared. -/
theorem output_redirected {arguments' : List String} {settings' : Settings}
    (hparse : interface.parse arguments = .ok settings)
    (hparse' : interface.parse arguments' = .ok settings')
    (h : Redirects settings settings' path) :
    ∃ outcome outcome', runArguments arguments around = .ok outcome ∧
      runArguments arguments' around = .ok outcome' ∧
      (outcome'.status = 0 → outcome.status = 0) ∧
      (outcome.status = 0 → ∃ r options text,
        request settings = .ok r ∧ r.options = .ok options ∧
        (survey options (r.sources around)).report r.style = .ok text ∧
        outcome.output = Newline.unified text ∧
        (outcome'.status = 0 ↔ (around.store.writeReport path text).2 = none) ∧
        (outcome'.status = 0 →
          outcome'.store.openFile path = .ok (.plain (Utf8.ofString text))) ∧
        (outcome.output = text ↔
          ¬ ((∃ record ∈ folded options (r.sources around), ∃ key ∈ record.keys, HasReturn key) ∨
            (r.style.flat = false ∧ folded options (r.sources around) ≠ [] ∧
              HasReturn r.style.tableName)))) := by
  obtain ⟨hrun, hrun'⟩ := h.runs around hparse hparse'
  refine ⟨_, _, hrun, hrun', ?_⟩
  have hrequest' := h.request_eq
  cases hrequest : request settings with
  | error fault =>
    rw [hrequest] at hrequest'
    rw [infer_of_fault around hrequest, infer_of_fault around hrequest']
    simp
  | ok r =>
    rw [hrequest] at hrequest'
    have houtput := h.destination_eq hrequest
    cases hoptions : r.options with
    | error fault =>
      have hfault := infer_of_options_fault around hrequest hoptions
      have hfault' := infer_of_options_fault around hrequest' hoptions
      exact ⟨fun hstatus => absurd hstatus hfault', fun hstatus => absurd hstatus hfault⟩
    | ok options =>
      obtain ⟨hstatus, hprinted⟩ := infer_of_output around hrequest houtput hoptions
      obtain ⟨hstatus', hwritten⟩ := infer_of_file around hrequest' rfl hoptions
      constructor
      · intro hsuccess
        obtain ⟨text, hreport, -⟩ := hstatus'.mp hsuccess
        exact hstatus.mpr ⟨text, hreport⟩
      · intro hsuccess
        obtain ⟨text, hreport⟩ := hstatus.mp hsuccess
        have hreport' : (survey options (Request.sources { r with destination := .file path }
            around)).report r.style = .ok text := hreport
        have hwrite : (infer settings' around).status = 0 ↔
            (around.store.writeReport path text).2 = none := by
          rw [hstatus']
          constructor
          · rintro ⟨text', htext', hnone⟩
            obtain rfl : text = text' := Except.ok.inj (hreport'.symm.trans htext')
            exact hnone
          · exact fun hnone => ⟨text, hreport', hnone⟩
        obtain ⟨findings, hfindings, hfound⟩ := bind_eq_ok_iff.mp hreport
        refine ⟨r, options, text, rfl, hoptions, hreport, hprinted text hreport, hwrite,
          fun hzero => hwritten text hreport' (hwrite.mp hzero), ?_⟩
        rw [hprinted text hreport, Newline.unified_eq_iff,
          hasReturn_report_of_survey hfindings hfound]

/-! ### A run over one file -/

/-- The settings of a run over one file, with or without a file for the report. -/
def oneFileSettings (output : Setting) : Settings :=
  [("version", .boolean false), ("verbose", .boolean false), ("command", .text "j2h"),
    ("input", .list [.text "a.json"]), ("out", output), ("table_name", .text "tbl"),
    ("flat", .boolean false), ("sample_size", .integer 0), ("skip_errors", .boolean false),
    ("jobs", .integer 1), ("no_timestamps", .boolean false), ("no_binary", .boolean false),
    ("shapes", .boolean false)]

/-- One file with a text, and no input. -/
def oneFile (text : String) : Surroundings :=
  { store := { files := [(["", "a.json"], .plain (Utf8.ofString text))] } }

lemma redirects_oneFileSettings :
    Redirects (oneFileSettings .null) (oneFileSettings (.text "o")) "o" where
  command := rfl
  version := rfl
  output := rfl
  file := rfl
  nonempty := by decide
  others name hname := by
    simp only [Settings.get?, oneFileSettings, List.lookup_cons, beq_false_of_ne hname]

/-- A key without returns is printed as it is written. -/
theorem output_redirected_of_plain_names :
    interface.parse ["j2h", "a.json"] = .ok (oneFileSettings .null) ∧
    interface.parse ["j2h", "a.json", "--out", "o"] = .ok (oneFileSettings (.text "o")) ∧
    ∃ outcome outcome' text,
      runArguments ["j2h", "a.json"] (oneFile "\x7b\"a\": 1\x7d") = .ok outcome ∧
      runArguments ["j2h", "a.json", "--out", "o"] (oneFile "\x7b\"a\": 1\x7d") = .ok outcome' ∧
      outcome.status = 0 ∧ outcome'.status = 0 ∧ outcome.output = text ∧
      outcome'.store.openFile "o" = .ok (.plain (Utf8.ofString text)) := by
  have hparse : interface.parse ["j2h", "a.json"] = .ok (oneFileSettings .null) := by
    with_unfolding_all rfl
  have hparse' : interface.parse ["j2h", "a.json", "--out", "o"] =
      .ok (oneFileSettings (.text "o")) := by with_unfolding_all rfl
  have hrequest : request (oneFileSettings .null) =
      .ok { inputs := ["a.json"], destination := .output, style := {}, options := .ok {} } := by
    with_unfolding_all rfl
  obtain ⟨outcome, outcome', hrun, hrun', hstatus, hall⟩ :=
    output_redirected (oneFile "\x7b\"a\": 1\x7d") hparse hparse' redirects_oneFileSettings
  have hzero : (runArguments ["j2h", "a.json", "--out", "o"] (oneFile "\x7b\"a\": 1\x7d")).map
      Outcome.status = .ok 0 := by decide +kernel
  rw [hrun'] at hzero
  have hzero' := Except.ok.inj hzero
  obtain ⟨r, options, text, hr, hoptions, -, -, -, hfile, hsame⟩ := hall (hstatus hzero')
  obtain rfl := Except.ok.inj (hrequest.symm.trans hr)
  obtain rfl := Except.ok.inj hoptions
  exact ⟨hparse, hparse', outcome, outcome', text, hrun, hrun', hstatus hzero', hzero',
    hsame.mpr (by decide +kernel), hfile hzero'⟩

/-- A return within a key is in the file and not in the output. -/
theorem output_differs_from_file :
    (runArguments ["j2h", "a.json"] (oneFile "\x7b\"a\\rb\": 1\x7d")).map Outcome.output =
      .ok "1 records read\n\ncreate table tbl (\n   a\nb tinyint\n)\n" ∧
    (runArguments ["j2h", "a.json", "--out", "o"] (oneFile "\x7b\"a\\rb\": 1\x7d")).map
        (fun outcome => outcome.store.openFile "o") =
      .ok (.ok (.plain (Utf8.ofString
        "1 records read\n\ncreate table tbl (\n   a\rb tinyint\n)\n"))) := by
  constructor <;> decide +kernel

end Program

end RecordSchema
