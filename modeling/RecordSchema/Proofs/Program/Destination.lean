import RecordSchema.Proofs.Program.Accepted
import RecordSchema.Proofs.Program.TemporaryFiles

/-!
# Where the report goes

A command line that is accepted either names no output or gives a text for it.  In the first case no
file is touched and the report is printed.  In the second one the report is written at the path that
the text stands for, and nothing is touched but the file there and missing directories on the way to
it.  That path is the text itself, with one exception: the empty text, which names no file, stands
for the path `output_file_path`, so the report ends in a file that nobody has asked for
(`empty_output_names_a_file`).  A run that does not get this far says why and ends with status 1,
and in no case are the files still there that the run has made for itself (`report_destination`).
-/

namespace RecordSchema

/-- A conversion writes at its path only, also if it fails. -/
lemma writesOnly_convert (options : SurveyOptions) (style : ReportStyle) (sources : List Source)
    (path : String) (store : FileStore) :
    FileStore.WritesOnly path store (convert options style sources path store).store := by
  cases hreport : (survey options sources).report style with
  | error failure =>
    rw [(convert_of_failure path store hreport).2]
    exact fun place => Or.inl rfl
  | ok text =>
    rw [(convert_of_report path store hreport).2]
    exact FileStore.writesOnly_writeReport store path text

/-- A conversion that succeeds leaves its report at its path. -/
lemma exists_report_of_convert {options : SurveyOptions} {style : ReportStyle}
    {sources : List Source} {path : String} {store : FileStore}
    (h : (convert options style sources path store).failure? = none) :
    ∃ text, (survey options sources).report style = .ok text ∧
      (convert options style sources path store).store.openFile path =
        .ok (.plain (Utf8.ofString text)) := by
  cases hreport : (survey options sources).report style with
  | error failure =>
    rw [(convert_of_failure path store hreport).1] at h
    cases h
  | ok text =>
    obtain ⟨hfailure, hstore⟩ := convert_of_report path store hreport
    rw [hfailure] at h
    rw [hstore]
    exact ⟨text, rfl, FileStore.openFile_writeReport h⟩

namespace Program

variable {settings : Settings} {arguments : List String} {r : Request} {options : SurveyOptions}
  {path : String} {around : Surroundings}

/-! ### The destination that the settings name -/

/-- The path that a text for the output stands for: itself, unless it is empty. -/
def Destination.target (path : String) : String := if path.isEmpty then unnamedPath else path

lemma Destination.paths_ofSettings (h : settings.get? "out" = some (.text path)) :
    (Destination.ofSettings settings).paths = [target path] := by
  rw [ofSettings, h, target]
  dsimp only
  split_ifs <;> rfl

lemma eq_none_of_ok {failure? : Option Failure} {text : String}
    (h : (match failure? with
      | none => .ok ""
      | some failure => .error (.failure failure) : Except Fault String) = .ok text) :
    failure? = none := by
  cases failure? with
  | none => rfl
  | some failure => cases h

/-- Where the output is a text, the work is a conversion, and succeeds only if that does. -/
lemma work_of_text (around : Surroundings) (hdestination : r.destination = .ofSettings settings)
    (hout : settings.get? "out" = some (.text path)) (hoptions : r.options = .ok options) :
    (r.work around).store = (convert options r.style (r.sources around) (Destination.target path)
        around.store).store ∧
      ∀ text, (r.work around).result = .ok text →
        (convert options r.style (r.sources around) (Destination.target path)
          around.store).failure? = none := by
  have hpath : r.destination = if path.isEmpty then .unnamedFile else .file path := by
    rw [hdestination, Destination.ofSettings, hout]
  rw [Request.work, hoptions]
  dsimp only
  rw [Request.workWith, hpath, Destination.target]
  split_ifs
  · exact ⟨rfl, fun text h => eq_none_of_ok h⟩
  · exact ⟨rfl, fun text h => eq_none_of_ok h⟩

/-- Where no output is named, the work leaves all files as they are. -/
lemma work_of_null (around : Surroundings) (hdestination : r.destination = .output)
    (hoptions : r.options = .ok options) :
    (r.work around).store = around.store := by
  rw [Request.work, hoptions]
  dsimp only
  rw [Request.workWith, hdestination]

/-! ### Outcomes -/

/-- A run succeeds, or it says what its fault is and ends with status 1. -/
lemma infer_cases (around : Surroundings) (h : request settings = .ok r) :
    (∃ text, (r.work around).result = .ok text ∧ (infer settings around).status = 0) ∨
      (infer settings around).status = 1 ∧
        ∃ fault, (infer settings around).output = r.announcement ++ faultText fault := by
  rw [infer, h]
  dsimp only
  cases (r.work around).result with
  | ok text => exact Or.inl ⟨text, rfl, rfl⟩
  | error fault => exact Or.inr ⟨rfl, fault, rfl⟩

/-- Where the files that a run makes for itself have been, there is nothing after the work. -/
lemma entryAt_work_of_isFree {t : Temporaries} (h : t.IsFree r around.store)
    (hdestination : r.destination = .ofSettings settings)
    (hout : settings.get? "out" = some .null ∨ ∃ path, settings.get? "out" = some (.text path))
    (hoptions : r.options = .ok options) :
    ∀ place ∈ [t.input, t.output], (r.work around).store.entryAt place = .missing := by
  intro place hplace
  obtain ⟨hmissing, -⟩ := h.vacant place hplace
  rcases hout with hout | ⟨path, hout⟩
  · rw [work_of_null around (by rw [hdestination, Destination.ofSettings, hout]) hoptions]
    exact hmissing
  · have hpath : Destination.target path ∈ r.inputs ++ r.destination.paths := by
      rw [hdestination, Destination.paths_ofSettings hout]
      exact List.mem_append_right _ (List.mem_singleton_self _)
    rw [(work_of_text around hdestination hout hoptions).1,
      (h.apart place hplace _ hpath).entryAt_eq (writesOnly_convert _ _ _ _ _)]
    exact hmissing

/-- A command line that is accepted and asks for a schema ends with status 0, or with status 1 and
an error line.  If it names no output, it leaves all files as they are, and on success it prints the
report, with unified line ends.  Otherwise it touches no file but the one at the path that the
output stands for, and makes no directories but missing ones on the way to it, and on success this
file holds the report.  The files that it makes for itself are gone in each case, wherever they have
been, and without them everything would have come to the same. -/
theorem report_destination (around : Surroundings)
    (hparse : interface.parse arguments = .ok settings)
    (hcommand : settings.get? "command" = some (.text inferCommand.name))
    (hversion : settings.get? "version" = some (.boolean false)) :
    ∃ outcome r options, runArguments arguments around = .ok outcome ∧
      request settings = .ok r ∧ r.options = .ok options ∧
      (outcome.status = 0 ∨
        outcome.status = 1 ∧ ∃ fault, outcome.output = r.announcement ++ faultText fault) ∧
      (settings.get? "out" = some .null ∧ outcome.store = around.store ∧
          (outcome.status = 0 → ∃ text,
            (survey options (r.sources around)).report r.style = .ok text ∧
              outcome.output = Newline.unified text) ∨
        ∃ path, settings.get? "out" = some (.text path) ∧
          FileStore.WritesOnly (Destination.target path) around.store outcome.store ∧
          (outcome.status = 0 → ∃ text,
            (survey options (r.sources around)).report r.style = .ok text ∧
              outcome.store.openFile (Destination.target path) =
                .ok (.plain (Utf8.ofString text)))) ∧
      ∀ t : Temporaries, t.IsFree r around.store →
        r.workInFiles t around = r.work around ∧ (r.workInFiles t around).store = outcome.store ∧
          ∀ place ∈ [t.input, t.output], outcome.store.entryAt place = .missing := by
  obtain ⟨r, options, hrequest, hoptions, hdestination⟩ := request_of_parse hparse hcommand
  have hout := output_of_parse hparse hcommand
  have hstore := infer_store around hrequest
  refine ⟨infer settings around, r, options,
    runArguments_of_command around hparse hcommand hversion, hrequest, hoptions, ?_, ?_,
    fun t ht => ?_⟩
  · rcases infer_cases around hrequest with ⟨-, -, hzero⟩ | hfault
    · exact Or.inl hzero
    · exact Or.inr hfault
  · rcases hout with hout | ⟨path, hout⟩
    · have houtput : r.destination = .output := by
        rw [hdestination, Destination.ofSettings, hout]
      obtain ⟨hstatus, hprinted⟩ := infer_of_output around hrequest houtput hoptions
      refine Or.inl ⟨hout, hstore.trans (work_of_null around houtput hoptions), fun hzero => ?_⟩
      obtain ⟨text, hreport⟩ := hstatus.mp hzero
      exact ⟨text, hreport, hprinted text hreport⟩
    · obtain ⟨hwork, hresult⟩ := work_of_text around hdestination hout hoptions
      refine Or.inr ⟨path, hout, ?_, fun hzero => ?_⟩
      · rw [hstore, hwork]
        exact writesOnly_convert _ _ _ _ _
      · obtain ⟨text, htext⟩ := (infer_status around hrequest).mp hzero
        obtain ⟨report, hreport, hfile⟩ := exists_report_of_convert (hresult text htext)
        exact ⟨report, hreport, by rw [hstore, hwork, hfile]⟩
  · have hsame := workInFiles_eq ht
    refine ⟨hsame, by rw [hsame, hstore], ?_⟩
    rw [hstore]
    exact entryAt_work_of_isFree ht hdestination hout hoptions

/-- There is room for two new files at the root. -/
lemma isFree_oneFile (text : String) :
    Temporaries.IsFree ⟨["t1"], ["t2"]⟩
      { inputs := ["a.json"], destination := .file "d/o", style := {}, options := .ok {} }
      (oneFile text).store := by
  have hready : ∀ name, (oneFile text).store.IsReady [name] := by
    intro name above habove hne
    obtain heq | hnil := List.prefix_concat_iff.mp (show above <+: [] ++ [name] from habove)
    · exact absurd heq hne
    · rw [List.prefix_nil.mp hnil]
      rfl
  refine ⟨by decide, ?_, ?_⟩
  · simp only [List.forall_mem_cons]
    exact ⟨⟨rfl, hready _⟩, ⟨rfl, hready _⟩, List.forall_mem_nil _⟩
  · show ∀ place ∈ [["t1"], ["t2"]], ∀ path ∈ ["a.json", "d/o"], _
    simp only [List.forall_mem_cons]
    refine ⟨⟨?_, ?_, List.forall_mem_nil _⟩, ⟨?_, ?_, List.forall_mem_nil _⟩, List.forall_mem_nil _⟩
    all_goals
      exact ⟨_, List.mem_singleton_self _, by decide, show _ ∉ [""] by decide, by decide +kernel⟩

/-- A report in a directory that is made for it. -/
theorem report_destination_new_directory :
    interface.parse ["j2h", "a.json", "--out", "d/o"] = .ok (oneFileSettings (.text "d/o")) ∧
    ∃ outcome, runArguments ["j2h", "a.json", "--out", "d/o"] (oneFile "\x7b\"a\": 1\x7d") =
        .ok outcome ∧ outcome.status = 0 ∧
      FileStore.WritesOnly "d/o" (oneFile "\x7b\"a\": 1\x7d").store outcome.store ∧
      outcome.store.openFile "d/o" = .ok (.plain (Utf8.ofString
        "1 records read\n\ncreate table tbl (\n   a tinyint\n)\n")) ∧
      outcome.store.entryAt ["t1"] = .missing ∧ outcome.store.entryAt ["t2"] = .missing := by
  have hparse : interface.parse ["j2h", "a.json", "--out", "d/o"] =
      .ok (oneFileSettings (.text "d/o")) := by with_unfolding_all rfl
  have hrequest : request (oneFileSettings (.text "d/o")) = .ok
      { inputs := ["a.json"], destination := .file "d/o", style := {}, options := .ok {} } := by
    with_unfolding_all rfl
  obtain ⟨outcome, r, options, hrun, hr, hoptions, -, hdestination, hfiles⟩ :=
    report_destination (oneFile "\x7b\"a\": 1\x7d") hparse rfl rfl
  obtain rfl := Except.ok.inj (hrequest.symm.trans hr)
  obtain rfl := Except.ok.inj hoptions
  obtain ⟨-, -, hgone⟩ := hfiles _ (isFree_oneFile _)
  have hzero : (runArguments ["j2h", "a.json", "--out", "d/o"] (oneFile "\x7b\"a\": 1\x7d")).map
      Outcome.status = .ok 0 := by decide +kernel
  rw [hrun] at hzero
  rcases hdestination with ⟨hout, -⟩ | ⟨path, hout, hwrites, hfile⟩
  · cases hout
  · cases hout
    obtain ⟨text, hreport, hopen⟩ := hfile (Except.ok.inj hzero)
    have htext : (survey {} (Request.sources
        { inputs := ["a.json"], destination := .file "d/o", style := {}, options := .ok {} }
        (oneFile "\x7b\"a\": 1\x7d"))).report {} =
          .ok "1 records read\n\ncreate table tbl (\n   a tinyint\n)\n" := by decide +kernel
    obtain rfl := Except.ok.inj (htext.symm.trans hreport)
    exact ⟨hparse, outcome, hrun, Except.ok.inj hzero, hwrites, hopen,
      hgone _ (List.mem_cons_self ..), hgone _ (List.mem_cons_of_mem _ (List.mem_singleton_self _))⟩

/-- The empty text for the output names no file, and still the run succeeds and prints nothing.  The
report is in a file that was not there before. -/
theorem empty_output_names_a_file :
    interface.parse ["j2h", "a.json", "--out", ""] = .ok (oneFileSettings (.text "")) ∧
    (oneFile "\x7b\"a\": 1\x7d").store.openFile "output_file_path" =
      .error (.fileNotFound "output_file_path") ∧
    (runArguments ["j2h", "a.json", "--out", ""] (oneFile "\x7b\"a\": 1\x7d")).map
        (fun outcome => (outcome.status, outcome.output,
          outcome.store.openFile "output_file_path")) =
      .ok (0, "", .ok (.plain (Utf8.ofString
        "1 records read\n\ncreate table tbl (\n   a tinyint\n)\n"))) := by
  refine ⟨?_, ?_, ?_⟩
  · with_unfolding_all rfl
  · decide +kernel
  · decide +kernel

end Program

end RecordSchema
