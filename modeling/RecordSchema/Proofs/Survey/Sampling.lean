import RecordSchema.Proofs.Inference.Range
import RecordSchema.Proofs.Json.Reading
import RecordSchema.Proofs.Survey.InOrder

/-!
# Samples of files

A survey with one job depends on the records that belong to its sample and on the failure that is
met before the sample is complete.  Nothing else matters: neither what comes after the sample, nor
where one file ends and the next one begins (`survey_stream`).  The records of files are refused for
integers out of range and for nothing else.
-/

namespace RecordSchema

/-- The records of the files at some paths that belong to a sample of this size. -/
def FileStore.sample (store : FileStore) (paths : List String) (size : ℤ) : RecordStream :=
  (RecordStream.ofSources (paths.map store.source)).take size

variable {options : SurveyOptions} {store : FileStore} {paths : List String} {record : Value}
  {size : ℤ}

/-! ### Records of files -/

lemma FileStore.isSound_of_mem_sample (h : record ∈ (store.sample paths size).values) :
    record.Clean ∧ record.Supported := by
  obtain ⟨fileRecord, hmem, rfl⟩ := List.mem_map.mp h
  obtain ⟨source, hsource, hvalue⟩ :=
    RecordStream.exists_source_of_mem (RecordStream.mem_of_mem_take hmem)
  obtain ⟨path, -, rfl⟩ := List.mem_map.mp hsource
  exact FileStore.isSound_of_mem_source hvalue

/-- A record of a file is refused exactly if it holds an integer that does not fit. -/
lemma FileStore.outOfRange_iff_of_mem_sample (h : record ∈ (store.sample paths size).values)
    (detection : Detection) : record.OutOfRange ↔
      ∃ literal path, classify detection recordPath record = .error (.outOfRange literal path) := by
  obtain ⟨hclean, hsupported⟩ := FileStore.isSound_of_mem_sample h
  exact outOfRange_iff hclean hsupported detection recordPath

lemma FileStore.not_outOfRange_iff_of_mem_sample (h : record ∈ (store.sample paths size).values)
    (detection : Detection) :
    ¬ record.OutOfRange ↔ ∃ node, classify detection recordPath record = .ok node := by
  rw [FileStore.outOfRange_iff_of_mem_sample h detection]
  constructor
  · intro hrange
    obtain ⟨hclean, hsupported⟩ := FileStore.isSound_of_mem_sample h
    cases hvalue : classify detection recordPath record with
    | ok node => exact ⟨node, rfl⟩
    | error failure =>
      obtain ⟨path, -, -, literal, -, -, -, -, rfl⟩ :=
        exists_outOfRange_of_classify hclean hsupported hvalue
      exact absurd ⟨literal, _, hvalue⟩ hrange
  · rintro ⟨node, hnode⟩ ⟨literal, path, hfailure⟩
    rw [hnode] at hfailure
    cases hfailure

/-! ### Nodes of a sample -/

/-- If records are skipped or all of them fit, every record of a sample adds a node. -/
lemma FileStore.exists_nodes_of_allowed
    (h : options.skipErrors = true ∨
      ∀ record ∈ (store.sample paths size).values, ¬ record.OutOfRange) :
    ∃ nodes, (store.sample paths size).values.mapM (recordNode options) = .ok nodes := by
  have hnode : ∀ record ∈ (store.sample paths size).values,
      ∃ node, recordNode options record = .ok node := by
    intro record hrecord
    by_cases hrange : record.OutOfRange
    · obtain ⟨literal, path, hfailure⟩ :=
        (FileStore.outOfRange_iff_of_mem_sample hrecord options.detection).mp hrange
      rcases h with lenient | hall
      · exact ⟨.void, recordNode_of_lenient lenient hfailure⟩
      · exact absurd hrange (hall record hrecord)
    · obtain ⟨node, hnode⟩ :=
        (FileStore.not_outOfRange_iff_of_mem_sample hrecord options.detection).mp hrange
      exact ⟨node, recordNode_of_ok hnode⟩
  obtain ⟨nodes, hnodes⟩ := exists_forall₂ hnode
  exact ⟨nodes, mapM_eq_ok_iff.mpr hnodes⟩

/-- If records are not skipped, the first one with an integer that does not fit is refused. -/
lemma FileStore.exists_refusal (strict : options.skipErrors = false)
    (h : ∃ record ∈ (store.sample paths size).values, record.OutOfRange) :
    ∃ before record after literal path,
      (store.sample paths size).values = before ++ record :: after ∧
      (∀ other ∈ before, ¬ other.OutOfRange) ∧ record.OutOfRange ∧
      classify options.detection recordPath record = .error (.outOfRange literal path) ∧
      (store.sample paths size).values.mapM (recordNode options) =
        .error (.outOfRange literal path) := by
  obtain ⟨refused, hmem, hrange⟩ := h
  obtain ⟨literal, path, hrefused⟩ :=
    (FileStore.outOfRange_iff_of_mem_sample hmem options.detection).mp hrange
  cases hnodes : (store.sample paths size).values.mapM (recordNode options) with
  | ok nodes =>
    obtain ⟨node, -, hnode⟩ := exists_of_mem_left (mapM_eq_ok_iff.mp hnodes) hmem
    rw [recordNode_of_strict strict, hrefused] at hnode
    cases hnode
  | error failure =>
    obtain ⟨before, record, after, split, hbefore, hfailure⟩ := mapM_eq_error_iff.mp hnodes
    have hin : ∀ other ∈ before ++ record :: after, other ∈ (store.sample paths size).values :=
      fun other hother => split ▸ hother
    have hrecord := hin record (by simp)
    obtain ⟨hclean, hsupported⟩ := FileStore.isSound_of_mem_sample hrecord
    rw [recordNode_of_strict strict] at hfailure
    obtain ⟨path, -, -, literal, -, -, -, -, rfl⟩ :=
      exists_outOfRange_of_classify hclean hsupported hfailure
    refine ⟨before, record, after, literal, _, split, fun other hother => ?_,
      (FileStore.outOfRange_iff_of_mem_sample hrecord options.detection).mpr ⟨_, _, hfailure⟩,
      hfailure, rfl⟩
    obtain ⟨node, hnode⟩ := hbefore other hother
    rw [recordNode_of_strict strict] at hnode
    exact (FileStore.not_outOfRange_iff_of_mem_sample (hin other (List.mem_append_left _ hother))
      options.detection).mpr ⟨node, hnode⟩

/-! ### Surveys with one job -/

/-- One job surveys a sample in order. -/
lemma survey_eq_surveyInOrder (hjobs : options.jobs ≤ 1) (hsample : options.sampleSize ≤ maxSample)
    {sources : List Source} (hsources : sources ≠ []) :
    survey options sources = surveyInOrder options sources := by
  have hempty : ¬ sources.isEmpty = true := by
    rwa [List.isEmpty_iff]
  unfold survey
  rw [if_neg hempty, if_neg fun h => absurd h.1 (not_lt.mpr hjobs),
    if_neg fun h => absurd h.1 (not_lt.mpr hjobs), if_neg (not_lt.mpr hsample)]

/-- The survey of files with one job finds the nodes of their sample. -/
theorem survey_report (hjobs : options.jobs ≤ 1) (hsample : options.sampleSize ≤ maxSample)
    (store : FileStore) {paths : List String} (hpaths : paths ≠ []) :
    (survey options (paths.map store.source)).result =
      ((store.sample paths options.sampleSize).nodes options).map .ofNodes ∧
    ∀ findings, (survey options (paths.map store.source)).result = .ok findings →
      LogTells options.detection (store.sample paths options.sampleSize).records
        (survey options (paths.map store.source)).log := by
  have hne : paths.map store.source ≠ [] := fun h => hpaths (List.map_eq_nil_iff.mp h)
  rw [survey_eq_surveyInOrder hjobs hsample hne]
  exact surveyInOrder_report options (paths.map store.source)

/-- Streaming, sampling and skipping are exact.  Unless records are skipped, the first record of the
sample with a number out of range decides.  Otherwise it is the failure that is met before the
sample is complete.  Otherwise the records of the sample are counted, and the schema is inferred from
those that can be classified; each of the others is remarked on.  What is beyond the sample, and in
which files its records stand, makes no difference to the result. -/
theorem survey_stream (options : SurveyOptions) (store : FileStore) (paths : List String)
    (hpaths : paths ≠ []) (hjobs : options.jobs = 1) (hsample : options.sampleSize ≤ maxSample) :
    (options.skipErrors = false →
      (∃ record ∈ (store.sample paths options.sampleSize).values, record.OutOfRange) →
      ∃ before record after literal path,
        (store.sample paths options.sampleSize).values = before ++ record :: after ∧
        (∀ other ∈ before, ¬ other.OutOfRange) ∧ record.OutOfRange ∧
        classify options.detection recordPath record = .error (.outOfRange literal path) ∧
        (survey options (paths.map store.source)).result = .error (.outOfRange literal path)) ∧
    ((options.skipErrors = true ∨
        ∀ record ∈ (store.sample paths options.sampleSize).values, ¬ record.OutOfRange) →
      (∀ failure, (store.sample paths options.sampleSize).failure? = some failure →
        (survey options (paths.map store.source)).result = .error failure) ∧
      ((store.sample paths options.sampleSize).failure? = none → ∃ node,
        Node.infer options.detection
          (kept options.detection (store.sample paths options.sampleSize).values) = .ok node ∧
        (survey options (paths.map store.source)).result =
          .ok ⟨(store.sample paths options.sampleSize).values.length, node⟩ ∧
        LogTells options.detection (store.sample paths options.sampleSize).records
          (survey options (paths.map store.source)).log)) ∧
    ∀ (store' : FileStore) (paths' : List String), paths' ≠ [] →
      (store'.sample paths' options.sampleSize).values =
        (store.sample paths options.sampleSize).values →
      (store'.sample paths' options.sampleSize).failure? =
        (store.sample paths options.sampleSize).failure? →
      (survey options (paths'.map store'.source)).result =
        (survey options (paths.map store.source)).result := by
  obtain ⟨hresult, hlog⟩ := survey_report hjobs.le hsample store hpaths
  refine ⟨?_, ?_, ?_⟩
  · intro strict hrange
    obtain ⟨before, record, after, literal, path, split, hbefore, hrecord, hrefusal, hnodes⟩ :=
      FileStore.exists_refusal strict hrange
    refine ⟨before, record, after, literal, path, split, hbefore, hrecord, hrefusal, ?_⟩
    rw [hresult, RecordStream.nodes_of_refusal hnodes]
    rfl
  · intro hallowed
    obtain ⟨nodes, hnodes⟩ := FileStore.exists_nodes_of_allowed hallowed
    constructor
    · intro failure hfailure
      rw [hresult, RecordStream.nodes_of_some hnodes hfailure]
      rfl
    · intro hended
      have hok : (survey options (paths.map store.source)).result = .ok (.ofNodes nodes) := by
        rw [hresult, RecordStream.nodes_of_none hnodes hended]
        rfl
      have hlength := (mapM_eq_ok_iff.mp hnodes).length_eq
      refine ⟨Node.mergeAll nodes, infer_kept hnodes, ?_, hlog _ hok⟩
      rw [hok, Findings.ofNodes, hlength]
  · intro store' paths' hpaths' hvalues hfailure
    rw [hresult, (survey_report hjobs.le hsample store' hpaths').1, RecordStream.nodes,
      RecordStream.nodes, hvalues, hfailure]

/-- The second record of a sample of three is skipped, and the second file goes wrong after the
sample. -/
theorem survey_stream_of_skipped_record : ∃ node,
    (survey { sampleSize := 3, skipErrors := true } (["a.json", "b.json"].map (FileStore.source
      { files := [(["", "a.json"], .plain (Utf8.ofString "1 9223372036854775808")),
        (["", "b.json"], .plain (Utf8.ofString "\"x\" [2"))] }))).result = .ok ⟨3, node⟩ ∧
    warnings (survey { sampleSize := 3, skipErrors := true } (["a.json", "b.json"].map
      (FileStore.source
        { files := [(["", "a.json"], .plain (Utf8.ofString "1 9223372036854775808")),
          (["", "b.json"], .plain (Utf8.ofString "\"x\" [2"))] }))).log =
      [⟨.warning, "Skipping record 2 from a.json: Integer literal 9223372036854775808 is " ++
        "outside the 64-bit signed range (context: root)"⟩] := by
  obtain ⟨-, hallowed, -⟩ := survey_stream { sampleSize := 3, skipErrors := true }
    { files := [(["", "a.json"], .plain (Utf8.ofString "1 9223372036854775808")),
      (["", "b.json"], .plain (Utf8.ofString "\"x\" [2"))] }
    ["a.json", "b.json"] (by decide) rfl (by decide)
  obtain ⟨node, -, hresult, htells⟩ := (hallowed (Or.inl rfl)).2 (by decide +kernel)
  have hcount : (FileStore.sample
      { files := [(["", "a.json"], .plain (Utf8.ofString "1 9223372036854775808")),
        (["", "b.json"], .plain (Utf8.ofString "\"x\" [2"))] }
      ["a.json", "b.json"] 3).values.length = 3 := by decide +kernel
  refine ⟨node, ?_, ?_⟩
  · exact hresult.trans (congrArg (fun count => Except.ok (Findings.mk count node)) hcount)
  · rw [htells.warnings]
    decide +kernel

/-- A sample size that no count can reach is refused, although the only record can be classified. -/
theorem survey_refuses_sample :
    (∀ record ∈ (FileStore.sample { files := [(["", "a.json"], .plain (Utf8.ofString "1"))] }
      ["a.json"] 9223372036854775808).values, ¬ record.OutOfRange) ∧
    (FileStore.sample { files := [(["", "a.json"], .plain (Utf8.ofString "1"))] }
      ["a.json"] 9223372036854775808).failure? = none ∧
    (survey { sampleSize := 9223372036854775808 } (["a.json"].map
      (FileStore.source { files := [(["", "a.json"], .plain (Utf8.ofString "1"))] }))).result =
        .error .sampleTooLarge := by
  refine ⟨fun record hrecord => ?_, by decide +kernel, rfl⟩
  have hall : (FileStore.sample { files := [(["", "a.json"], .plain (Utf8.ofString "1"))] }
      ["a.json"] 9223372036854775808).values.all (Value.classifies {}) = true := by
    decide +kernel
  rw [FileStore.not_outOfRange_iff_of_mem_sample hrecord {}]
  exact exists_node_of_classifies (List.all_eq_true.mp hall record hrecord)

end RecordSchema
