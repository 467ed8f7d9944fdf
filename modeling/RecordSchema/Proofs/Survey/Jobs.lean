import RecordSchema.Proofs.Failures
import RecordSchema.Proofs.Inference.Range
import RecordSchema.Proofs.Json.Reading
import RecordSchema.Proofs.Node.Partition
import RecordSchema.Proofs.Survey.InOrder

/-!
# Surveys with several jobs

With several jobs, each source is surveyed by itself and the schemas of the sources are merged
afterwards.  Both ways find the nodes of the same records.  Merging is associative up to the signs
of zeros, and an absent schema changes nothing, so that it does not matter where one source ends and
the next one begins (`survey_jobs_agree`).

A failure is handed over as an error, which is built again on the other side.  It is still the failure
of the first source that fails, of the same class and about the same place and the same number, but
the message of a number out of range is wrapped once more (`survey_jobs_failure`), so it is not the
message of a survey in order (`survey_jobs_message_differs`).
-/

namespace RecordSchema

/-! ### What workers find -/

variable {options : SurveyOptions}

lemma surveyByWorker_eq (options : SurveyOptions) (source : Source) :
    surveyByWorker options source =
      ((source.nodes options).map Findings.ofNodes).mapError Failure.relayed := by
  unfold surveyByWorker
  rw [surveyInOrder_singleton le_rfl]
  show _ = ((source.nodes { options with sampleSize := 0 }).map Findings.ofNodes).mapError _
  cases source.nodes { options with sampleSize := 0 } <;> rfl

lemma mapM_surveyByWorker (options : SurveyOptions) (sources : List Source) :
    sources.mapM (surveyByWorker options) =
      ((sources.mapM (Source.nodes options)).map (List.map Findings.ofNodes)).mapError
        Failure.relayed := by
  induction sources with
  | nil => rfl
  | cons source sources ih =>
    rw [List.mapM_cons, List.mapM_cons, ih, surveyByWorker_eq]
    cases source.nodes options with
    | error failure => rfl
    | ok nodes => cases sources.mapM (Source.nodes options) <;> rfl

/-- The counts of workers are added up and their schemas are merged, and the first failure among
them is handed over. -/
theorem surveyByWorkers_result (options : SurveyOptions) (sources : List Source) :
    (surveyByWorkers options sources).result =
      ((sources.mapM (Source.nodes options)).map fun parts =>
        ⟨parts.flatten.length, Node.mergeAll (parts.map Node.mergeAll)⟩).mapError
          Failure.relayed := by
  have hcount : ∀ (parts : List Findings) (total : ℕ),
      parts.foldl (fun total part => total + part.count) total =
        total + (parts.map Findings.count).sum := by
    intro parts
    induction parts with
    | nil => exact fun total => rfl
    | cons part parts ih =>
      intro total
      rw [List.foldl_cons, ih, List.map_cons, List.sum_cons, Nat.add_assoc]
  unfold surveyByWorkers
  rw [mapM_surveyByWorker]
  cases sources.mapM (Source.nodes options) with
  | error failure => rfl
  | ok parts =>
    show Except.ok (Findings.mk _ _) = .ok ⟨_, _⟩
    rw [hcount, List.map_map, List.map_map, List.length_flatten, Nat.zero_add]
    rfl

/-! ### One job or several -/

/-- The failure of a survey, if it fails. -/
def Survey.failure? (found : Survey) : Option Failure :=
  match found.result with
  | .ok _ => none
  | .error failure => some failure

lemma Survey.failure?_eq_some_iff {found : Survey} {failure : Failure} :
    found.failure? = some failure ↔ found.result = .error failure := by
  unfold Survey.failure?
  cases found.result <;> simp

lemma Survey.failure?_eq_none_iff {found : Survey} :
    found.failure? = none ↔ ∃ findings, found.result = .ok findings := by
  unfold Survey.failure?
  cases found.result <;> simp

/-- Several jobs survey the sources by workers. -/
lemma survey_of_jobs (hjobs : 1 < options.jobs) (hsample : options.sampleSize ≤ 0)
    {sources : List Source} (hsources : 2 ≤ sources.length) :
    (survey options sources).result =
      ((sources.mapM (Source.nodes options)).map fun parts =>
        ⟨parts.flatten.length, Node.mergeAll (parts.map Node.mergeAll)⟩).mapError
          Failure.relayed := by
  have hempty : ¬ sources.isEmpty = true := by
    rw [List.isEmpty_iff_length_eq_zero]
    omega
  unfold survey
  rw [if_neg hempty, if_neg fun h => absurd h.2 (not_lt.mpr hsample), if_pos ⟨hjobs, hsources⟩]
  exact surveyByWorkers_result options sources

/-- One job surveys the sources in order. -/
lemma survey_of_one_job (hsample : options.sampleSize ≤ 0) {sources : List Source}
    (hsources : sources ≠ []) :
    (survey { options with jobs := 1 } sources).result =
      (sources.mapM (Source.nodes options)).map fun parts => .ofNodes parts.flatten := by
  have hempty : ¬ sources.isEmpty = true := by
    rwa [List.isEmpty_iff]
  have hmax : ¬ maxSample < options.sampleSize := by
    have hpos : 0 < maxSample := by decide
    omega
  unfold survey
  rw [if_neg hempty, if_neg fun h => absurd h.1 (lt_irrefl 1),
    if_neg fun h => absurd h.1 (lt_irrefl 1), if_neg hmax]
  exact surveyInOrder_result hsample sources

/-- The survey of a single source. -/
lemma survey_singleton (hsample : options.sampleSize ≤ 0) (source : Source) :
    (survey { options with jobs := 1 } [source]).result =
      (source.nodes options).map .ofNodes := by
  rw [survey_of_one_job hsample (List.cons_ne_nil _ _), ← surveyInOrder_result hsample,
    surveyInOrder_singleton hsample]

/-! ### Failures of files -/

section Firsthand

variable {store : FileStore} {path : String} {place : Place} {failure : Failure}

lemma FileStore.isFirsthand_of_walk {parts : List String}
    (h : store.walk path place parts = .error failure) : failure.IsFirsthand := by
  induction parts generalizing place with
  | nil => cases h
  | cons part parts ih =>
    unfold FileStore.walk at h
    split at h
    · exact ih h
    · cases h
      trivial
    · cases h
      trivial

lemma FileStore.isFirsthand_of_openFile (h : store.openFile path = .error failure) :
    failure.IsFirsthand := by
  rcases bind_eq_error_iff.mp h with h | ⟨place, -, h⟩
  · unfold FileStore.resolve at h
    split at h
    · cases h
      trivial
    · split at h
      · cases h
        trivial
      · exact FileStore.isFirsthand_of_walk h
  · split at h
    · cases h
    · cases h
      trivial
    · cases h
      trivial

lemma Content.isFirsthand_of_decompressed {content : Content}
    (h : content.decompressed.failure? = some failure) : failure.IsFirsthand := by
  unfold Content.decompressed at h
  split at h
  · cases h
  · cases h
    trivial
  · cases h
    trivial
  · cases h
  · split at h
    · cases h
      trivial
    · cases h
      trivial

lemma FileStore.isFirsthand_of_deliver (h : (store.deliver path).failure? = some failure) :
    failure.IsFirsthand := by
  unfold FileStore.deliver at h
  split at h
  · split at h
    · exact Content.isFirsthand_of_decompressed h
    · cases h
  · next hopen =>
    cases h
    exact FileStore.isFirsthand_of_openFile hopen

lemma Json.Defect.isFirsthand_toFailure (file : String) (records : ℕ) (defect : Json.Defect) :
    (defect.toFailure file records).IsFirsthand := by
  cases defect <;> trivial

/-- What ends the records of a file was not handed over by anything. -/
lemma FileStore.isFirsthand_of_source (h : (store.source path).failure? = some failure) :
    failure.IsFirsthand := by
  unfold FileStore.source Delivery.source at h
  split at h
  · rw [Source.ofBytes_eq, Option.map_eq_some_iff] at h
    obtain ⟨defect, -, rfl⟩ := h
    exact defect.isFirsthand_toFailure _ _
  · next found hfound =>
    rw [Source.ofPart_eq] at h
    cases hdefect : (Json.readPart (store.deliver path).bytes).defect? with
    | none =>
      rw [hdefect] at h
      cases h
      exact FileStore.isFirsthand_of_deliver hfound
    | some defect =>
      rw [hdefect] at h
      cases h
      exact defect.isFirsthand_toFailure _ _

/-- Nor was the refusal of a record. -/
lemma FileStore.isFirsthand_of_nodes (h : (store.source path).nodes options = .error failure) :
    failure.IsFirsthand := by
  rcases bind_eq_error_iff.mp h with hrecords | ⟨nodes, -, hended⟩
  · obtain ⟨before, record, after, hsplit, -, hrecord⟩ := mapM_eq_error_iff.mp hrecords
    have hmem : record ∈ (store.source path).records := by simp [hsplit]
    obtain ⟨hclean, hsupported⟩ := FileStore.isSound_of_mem_source hmem
    obtain ⟨path, part, n, literal, -, -, -, -, rfl⟩ :=
      exists_outOfRange_of_classify hclean hsupported (classify_of_recordNode_error hrecord)
    trivial
  · split at hended
    · cases hended
    · next found hfound =>
      cases hended
      exact FileStore.isFirsthand_of_source hfound

end Firsthand

/-! ### Successes and failures -/

/-- Several jobs find what one job finds: one succeeds if the other one does, the counts are the
same, and the schemas cannot be told apart. -/
theorem survey_jobs_agree (options : SurveyOptions) (store : FileStore) (paths : List String)
    (hjobs : 1 < options.jobs) (hsample : options.sampleSize ≤ 0) (hpaths : 2 ≤ paths.length) :
    ((∃ found, (survey options (paths.map store.source)).result = .ok found) ↔
      ∃ found, (survey { options with jobs := 1 } (paths.map store.source)).result = .ok found) ∧
    ∀ found found', (survey options (paths.map store.source)).result = .ok found →
      (survey { options with jobs := 1 } (paths.map store.source)).result = .ok found' →
        found.count = found'.count ∧ Node.Indistinguishable found.node found'.node := by
  have hsources : 2 ≤ (paths.map store.source).length := by rwa [List.length_map]
  have hne : paths.map store.source ≠ [] := List.ne_nil_of_length_pos (by omega)
  rw [survey_of_jobs hjobs hsample hsources, survey_of_one_job hsample hne]
  cases hnodes : (paths.map store.source).mapM (Source.nodes options) with
  | error failure =>
    constructor
    · constructor
      · rintro ⟨found, h⟩
        cases h
      · rintro ⟨found, h⟩
        cases h
    · rintro found found' h
      cases h
  | ok parts =>
    constructor
    · exact ⟨fun _ => ⟨_, rfl⟩, fun _ => ⟨_, rfl⟩⟩
    · rintro found found' h h'
      cases h
      cases h'
      refine ⟨rfl, Node.mergeAll_map_mergeAll_indistinguishable fun nodes hmem => ?_⟩
      obtain ⟨source, hsource, hok⟩ := exists_of_mem_right (mapM_eq_ok_iff.mp hnodes) hmem
      obtain ⟨path, -, rfl⟩ := List.mem_map.mp hsource
      exact isSchema_of_mem_nodes (fun record hrecord => store.clean_of_mem_source hrecord) hok

/-- A record of the first file is skipped, the second file is empty, and the third one is the first
one again. -/
theorem survey_jobs_agree_of_skipped_record : ∃ found found',
    (survey { jobs := 2, skipErrors := true } (["a.json", "b.json", "a.json"].map
      (FileStore.source { files :=
        [(["", "a.json"], .plain (Utf8.ofString "9223372036854775808 [1, -0.0, \"ff\"]")),
          (["", "b.json"], .plain [])] }))).result = .ok found ∧
    (survey { jobs := 1, skipErrors := true } (["a.json", "b.json", "a.json"].map
      (FileStore.source { files :=
        [(["", "a.json"], .plain (Utf8.ofString "9223372036854775808 [1, -0.0, \"ff\"]")),
          (["", "b.json"], .plain [])] }))).result = .ok found' ∧
    found.count = found'.count ∧ Node.Indistinguishable found.node found'.node := by
  obtain ⟨hsuccess, hagree⟩ := survey_jobs_agree { jobs := 2, skipErrors := true }
    { files := [(["", "a.json"], .plain (Utf8.ofString "9223372036854775808 [1, -0.0, \"ff\"]")),
      (["", "b.json"], .plain [])] }
    ["a.json", "b.json", "a.json"] (by decide) (by decide) (by decide)
  have hfailure : (survey { jobs := 2, skipErrors := true } (["a.json", "b.json", "a.json"].map
      (FileStore.source { files :=
        [(["", "a.json"], .plain (Utf8.ofString "9223372036854775808 [1, -0.0, \"ff\"]")),
          (["", "b.json"], .plain [])] }))).failure? = none := by decide +kernel
  obtain ⟨found, hfound⟩ := Survey.failure?_eq_none_iff.mp hfailure
  obtain ⟨found', hfound'⟩ := hsuccess.mp ⟨found, hfound⟩
  exact ⟨found, found', hfound, hfound', hagree found found' hfound hfound'⟩

/-- A survey with several jobs fails where a survey with one job fails.  The failure is that of the
first file that cannot be surveyed by itself, and its error has been built again: it is of the same
class, about the same place and the same number.  Only the message of a number out of range changes,
which is wrapped in another message of its kind. -/
theorem survey_jobs_failure (options : SurveyOptions) (store : FileStore) (paths : List String)
    (hjobs : 1 < options.jobs) (hsample : options.sampleSize ≤ 0) (hpaths : 2 ≤ paths.length)
    {failure : Failure}
    (h : (survey { options with jobs := 1 } (paths.map store.source)).failure? = some failure) :
    (survey options (paths.map store.source)).failure? = some failure.relayed ∧
      failure.relayed.error = failure.error.rebuilt ∧
      failure.relayed.error.kind = failure.error.kind ∧
      failure.relayed.error.attributes = failure.error.attributes ∧
      failure.relayed.context? = failure.context? ∧
      (failure.relayed = failure ∨ ∃ literal path,
        failure = .outOfRange literal path ∧ failure.relayed = .outOfRangeInWorker literal path ∧
          failure.relayed.message = Failure.rangeMessage failure.message) ∧
      ∃ before path after, paths = before ++ path :: after ∧
        (∀ other ∈ before,
          (survey { options with jobs := 1 } [store.source other]).failure? = none) ∧
        (survey { options with jobs := 1 } [store.source path]).failure? = some failure := by
  have hsources : 2 ≤ (paths.map store.source).length := by rwa [List.length_map]
  have hne : paths.map store.source ≠ [] := List.ne_nil_of_length_pos (by omega)
  rw [Survey.failure?_eq_some_iff, survey_of_one_job hsample hne] at h
  have hnodes : (paths.map store.source).mapM (Source.nodes options) = .error failure := by
    cases hfirst : (paths.map store.source).mapM (Source.nodes options) with
    | ok parts =>
      rw [hfirst] at h
      cases h
    | error first =>
      rw [hfirst] at h
      cases h
      rfl
  have hjoint : (survey options (paths.map store.source)).failure? = some failure.relayed := by
    rw [Survey.failure?_eq_some_iff, survey_of_jobs hjobs hsample hsources, hnodes]
    rfl
  rw [List.mapM_map] at hnodes
  obtain ⟨before, path, after, heq, hbefore, hpath⟩ := mapM_eq_error_iff.mp hnodes
  have hpath : (store.source path).nodes options = .error failure := hpath
  have hfirsthand := FileStore.isFirsthand_of_nodes hpath
  have hattributes : failure.relayed.error.attributes = failure.error.attributes := by
    rw [Failure.error_relayed hfirsthand, ErrorObject.attributes_rebuilt]
  refine ⟨hjoint, Failure.error_relayed hfirsthand, ?_, hattributes,
    congrArg ErrorAttributes.context? hattributes, Failure.relayed_cases hfirsthand,
    before, path, after, heq, fun other hother => ?_, ?_⟩
  · rw [Failure.error_relayed hfirsthand, ErrorObject.kind_rebuilt]
  · obtain ⟨nodes, hok⟩ : ∃ nodes, (store.source other).nodes options = .ok nodes :=
      hbefore other hother
    rw [Survey.failure?_eq_none_iff, survey_singleton hsample, hok]
    exact ⟨_, rfl⟩
  · rw [Survey.failure?_eq_some_iff, survey_singleton hsample, hpath]
    rfl

/-- The second of three files ends within a list, and the third one holds a number out of range: the
second one decides. -/
theorem survey_jobs_failure_of_second_file :
    (survey { jobs := 2 } (["a.json", "b.json", "c.json"].map (FileStore.source { files :=
      [(["", "a.json"], .plain (Utf8.ofString "1")), (["", "b.json"], .plain (Utf8.ofString "2 [3")),
        (["", "c.json"], .plain (Utf8.ofString "9223372036854775808"))] }))).failure? =
      some (.malformed 1 "b.json") := by
  obtain ⟨hfailure, -⟩ := survey_jobs_failure { jobs := 2 } { files :=
      [(["", "a.json"], .plain (Utf8.ofString "1")), (["", "b.json"], .plain (Utf8.ofString "2 [3")),
        (["", "c.json"], .plain (Utf8.ofString "9223372036854775808"))] }
    ["a.json", "b.json", "c.json"] (by decide) (by decide) (by decide)
    (show _ = some (Failure.malformed 1 "b.json") by decide +kernel)
  exact hfailure

/-- The message of a number out of range is not the one that a survey in order gives. -/
theorem survey_jobs_message_differs :
    (survey { jobs := 1 } (["a.json", "b.json"].map (FileStore.source { files :=
      [(["", "a.json"], .plain (Utf8.ofString "\x7b\"n\": 9223372036854775808\x7d")),
        (["", "b.json"], .plain (Utf8.ofString "1"))] }))).failure?.map Failure.message =
      some ("Integer literal 9223372036854775808 is outside the 64-bit signed range " ++
        "(context: root.n)") ∧
    (survey { jobs := 2 } (["a.json", "b.json"].map (FileStore.source { files :=
      [(["", "a.json"], .plain (Utf8.ofString "\x7b\"n\": 9223372036854775808\x7d")),
        (["", "b.json"], .plain (Utf8.ofString "1"))] }))).failure?.map Failure.message =
      some ("Integer literal Integer literal 9223372036854775808 is outside the 64-bit signed " ++
        "range (context: root.n) is outside the 64-bit signed range") := by
  constructor <;> decide +kernel

end RecordSchema
