import RecordSchema.Proofs.Survey.Stream

/-!
# Surveys in order

A survey in order goes along the stream of its sources.  What it has found after some records is
determined by these records alone (`Progress`).  Each record and each source keeps this, and they
tell why a survey halts (`Ends`): the stream is over or has failed, the sample is complete, or a
record is refused.

So what a survey finds are the nodes of its sample, whatever comes after it and wherever one source
ends and the next one begins, and the remarks it makes tell which records were skipped
(`surveyInOrder_report`).  Without a limit on the sample these are the nodes of all sources
(`surveyInOrder_result`).
-/

namespace RecordSchema

variable {options : SurveyOptions}

/-! ### What a survey has found after some records -/

/-- The tally of a survey that has taken these records. -/
structure Progress (options : SurveyOptions) (seen : List FileRecord) (t : Tally) : Prop where
  read : t.read = seen.length
  skipped : t.skipped = refusals options.detection seen
  nodes : ∃ nodes, (seen.map FileRecord.value).mapM (recordNode options) = .ok nodes ∧
    Node.mergeAll nodes = t.node
  remarks : warnings t.log.reverse = skipRemarks options.detection seen
  within : 0 < options.sampleSize → t.read ≤ options.sampleSize

section Steps

variable {seen : List FileRecord} {t : Tally} {file : String} {value : Value}

lemma progress_nil : Progress options [] {} where
  read := rfl
  skipped := rfl
  nodes := ⟨[], rfl, rfl⟩
  remarks := rfl
  within := le_of_lt

/-- Remarks for information are no warnings. -/
lemma Progress.note (h : Progress options seen t) (text : String) :
    Progress options seen (t.note .info text) where
  read := h.read
  skipped := h.skipped
  nodes := h.nodes
  remarks := by
    show warnings ((⟨.info, text⟩ :: t.log).reverse) = _
    rw [List.reverse_cons, warnings_append, h.remarks]
    exact List.append_nil _
  within := h.within

lemma Progress.not_isFull_iff (h : Progress options seen t) :
    t.isFull options = false ↔ (0 < options.sampleSize → seen.length < options.sampleSize) := by
  rw [Tally.isFull, h.read, Bool.and_eq_false_imp, decide_eq_true_iff]
  simp only [decide_eq_false_iff_not, not_le]

/-- There is room for one more record. -/
lemma Progress.within_succ (h : Progress options seen t) (room : t.isFull options = false) :
    0 < options.sampleSize → ((t.read + 1 : ℕ) : ℤ) ≤ options.sampleSize := by
  intro hpos
  have hlt := h.not_isFull_iff.mp room hpos
  rw [← h.read] at hlt
  omega

/-- One more node. -/
lemma Progress.nodes_concat (h : Progress options seen t) (record : FileRecord) {node : Node}
    (hnode : recordNode options record.value = .ok node) : ∃ nodes,
      ((seen ++ [record]).map FileRecord.value).mapM (recordNode options) = .ok nodes ∧
        Node.mergeAll nodes = t.node.merge node := by
  obtain ⟨nodes, hnodes, hmerge⟩ := h.nodes
  refine ⟨nodes ++ [node], ?_, ?_⟩
  · rw [List.map_append]
    exact mapM_concat_eq_ok hnodes hnode
  · rw [Node.mergeAll, List.foldl_append, ← hmerge]
    rfl

/-- A record that can be classified adds to the node. -/
lemma Progress.take (h : Progress options seen t) (room : t.isFull options = false) {node : Node}
    (hnode : classify options.detection recordPath value = .ok node) :
    Progress options (seen ++ [⟨file, value⟩])
      { t with read := t.read + 1, node := t.node.merge node } where
  read := by
    rw [List.length_append, ← h.read]
    rfl
  skipped := by
    rw [refusals_append, if_pos (classifies_of_ok hnode)]
    exact h.skipped
  nodes := h.nodes_concat ⟨file, value⟩ (recordNode_of_ok hnode)
  remarks := by
    have hremark : FileRecord.skipRemark? options.detection (seen.length + 1) ⟨file, value⟩ =
        none := by
      rw [FileRecord.skipRemark?, hnode]
    rw [skipRemarks_append, hremark]
    exact h.remarks.trans (List.append_nil _).symm
  within := h.within_succ room

/-- A record that is skipped is counted and remarked on. -/
lemma Progress.skip (h : Progress options seen t) (room : t.isFull options = false)
    {failure : Failure} (hfailure : classify options.detection recordPath value = .error failure)
    (hskip : recordNode options value = .ok .void) :
    Progress options (seen ++ [⟨file, value⟩])
      (Tally.note { t with read := t.read + 1, skipped := t.skipped + 1 } .warning
        ("Skipping record " ++ toString (t.read + 1) ++ " from " ++ file ++ ": " ++
          failure.message)) where
  read := by
    rw [List.length_append, ← h.read]
    rfl
  skipped := by
    rw [refusals_append, if_neg (by simp [classifies_of_error hfailure]), ← h.skipped]
    rfl
  nodes := by
    have hnodes := h.nodes_concat ⟨file, value⟩ hskip
    rwa [Node.merge_void_right] at hnodes
  remarks := by
    have hremark : FileRecord.skipRemark? options.detection (t.read + 1) ⟨file, value⟩ =
        some ⟨.warning, "Skipping record " ++ toString (t.read + 1) ++ " from " ++ file ++ ": " ++
          failure.message⟩ := by
      rw [FileRecord.skipRemark?, hfailure]
    rw [skipRemarks_append, ← h.read, hremark, ← h.remarks]
    show warnings ((_ :: t.log).reverse) = _
    rw [List.reverse_cons, warnings_append]
    rfl
  within := h.within_succ room

end Steps

/-! ### Why a survey halts -/

/-- How the survey of a stream goes on or halts. -/
inductive Ends (options : SurveyOptions) (stream : RecordStream) : Except Halt Tally → Prop
  | whole {t : Tally} (progress : Progress options stream.records t)
      (ended : stream.failure? = none) : Ends options stream (.ok t)
  | sampled {seen rest : List FileRecord} {t : Tally} (split : stream.records = seen ++ rest)
      (progress : Progress options seen t) (full : t.isFull options = true) :
      Ends options stream (.error (.sampled t))
  | refused {seen rest : List FileRecord} {record : FileRecord} {t t' : Tally} {failure : Failure}
      (split : stream.records = seen ++ record :: rest) (progress : Progress options seen t)
      (room : t.isFull options = false)
      (refusal : recordNode options record.value = .error failure) :
      Ends options stream (.error (.failed failure t'))
  | broken {t : Tally} {failure : Failure} (progress : Progress options stream.records t)
      (room : t.isFull options = false) (broken : stream.failure? = some failure) :
      Ends options stream (.error (.failed failure t))

/-- One part of a stream after the other. -/
lemma Ends.bind {stream more : RecordStream} {taken : Except Halt Tally}
    (h : Ends options stream taken) {next : Tally → Except Halt Tally}
    (hnext : ∀ t, Progress options stream.records t → stream.failure? = none →
      Ends options (stream.append more) (next t)) :
    Ends options (stream.append more) (taken >>= next) := by
  obtain ⟨rest', hrecords⟩ := stream.exists_records_append more
  cases h with
  | whole progress ended => exact hnext _ progress ended
  | @sampled seen rest t split progress full =>
    have hsplit : (stream.append more).records = seen ++ (rest ++ rest') := by
      rw [hrecords, split, List.append_assoc]
    exact .sampled hsplit progress full
  | @refused seen rest record t t' failure split progress room refusal =>
    have hsplit : (stream.append more).records = seen ++ record :: (rest ++ rest') := by
      rw [hrecords, split, List.append_assoc, List.cons_append]
    exact .refused hsplit progress room refusal
  | broken progress room broken =>
    rw [RecordStream.append_of_some broken]
    exact .broken progress room broken

section Runs

variable {seen : List FileRecord} {t : Tally}

lemma unlessFull_of_room (room : t.isFull options = false) : t.unlessFull options = .ok t := by
  rw [Tally.unlessFull, room]
  rfl

lemma unlessFull_of_full (full : t.isFull options = true) :
    t.unlessFull options = .error (.sampled t) := by
  rw [Tally.unlessFull, full]
  rfl

/-- One more record. -/
theorem ends_takeRecord (h : Progress options seen t) (file : String) (value : Value) :
    Ends options ⟨seen ++ [⟨file, value⟩], none⟩ (t.takeRecord options file value) := by
  unfold Tally.takeRecord Node.fold
  cases room : t.isFull options with
  | true =>
    rw [unlessFull_of_full room]
    exact .sampled rfl h room
  | false =>
    rw [unlessFull_of_room room]
    cases hvalue : classify options.detection recordPath value with
    | ok node => exact .whole (h.take room hvalue) rfl
    | error failure =>
      cases hskip : options.skipErrors with
      | false => exact .refused rfl h room ((recordNode_of_strict hskip).trans hvalue)
      | true =>
        -- only numbers out of range are skipped
        cases failure with
        | outOfRange => exact .whole (h.skip room hvalue (recordNode_of_lenient hskip hvalue)) rfl
        | _ => exact .refused rfl h room (by rw [recordNode, hvalue, hskip])

/-- The records of a source. -/
theorem ends_takeRecords (h : Progress options seen t) (file : String) (values : List Value) :
    Ends options ⟨seen ++ values.map (FileRecord.mk file), none⟩
      (values.foldlM (Tally.takeRecord options file) t) := by
  induction values generalizing seen t with
  | nil =>
    rw [List.map_nil, List.append_nil]
    exact .whole h rfl
  | cons value values ih =>
    have hbind : Ends options (RecordStream.append ⟨seen ++ [⟨file, value⟩], none⟩
        ⟨values.map (FileRecord.mk file), none⟩) (t.takeRecord options file value >>= fun next =>
          values.foldlM (Tally.takeRecord options file) next) :=
      (ends_takeRecord h file value).bind fun next hnext _ => ih hnext
    rw [RecordStream.append_of_none rfl, List.append_assoc] at hbind
    rw [List.foldlM_cons]
    exact hbind

/-- A source. -/
theorem ends_takeSource (h : Progress options seen t) (source : Source) :
    Ends options (RecordStream.append ⟨seen, none⟩ source.stream) (t.takeSource options source) := by
  unfold Tally.takeSource
  cases room : t.isFull options with
  | true =>
    rw [unlessFull_of_full room]
    exact .sampled rfl h room
  | false =>
    rw [unlessFull_of_room room]
    have hrecords := ends_takeRecords (h.note ("Reading " ++ source.name)) source.name source.records
    have hstream : RecordStream.append ⟨seen, none⟩ source.stream =
        RecordStream.append ⟨seen ++ source.records.map (FileRecord.mk source.name), none⟩
          ⟨[], source.failure?⟩ := by
      rw [RecordStream.append_of_none rfl, RecordStream.append_of_none rfl, List.append_nil]
      rfl
    rw [hstream]
    refine hrecords.bind fun next hnext _ => ?_
    rw [RecordStream.append_of_none rfl, List.append_nil]
    cases hfailure : source.failure? with
    | none => exact .whole hnext rfl
    | some failure =>
      show Ends options _ (next.unlessFull options >>= _)
      cases room : next.isFull options with
      | true =>
        rw [unlessFull_of_full room]
        exact .sampled (List.append_nil _).symm hnext room
      | false =>
        rw [unlessFull_of_room room]
        exact .broken hnext room rfl

/-- All sources. -/
theorem ends_takeSources (h : Progress options seen t) (sources : List Source) :
    Ends options (RecordStream.append ⟨seen, none⟩ (.ofSources sources))
      (sources.foldlM (Tally.takeSource options) t) := by
  induction sources generalizing seen t with
  | nil =>
    rw [RecordStream.ofSources, List.foldr_nil, RecordStream.append_nil]
    exact .whole h rfl
  | cons source sources ih =>
    rw [RecordStream.ofSources_cons, ← RecordStream.append_assoc, List.foldlM_cons]
    refine (ends_takeSource h source).bind fun next hnext hended => ?_
    generalize RecordStream.append ⟨seen, none⟩ source.stream = taken at hnext hended ⊢
    obtain ⟨records, _⟩ := taken
    subst hended
    exact ih hnext

end Runs

/-! ### What a survey reports -/

/-- The log of a survey that succeeds tells which records were skipped, and how many. -/
structure LogTells (detection : Detection) (records : List FileRecord) (log : List LogEntry) :
    Prop where
  warnings : warnings log = skipRemarks detection records
  totals : log.getLast? = some (totals detection records)

/-- The sample has these nodes, and the survey tells so. -/
lemma Progress.conclude {stream : RecordStream} {t : Tally} (h : Progress options stream.records t)
    (ended : stream.failure? = none) :
    t.conclude.result = (stream.nodes options).map Findings.ofNodes ∧
      LogTells options.detection stream.records t.conclude.log := by
  obtain ⟨nodes, hnodes, hmerge⟩ := h.nodes
  constructor
  · have hlength := (mapM_eq_ok_iff.mp hnodes).length_eq
    rw [RecordStream.nodes_of_none hnodes ended]
    show Except.ok (Findings.mk t.read t.node) = .ok (.ofNodes nodes)
    rw [Findings.ofNodes, hmerge, h.read, ← hlength, List.length_map]
  · have hlog : t.conclude.log = t.log.reverse ++ [totals options.detection stream.records] := by
      rw [totals, ← h.read, ← h.skipped, ← List.reverse_cons]
      rfl
    refine ⟨?_, ?_⟩
    · rw [hlog, warnings_append, h.remarks]
      exact List.append_nil _
    · rw [hlog, List.getLast?_concat]

/-- What a survey reports at its end, whatever this is. -/
lemma Ends.report {stream : RecordStream} {taken : Except Halt Tally}
    (h : Ends options stream taken) :
    (∃ t, (taken = .ok t ∨ taken = .error (.sampled t)) ∧
      t.conclude.result = ((stream.take options.sampleSize).nodes options).map Findings.ofNodes ∧
      LogTells options.detection (stream.take options.sampleSize).records t.conclude.log) ∨
    ∃ failure t, taken = .error (.failed failure t) ∧
      (stream.take options.sampleSize).nodes options = .error failure := by
  cases h with
  | @whole t progress ended =>
    have hwithin : 0 < options.sampleSize → (stream.records.length : ℤ) ≤ options.sampleSize := by
      rw [← progress.read]
      exact progress.within
    rw [RecordStream.take_of_within hwithin ended]
    exact Or.inl ⟨t, Or.inl rfl, progress.conclude ended⟩
  | @sampled seen rest t split progress full =>
    obtain ⟨hpos, hle⟩ : 0 < options.sampleSize ∧ options.sampleSize ≤ t.read := by
      simpa [Tally.isFull] using full
    have hlength : (seen.length : ℤ) = options.sampleSize := by
      rw [← progress.read]
      exact le_antisymm (progress.within hpos) hle
    have hprogress : Progress options (RecordStream.mk seen none).records t := progress
    rw [RecordStream.take_of_full split hpos hlength]
    exact Or.inl ⟨t, Or.inr rfl, hprogress.conclude rfl⟩
  | @refused seen rest record t t' failure split progress room refusal =>
    obtain ⟨rest', hrecords⟩ :=
      RecordStream.exists_take_of_room split (progress.not_isFull_iff.mp room)
    obtain ⟨nodes, hnodes, -⟩ := progress.nodes
    refine Or.inr ⟨failure, t', rfl, RecordStream.nodes_of_refusal (mapM_eq_error_iff.mpr ?_)⟩
    refine ⟨seen.map FileRecord.value, record.value, rest'.map FileRecord.value, ?_, ?_, refusal⟩
    · rw [RecordStream.values, hrecords, List.map_append, List.map_cons]
    · intro value hvalue
      obtain ⟨node, -, hnode⟩ := exists_of_mem_left (mapM_eq_ok_iff.mp hnodes) hvalue
      exact ⟨node, hnode⟩
  | @broken t failure progress room broken =>
    obtain ⟨nodes, hnodes, -⟩ := progress.nodes
    rw [RecordStream.take_of_room (progress.not_isFull_iff.mp room)]
    exact Or.inr ⟨failure, t, rfl, RecordStream.nodes_of_some hnodes broken⟩

/-- A survey finds the nodes of its sample, and its log tells which records were skipped. -/
theorem surveyInOrder_report (options : SurveyOptions) (sources : List Source) :
    (surveyInOrder options sources).result =
      (((RecordStream.ofSources sources).take options.sampleSize).nodes options).map .ofNodes ∧
    ∀ findings, (surveyInOrder options sources).result = .ok findings →
      LogTells options.detection ((RecordStream.ofSources sources).take options.sampleSize).records
        (surveyInOrder options sources).log := by
  have hends := ends_takeSources (progress_nil : Progress options [] {}) sources
  have hstream : RecordStream.append ⟨[], none⟩ (.ofSources sources) = .ofSources sources := rfl
  rw [hstream] at hends
  unfold surveyInOrder
  rcases hends.report with ⟨t, htaken | htaken, hresult, hlog⟩ | ⟨failure, t, htaken, hnodes⟩
  · rw [htaken]
    exact ⟨hresult, fun _ _ => hlog⟩
  · rw [htaken]
    exact ⟨hresult, fun _ _ => hlog⟩
  · rw [htaken, hnodes]
    refine ⟨rfl, fun findings h => ?_⟩
    cases h

/-- Surveying all records of all sources adds up their nodes. -/
theorem surveyInOrder_result (hsample : options.sampleSize ≤ 0) (sources : List Source) :
    (surveyInOrder options sources).result =
      (sources.mapM (Source.nodes options)).map fun parts => .ofNodes parts.flatten := by
  rw [(surveyInOrder_report options sources).1, RecordStream.take_of_nonpos hsample,
    RecordStream.nodes_ofSources]
  cases sources.mapM (Source.nodes options) <;> rfl

/-- A source by itself is surveyed by its nodes. -/
lemma surveyInOrder_singleton (hsample : options.sampleSize ≤ 0) (source : Source) :
    (surveyInOrder options [source]).result = (source.nodes options).map .ofNodes := by
  rw [surveyInOrder_result hsample, List.mapM_cons, List.mapM_nil]
  cases source.nodes options with
  | error failure => rfl
  | ok nodes =>
    show Except.ok (Findings.ofNodes [nodes].flatten) = .ok (.ofNodes nodes)
    rw [List.flatten_singleton]

end RecordSchema
