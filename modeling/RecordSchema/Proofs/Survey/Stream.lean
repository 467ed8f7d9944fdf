import RecordSchema.Survey
import RecordSchema.Proofs.Inference.Classified

/-!
# Records as a stream

The records of several sources make one stream, which ends with the first failure to read.  Each
record adds a node, an absent one if it is skipped, and a stream fails with the first failure of its
records or the one that ends it (`RecordStream.nodes`).  Where one source ends and the next one
begins does not matter to the nodes (`RecordStream.nodes_ofSources`).
-/

namespace RecordSchema

/-- A record, with the name of the source that it comes from. -/
structure FileRecord where
  file : String
  value : Value

/-- Records in order, and the failure that ends them, if one does. -/
structure RecordStream where
  records : List FileRecord
  failure? : Option Failure

/-- The records of a source. -/
def Source.stream (source : Source) : RecordStream :=
  ⟨source.records.map (FileRecord.mk source.name), source.failure?⟩

namespace RecordStream

/-- The records without the names of their sources. -/
def values (stream : RecordStream) : List Value := stream.records.map FileRecord.value

/-- One stream and, unless it fails, another one after it. -/
def append (stream more : RecordStream) : RecordStream :=
  match stream.failure? with
  | some _ => stream
  | none => ⟨stream.records ++ more.records, more.failure?⟩

/-- The records of sources in order, up to the first failure. -/
def ofSources (sources : List Source) : RecordStream :=
  sources.foldr (fun source rest => source.stream.append rest) ⟨[], none⟩

/-- The part of a stream that belongs to a sample of this size; all of it if the size is not
positive.  A failure after as many records does not belong to the sample. -/
def take (stream : RecordStream) (size : ℤ) : RecordStream :=
  if 0 < size ∧ size ≤ stream.records.length then ⟨stream.records.take size.toNat, none⟩ else stream

variable {stream more other : RecordStream}

/-! ### Streams one after the other -/

lemma append_of_none (h : stream.failure? = none) :
    stream.append more = ⟨stream.records ++ more.records, more.failure?⟩ := by
  rw [append, h]

lemma append_of_some {failure : Failure} (h : stream.failure? = some failure) :
    stream.append more = stream := by
  rw [append, h]

lemma exists_records_append (stream more : RecordStream) :
    ∃ rest, (stream.append more).records = stream.records ++ rest := by
  cases h : stream.failure? with
  | none => exact ⟨more.records, by rw [append_of_none h]⟩
  | some failure => exact ⟨[], by rw [append_of_some h, List.append_nil]⟩

lemma append_assoc : (stream.append more).append other = stream.append (more.append other) := by
  cases h : stream.failure? with
  | some failure => rw [append_of_some h, append_of_some h, append_of_some h]
  | none =>
    rw [append_of_none h, append_of_none h]
    cases h' : more.failure? with
    | some failure => rw [append_of_some h', append_of_some rfl, h']
    | none =>
      rw [append_of_none h', append_of_none rfl]
      simp only [List.append_assoc]

lemma append_nil (stream : RecordStream) : stream.append ⟨[], none⟩ = stream := by
  obtain ⟨records, _ | failure⟩ := stream
  · rw [append_of_none rfl, List.append_nil]
  · rfl

lemma ofSources_cons (source : Source) (sources : List Source) :
    ofSources (source :: sources) = source.stream.append (ofSources sources) := rfl

/-- The records of sources are records of one of them. -/
lemma exists_source_of_mem {sources : List Source} {record : FileRecord}
    (h : record ∈ (ofSources sources).records) : ∃ source ∈ sources, record.value ∈ source.records := by
  induction sources with
  | nil => cases h
  | cons source sources ih =>
    have hrecords : record ∈ source.stream.records ∨ record ∈ (ofSources sources).records := by
      rw [ofSources_cons] at h
      cases hfailure : source.stream.failure? with
      | some failure =>
        rw [append_of_some hfailure] at h
        exact Or.inl h
      | none =>
        rw [append_of_none hfailure] at h
        exact List.mem_append.mp h
    rcases hrecords with hrecord | hrecord
    · obtain ⟨value, hvalue, rfl⟩ := List.mem_map.mp hrecord
      exact ⟨source, List.mem_cons_self, hvalue⟩
    · obtain ⟨other, hother, hvalue⟩ := ih hrecord
      exact ⟨other, List.mem_cons_of_mem _ hother, hvalue⟩

/-! ### Samples -/

section Samples

variable {seen rest : List FileRecord} {size : ℤ}

lemma take_of_nonpos (h : size ≤ 0) : stream.take size = stream :=
  if_neg fun hfull => absurd hfull.1 (not_lt.mpr h)

/-- A stream that the sample has room for. -/
lemma take_of_room (h : 0 < size → stream.records.length < size) : stream.take size = stream := by
  refine if_neg fun hfull => ?_
  have hlt := h hfull.1
  omega

/-- A sample that is complete. -/
lemma take_of_full (split : stream.records = seen ++ rest) (hpos : 0 < size)
    (hlength : (seen.length : ℤ) = size) : stream.take size = ⟨seen, none⟩ := by
  have hnat : size.toNat = seen.length := by omega
  have hfull : 0 < size ∧ size ≤ stream.records.length := by
    rw [split, List.length_append]
    omega
  rw [take, if_pos hfull, split, hnat, List.take_left]

/-- A stream without a failure, up to its last record. -/
lemma take_of_within (h : 0 < size → stream.records.length ≤ size) (ended : stream.failure? = none) :
    stream.take size = stream := by
  by_cases hroom : 0 < size → stream.records.length < size
  · exact take_of_room hroom
  · obtain ⟨hpos, hge⟩ := Classical.not_imp.mp hroom
    have hlength : (stream.records.length : ℤ) = size := le_antisymm (h hpos) (not_lt.mp hge)
    obtain ⟨records, _⟩ := stream
    subst ended
    exact take_of_full (List.append_nil records).symm hpos hlength

/-- A sample in which one more record has its place. -/
lemma exists_take_of_room {record : FileRecord} (split : stream.records = seen ++ record :: rest)
    (h : 0 < size → seen.length < size) :
    ∃ rest', (stream.take size).records = seen ++ record :: rest' := by
  unfold take
  split
  · next hfull =>
    have hlength := h hfull.1
    obtain ⟨k, hk⟩ : ∃ k, size.toNat = seen.length + (k + 1) := by
      refine ⟨size.toNat - seen.length - 1, ?_⟩
      omega
    refine ⟨rest.take k, ?_⟩
    rw [split, hk, List.take_length_add_append, List.take_succ_cons]
  · exact ⟨rest, split⟩

lemma mem_of_mem_take {record : FileRecord} (h : record ∈ (stream.take size).records) :
    record ∈ stream.records := by
  unfold take at h
  split at h
  · exact List.mem_of_mem_take h
  · exact h

end Samples

end RecordStream

/-! ### What records and sources add -/

/-- The node that a record adds, an absent one if the record is skipped. -/
def recordNode (options : SurveyOptions) (record : Value) : Except Failure Node :=
  match classify options.detection recordPath record with
  | .ok node => .ok node
  | .error failure =>
    match options.skipErrors, failure with
    | true, .outOfRange _ _ => .ok .void
    | _, _ => .error failure

/-- The nodes that the records of a source add. -/
def Source.nodes (options : SurveyOptions) (source : Source) : Except Failure (List Node) := do
  let nodes ← source.records.mapM (recordNode options)
  match source.failure? with
  | none => return nodes
  | some failure => .error failure

/-- The nodes that the records of a stream add. -/
def RecordStream.nodes (options : SurveyOptions) (stream : RecordStream) :
    Except Failure (List Node) := do
  let nodes ← stream.values.mapM (recordNode options)
  match stream.failure? with
  | none => return nodes
  | some failure => .error failure

/-- What records amount to. -/
def Findings.ofNodes (nodes : List Node) : Findings := ⟨nodes.length, Node.mergeAll nodes⟩

section Records

variable {options : SurveyOptions} {record : Value}

lemma recordNode_of_ok {node : Node} (h : classify options.detection recordPath record = .ok node) :
    recordNode options record = .ok node := by
  rw [recordNode, h]

lemma recordNode_of_strict (strict : options.skipErrors = false) :
    recordNode options record = classify options.detection recordPath record := by
  rw [recordNode, strict]
  cases classify options.detection recordPath record <;> rfl

lemma recordNode_of_lenient (lenient : options.skipErrors = true) {literal : Literal} {path : String}
    (h : classify options.detection recordPath record = .error (.outOfRange literal path)) :
    recordNode options record = .ok .void := by
  rw [recordNode, h, lenient]

/-- What a record fails with is what its classification fails with. -/
lemma classify_of_recordNode_error {failure : Failure} (h : recordNode options record = .error failure) :
    classify options.detection recordPath record = .error failure := by
  unfold recordNode at h
  split at h
  · cases h
  · next hrefused =>
    split at h
    · cases h
    · cases h
      exact hrefused

/-- The node that a clean record adds is a schema. -/
lemma isSchema_of_recordNode (hclean : record.Clean) {node : Node}
    (h : recordNode options record = .ok node) : node.IsSchema := by
  unfold recordNode at h
  cases hnode : classify options.detection recordPath record with
  | ok classified =>
    rw [hnode] at h
    cases h
    exact Or.inr (recorded_of_classify hclean hnode).canonical
  | error failure =>
    rw [hnode] at h
    dsimp only at h
    split at h
    · cases h
      exact Or.inl rfl
    · cases h

/-- The nodes of a source with clean records are schemas. -/
lemma isSchema_of_mem_nodes {source : Source} (hclean : ∀ record ∈ source.records, record.Clean)
    {nodes : List Node} (h : source.nodes options = .ok nodes) : ∀ node ∈ nodes, node.IsSchema := by
  unfold Source.nodes at h
  obtain ⟨found, hfound, h⟩ := bind_eq_ok_iff.mp h
  have heq : found = nodes := by
    split at h
    · cases h
      rfl
    · cases h
  subst heq
  intro node hnode
  obtain ⟨record, hrecord, hok⟩ := exists_of_mem_right (mapM_eq_ok_iff.mp hfound) hnode
  exact isSchema_of_recordNode (hclean record hrecord) hok

end Records

namespace RecordStream

variable {options : SurveyOptions} {stream more : RecordStream}

lemma nodes_of_none {nodes : List Node} (h : stream.values.mapM (recordNode options) = .ok nodes)
    (ended : stream.failure? = none) : stream.nodes options = .ok nodes := by
  rw [RecordStream.nodes, h, ended]
  rfl

lemma nodes_of_some {nodes : List Node} (h : stream.values.mapM (recordNode options) = .ok nodes)
    {failure : Failure} (broken : stream.failure? = some failure) :
    stream.nodes options = .error failure := by
  rw [RecordStream.nodes, h, broken]
  rfl

lemma nodes_of_refusal {failure : Failure}
    (h : stream.values.mapM (recordNode options) = .error failure) :
    stream.nodes options = .error failure := by
  rw [RecordStream.nodes, h]
  rfl

lemma values_stream (source : Source) : source.stream.values = source.records := by
  rw [values, Source.stream, List.map_map]
  exact List.map_id source.records

lemma nodes_stream (source : Source) : source.stream.nodes options = source.nodes options := by
  rw [RecordStream.nodes, values_stream]
  rfl

lemma nodes_append : (stream.append more).nodes options = do
    let first ← stream.nodes options
    let second ← more.nodes options
    return first ++ second := by
  cases h : stream.failure? with
  | some failure =>
    rw [append_of_some h, RecordStream.nodes, h]
    cases stream.values.mapM (recordNode options) <;> rfl
  | none =>
    have hvalues : (⟨stream.records ++ more.records, more.failure?⟩ : RecordStream).values =
        stream.values ++ more.values := List.map_append
    rw [append_of_none h, RecordStream.nodes, RecordStream.nodes, RecordStream.nodes, h, hvalues,
      List.mapM_append]
    cases stream.values.mapM (recordNode options) with
    | error failure => rfl
    | ok nodes =>
      cases more.values.mapM (recordNode options) with
      | error failure => rfl
      | ok others => cases more.failure? <;> rfl

/-- The nodes of a stream are those of its sources. -/
theorem nodes_ofSources (sources : List Source) : (ofSources sources).nodes options =
    (sources.mapM (Source.nodes options)).map List.flatten := by
  induction sources with
  | nil => rfl
  | cons source sources ih =>
    rw [ofSources_cons, nodes_append, nodes_stream, ih, List.mapM_cons]
    cases source.nodes options with
    | error failure => rfl
    | ok nodes => cases sources.mapM (Source.nodes options) <;> rfl

end RecordStream

/-! ### Records that cannot be classified -/

/-- The record can be classified. -/
def Value.classifies (detection : Detection) (record : Value) : Bool :=
  (classify detection recordPath record).isOk

/-- The records that can be classified. -/
def kept (detection : Detection) (records : List Value) : List Value :=
  records.filter (Value.classifies detection)

/-- How many records cannot be classified. -/
def refusals (detection : Detection) (records : List FileRecord) : ℕ :=
  records.countP fun record => !record.value.classifies detection

/-- The remark on a record that cannot be classified, which gives its number and its file. -/
def FileRecord.skipRemark? (detection : Detection) (number : ℕ) (record : FileRecord) :
    Option LogEntry :=
  match classify detection recordPath record.value with
  | .ok _ => none
  | .error failure => some ⟨.warning,
      "Skipping record " ++ toString number ++ " from " ++ record.file ++ ": " ++ failure.message⟩

/-- The remarks on records, which are counted from one. -/
def skipRemarks (detection : Detection) (records : List FileRecord) : List LogEntry :=
  (records.zipIdx 1).filterMap fun numbered => numbered.1.skipRemark? detection numbered.2

/-- The remark on the totals. -/
def totals (detection : Detection) (records : List FileRecord) : LogEntry :=
  ⟨.info, toString records.length ++ " records read, " ++
    toString (refusals detection records) ++ " skipped"⟩

/-- The warnings of a log. -/
def warnings (log : List LogEntry) : List LogEntry :=
  log.filter fun entry => decide (entry.level = .warning)

section Refusals

variable {options : SurveyOptions} {detection : Detection} {value : Value}

lemma classifies_of_ok {node : Node} (h : classify detection recordPath value = .ok node) :
    value.classifies detection = true := by
  rw [Value.classifies, h]
  rfl

lemma classifies_of_error {failure : Failure}
    (h : classify detection recordPath value = .error failure) :
    value.classifies detection = false := by
  rw [Value.classifies, h]
  rfl

lemma exists_node_of_classifies (h : value.classifies detection = true) :
    ∃ node, classify detection recordPath value = .ok node := by
  cases hvalue : classify detection recordPath value with
  | ok node => exact ⟨node, rfl⟩
  | error failure =>
    rw [classifies_of_error hvalue] at h
    cases h

lemma refusals_append (detection : Detection) (seen : List FileRecord) (record : FileRecord) :
    refusals detection (seen ++ [record]) =
      refusals detection seen + (if record.value.classifies detection then 0 else 1) := by
  rw [refusals, List.countP_append, List.countP_singleton, refusals]
  cases record.value.classifies detection <;> rfl

lemma skipRemarks_append (detection : Detection) (seen : List FileRecord) (record : FileRecord) :
    skipRemarks detection (seen ++ [record]) =
      skipRemarks detection seen ++ (record.skipRemark? detection (seen.length + 1)).toList := by
  rw [skipRemarks, List.zipIdx_append, List.filterMap_append, Nat.add_comm 1]
  cases h : record.skipRemark? detection (seen.length + 1) <;> simp [skipRemarks, h]

lemma warnings_append (log more : List LogEntry) :
    warnings (log ++ more) = warnings log ++ warnings more :=
  List.filter_append _ _

/-- Records that are skipped leave the schema as it was. -/
theorem infer_kept {records : List Value} {nodes : List Node}
    (h : records.mapM (recordNode options) = .ok nodes) :
    Node.infer options.detection (kept options.detection records) = .ok (Node.mergeAll nodes) := by
  have hnodes := mapM_eq_ok_iff.mp h
  have hfold : ∀ start : Node, (kept options.detection records).foldlM
      (Node.fold options.detection) start = .ok (nodes.foldl Node.merge start) := by
    clear h
    induction hnodes with
    | nil => exact fun start => rfl
    | @cons record node records nodes hrecord _ ih =>
      intro start
      cases hvalue : classify options.detection recordPath record with
      | ok classified =>
        rw [recordNode_of_ok hvalue] at hrecord
        cases hrecord
        rw [kept, List.filter_cons_of_pos (classifies_of_ok hvalue), List.foldlM_cons, Node.fold,
          hvalue]
        exact ih (start.merge node)
      | error failure =>
        have hvoid : node = .void := by
          rw [recordNode, hvalue] at hrecord
          dsimp only at hrecord
          split at hrecord
          · cases hrecord
            rfl
          · cases hrecord
        subst hvoid
        rw [kept, List.filter_cons_of_neg (by simp [classifies_of_error hvalue]), List.foldl_cons,
          Node.merge_void_right]
        exact ih start
  exact hfold .void

end Refusals

end RecordSchema
