import RecordSchema.Proofs.Survey.Sampling

/-!
# Damaged files

A compressed file that is cut off or damaged yields its data up to that place, so it has the first
records of the whole file before it fails.  A sample that is complete by then never comes to the
failure.  So the survey of such a sample is the survey of the whole file, and the files after it do
not matter either (`survey_of_damaged`).
-/

namespace RecordSchema

namespace RecordStream

variable {stream : RecordStream}

lemma records_isPrefix_append (stream more : RecordStream) :
    stream.records <+: (stream.append more).records := by
  obtain ⟨rest, h⟩ := exists_records_append stream more
  exact ⟨rest, h.symm⟩

/-- Records in front of the same stream. -/
lemma records_append_isPrefix {more other : RecordStream} (h : more.records <+: other.records) :
    (stream.append more).records <+: (stream.append other).records := by
  cases hended : stream.failure? with
  | some failure =>
    rw [append_of_some hended, append_of_some hended]
  | none =>
    rw [append_of_none hended, append_of_none hended]
    exact (List.prefix_append_right_inj _).mpr h

lemma ofSources_append (sources more : List Source) :
    ofSources (sources ++ more) = (ofSources sources).append (ofSources more) := by
  induction sources with
  | nil =>
    rw [List.nil_append]
    rfl
  | cons source sources ih =>
    rw [List.cons_append, ofSources_cons, ofSources_cons, ih, append_assoc]

/-- The records up to a source are the first ones of any sources in which its own ones are the first
at its place. -/
lemma records_ofSources_isPrefix {source other : Source} (sources after : List Source)
    (h : source.stream.records <+: other.stream.records) :
    (ofSources (sources ++ [source])).records <+: (ofSources (sources ++ other :: after)).records := by
  rw [ofSources_append, ofSources_append]
  refine records_append_isPrefix ?_
  rw [ofSources_cons, ofSources_cons]
  show (source.stream.append ⟨[], none⟩).records <+: _
  rw [append_nil]
  exact h.trans (records_isPrefix_append _ _)

/-- A sample that the first records of a stream fill. -/
lemma take_of_isPrefix {records : List FileRecord} {size : ℤ} (h : records <+: stream.records)
    (hpos : 0 < size) (hroom : size ≤ records.length) :
    stream.take size = ⟨records.take size.toNat, none⟩ := by
  obtain ⟨rest, hrest⟩ := h
  have hfull : 0 < size ∧ size ≤ stream.records.length := by
    rw [← hrest, List.length_append]
    omega
  rw [take, if_pos hfull, ← hrest, List.take_append_of_le_length (by omega)]

end RecordStream

section Damaged

variable {store whole : FileStore} {path : String} {bytes more : List UInt8} {failure : Failure}

/-- A file has the records that stand in what it delivers. -/
lemma FileStore.records_stream_isPrefix (hdamaged : store.deliver path = ⟨bytes, some failure⟩)
    (hwhole : whole.deliver path = ⟨bytes ++ more, none⟩) :
    (store.source path).stream.records <+: (whole.source path).stream.records := by
  rw [store.source_of_deliver_failing hdamaged, whole.source_of_deliver hwhole]
  exact (Source.records_ofPart_isPrefix path bytes more failure).map (FileRecord.mk path)

/-- What a file lacks behind the sample makes no difference.  If the files before it and the records
that it yields fill the sample, a survey finds what it would find if the file were whole. -/
theorem survey_of_damaged {options : SurveyOptions} {before : List String} (after : List String)
    (hjobs : options.jobs ≤ 1) (hpos : 0 < options.sampleSize)
    (hsample : options.sampleSize ≤ maxSample)
    (hbefore : ∀ other ∈ before, store.source other = whole.source other)
    (hdamaged : store.deliver path = ⟨bytes, some failure⟩)
    (hwhole : whole.deliver path = ⟨bytes ++ more, none⟩)
    (hroom : options.sampleSize ≤
      (RecordStream.ofSources ((before ++ [path]).map store.source)).records.length) :
    (survey options ((before ++ path :: after).map store.source)).result =
      (survey options ((before ++ path :: after).map whole.source)).result := by
  have hpaths : before ++ path :: after ≠ [] := List.append_ne_nil_of_right_ne_nil _ nofun
  have hsame : before.map store.source = before.map whole.source := List.map_congr_left hbefore
  have hstore : (RecordStream.ofSources ((before ++ [path]).map store.source)).records <+:
      (RecordStream.ofSources ((before ++ path :: after).map store.source)).records := by
    rw [List.map_append, List.map_append]
    exact RecordStream.records_ofSources_isPrefix _ _ (List.prefix_refl _)
  have hwhole : (RecordStream.ofSources ((before ++ [path]).map store.source)).records <+:
      (RecordStream.ofSources ((before ++ path :: after).map whole.source)).records := by
    rw [List.map_append, List.map_append, hsame]
    exact RecordStream.records_ofSources_isPrefix _ _
      (FileStore.records_stream_isPrefix hdamaged hwhole)
  have hsamples : store.sample (before ++ path :: after) options.sampleSize =
      whole.sample (before ++ path :: after) options.sampleSize := by
    rw [FileStore.sample, FileStore.sample, RecordStream.take_of_isPrefix hstore hpos hroom,
      RecordStream.take_of_isPrefix hwhole hpos hroom]
  rw [(survey_report hjobs hsample store hpaths).1, (survey_report hjobs hsample whole hpaths).1,
    hsamples]

end Damaged

end RecordSchema
