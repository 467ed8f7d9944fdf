import RecordSchema.Proofs.Survey.Sampling

/-!
# Files joined to one

Two files, with whitespace between them, make one file of the same records.  Whitespace ends the
last text of the first file, so that no number at the seam goes on, and what follows is read as it
is read in the second file: the grammar says so about texts (`TextsUpTo.append`) and about a string
that is cut off at the end (`Unfinished.append`).  Only a first file that is itself cut off within a
string is another matter, since the string goes on in the second one.

Surveys do not see in which files the records of their sample stand, so a survey of the two files
and one of the joined file come to the same result (`survey_joined`).  It is a count with a schema or
the refusal of a record, unless no count can reach the size of the sample
(`survey_joined_refuses_sample`).
-/

namespace RecordSchema

namespace Json

variable {bytes more gap last : List UInt8} {values others : List Value}

/-! ### Texts one after the other -/

/-- Whitespace ends the last text. -/
lemma TextsUpTo.append_gap (h : TextsUpTo bytes values last) (hgap : Gap gap) (hne : gap ≠ []) :
    TextsUpTo (bytes ++ gap) values [] := by
  induction gap generalizing bytes last with
  | nil => exact absurd rfl hne
  | cons b gap ih =>
    obtain ⟨hb, hrest⟩ := List.forall_mem_cons.mp hgap
    have hbytes : bytes ++ b :: gap = bytes ++ [b] ++ gap := by simp
    rw [hbytes]
    by_cases hlast : gap = []
    · subst hlast
      rw [List.append_nil]
      exact h.blank hb
    · exact ih (h.blank hb) hrest hlast

/-- Texts of which the last one has ended, and further texts. -/
lemma TextsUpTo.append (h : TextsUpTo bytes values []) (h' : TextsUpTo more others last) :
    TextsUpTo (bytes ++ more) (values ++ others) last := by
  induction h' with
  | nil => rwa [List.append_nil, List.append_nil]
  | blank _ hb ih =>
    rw [← List.append_assoc]
    exact ih.blank hb
  | text _ spelled apart ih =>
    rw [← List.append_assoc, ← List.append_assoc]
    exact ih.text spelled apart

/-- Texts of which the last one has ended, and texts with an unfinished string after them. -/
lemma Unfinished.append (h : TextsUpTo bytes values []) (h' : Unfinished more others) :
    Unfinished (bytes ++ more) (values ++ others) := by
  obtain ⟨front, raw, rfl, hform, hothers, last, htexts⟩ := h'
  exact ⟨bytes ++ front, raw, (List.append_assoc _ _ _).symm, hform,
    List.append_ne_nil_of_right_ne_nil _ hothers, last, h.append htexts⟩

/-- Inputs with whitespace between them are read one after the other, unless the first one ends
within a string. -/
theorem read_joined (h : read bytes = ⟨values, none⟩) (h' : read more = ⟨others, none⟩)
    (hfinished : ∀ values, ¬ Unfinished bytes values) (hgap : Gap gap) (hne : gap ≠ []) :
    read (bytes ++ gap ++ more) = ⟨values ++ others, none⟩ := by
  obtain ⟨last, htexts⟩ := (read_eq_iff.mp h).resolve_right (hfinished values)
  have hended := htexts.append_gap hgap hne
  refine read_eq_iff.mpr ((read_eq_iff.mp h').imp ?_ ?_)
  · rintro ⟨last', htexts'⟩
    exact ⟨last', hended.append htexts'⟩
  · exact Unfinished.append hended

end Json

/-! ### Samples of records that can be read -/

namespace RecordStream

variable {stream other : RecordStream} {sources : List Source}

lemma failure?_ofSources (h : ∀ source ∈ sources, source.failure? = none) :
    (ofSources sources).failure? = none := by
  induction sources with
  | nil => rfl
  | cons source sources ih =>
    obtain ⟨hsource, hrest⟩ := List.forall_mem_cons.mp h
    rw [ofSources_cons, append_of_none hsource]
    exact ih hrest

/-- Sources without failures come one after the other. -/
lemma values_ofSources (h : ∀ source ∈ sources, source.failure? = none) :
    (ofSources sources).values = (sources.map Source.records).flatten := by
  induction sources with
  | nil => rfl
  | cons source sources ih =>
    obtain ⟨hsource, hrest⟩ := List.forall_mem_cons.mp h
    rw [ofSources_cons, append_of_none hsource, List.map_cons, List.flatten_cons, ← ih hrest,
      ← values_stream source]
    exact List.map_append

/-- A sample depends on the records and not on their files. -/
lemma values_take_congr (h : stream.values = other.values) (size : ℤ) :
    (stream.take size).values = (other.take size).values := by
  have hlength : stream.records.length = other.records.length := by
    have hvalues := congrArg List.length h
    rwa [values, values, List.length_map, List.length_map] at hvalues
  unfold take
  rw [hlength]
  split
  · rw [values, values, List.map_take, List.map_take]
    exact congrArg (List.take size.toNat) h
  · exact h

lemma failure?_take (ended : stream.failure? = none) (size : ℤ) :
    (stream.take size).failure? = none := by
  unfold take
  split
  · rfl
  · exact ended

/-- The nodes of a stream without a failure depend on the records only. -/
lemma nodes_take_congr (options : SurveyOptions) (h : stream.values = other.values)
    (ended : stream.failure? = none) (ended' : other.failure? = none) (size : ℤ) :
    (stream.take size).nodes options = (other.take size).nodes options := by
  rw [RecordStream.nodes, RecordStream.nodes, values_take_congr h, failure?_take ended,
    failure?_take ended']

end RecordStream

/-! ### Surveys of files that can be read -/

section Surveys

variable {options : SurveyOptions} {store : FileStore} {paths paths' : List String}

/-- If all its records can be read, a sample has nodes, or one of its records is out of range. -/
lemma FileStore.nodes_sample_cases (options : SurveyOptions) {size : ℤ}
    (ended : (store.sample paths size).failure? = none) :
    (∃ nodes, (store.sample paths size).nodes options = .ok nodes) ∨
      ∃ literal path, (store.sample paths size).nodes options =
        .error (.outOfRange literal path) := by
  by_cases hallowed : options.skipErrors = true ∨
      ∀ record ∈ (store.sample paths size).values, ¬ record.OutOfRange
  · obtain ⟨nodes, hnodes⟩ := FileStore.exists_nodes_of_allowed hallowed
    exact Or.inl ⟨nodes, RecordStream.nodes_of_none hnodes ended⟩
  · simp only [not_or, not_forall, not_not, exists_prop, Bool.not_eq_true] at hallowed
    obtain ⟨-, -, -, literal, path, -, -, -, -, hrefused⟩ :=
      FileStore.exists_refusal hallowed.1 hallowed.2
    exact Or.inr ⟨literal, path, RecordStream.nodes_of_refusal hrefused⟩

/-- A sample size that no count can reach is refused before any source is looked at. -/
lemma survey_of_large_sample (hjobs : options.jobs ≤ 1) (hlarge : maxSample < options.sampleSize)
    (store : FileStore) (hpaths : paths ≠ []) :
    (survey options (paths.map store.source)).result = .error .sampleTooLarge := by
  have hempty : ¬ (paths.map store.source).isEmpty = true := by
    rwa [List.isEmpty_iff, List.map_eq_nil_iff]
  unfold survey
  rw [if_neg hempty, if_neg fun h => absurd h.1 (not_lt.mpr hjobs),
    if_neg fun h => absurd h.1 (not_lt.mpr hjobs), if_pos hlarge]

/-- Surveys of files that can be read depend on the records in them, one file after the other. -/
lemma survey_result_congr (hjobs : options.jobs ≤ 1) (hpaths : paths ≠ []) (hpaths' : paths' ≠ [])
    (hended : ∀ source ∈ paths.map store.source, source.failure? = none)
    (hended' : ∀ source ∈ paths'.map store.source, source.failure? = none)
    (hrecords : ((paths.map store.source).map Source.records).flatten =
      ((paths'.map store.source).map Source.records).flatten) :
    (survey options (paths.map store.source)).result =
      (survey options (paths'.map store.source)).result := by
  by_cases hsample : options.sampleSize ≤ maxSample
  · have hvalues : (RecordStream.ofSources (paths.map store.source)).values =
        (RecordStream.ofSources (paths'.map store.source)).values := by
      rw [RecordStream.values_ofSources hended, RecordStream.values_ofSources hended', hrecords]
    have hnodes := RecordStream.nodes_take_congr options hvalues
      (RecordStream.failure?_ofSources hended) (RecordStream.failure?_ofSources hended')
      options.sampleSize
    rw [(survey_report hjobs hsample store hpaths).1, (survey_report hjobs hsample store hpaths').1]
    exact congrArg (fun nodes => nodes.map Findings.ofNodes) hnodes
  · have hlarge := not_le.mp hsample
    rw [survey_of_large_sample hjobs hlarge store hpaths,
      survey_of_large_sample hjobs hlarge store hpaths']

/-- A survey of files that can be read succeeds, or refuses a record out of range. -/
lemma survey_result_cases (hjobs : options.jobs ≤ 1) (hsample : options.sampleSize ≤ maxSample)
    (hpaths : paths ≠ []) (hended : ∀ source ∈ paths.map store.source, source.failure? = none) :
    (∃ findings, (survey options (paths.map store.source)).result = .ok findings) ∨
      ∃ literal path,
        (survey options (paths.map store.source)).result = .error (.outOfRange literal path) := by
  rw [(survey_report hjobs hsample store hpaths).1]
  rcases FileStore.nodes_sample_cases options
    (RecordStream.failure?_take (RecordStream.failure?_ofSources hended) options.sampleSize)
    with ⟨nodes, hnodes⟩ | ⟨literal, path, hrefused⟩
  · exact Or.inl ⟨.ofNodes nodes, congrArg (fun nodes => nodes.map Findings.ofNodes) hnodes⟩
  · exact Or.inr ⟨literal, path, congrArg (fun nodes => nodes.map Findings.ofNodes) hrefused⟩

/-! ### Surveys of joined files -/

/-- An input that is read without a failure. -/
lemma Source.read_of_ofBytes {name : String} {bytes : List UInt8}
    (h : (Source.ofBytes name bytes).failure? = none) :
    Json.read bytes = ⟨(Source.ofBytes name bytes).records, none⟩ := by
  have hsource : Source.ofBytes name bytes = ⟨name, (Source.ofBytes name bytes).records, none⟩ := by
    rw [← h]
    rfl
  exact Source.ofBytes_eq_iff.mp hsource

/-- The file in which two files are joined by whitespace. -/
lemma FileStore.source_joined {first second joined : String} {bytes gap more : List UInt8}
    (hfirst : store.readFile first = .ok bytes) (hsecond : store.readFile second = .ok more)
    (hjoined : store.readFile joined = .ok (bytes ++ gap ++ more))
    (hgap : Json.Gap gap) (hne : gap ≠ []) (hended : (store.source first).failure? = none)
    (hended' : (store.source second).failure? = none)
    (hfinished : ∀ values, ¬ Json.Unfinished bytes values) :
    store.source joined =
      ⟨joined, (store.source first).records ++ (store.source second).records, none⟩ := by
  rw [store.source_of_readFile hjoined]
  rw [store.source_of_readFile hfirst] at hended ⊢
  rw [store.source_of_readFile hsecond] at hended' ⊢
  exact Source.ofBytes_eq_iff.mpr (Json.read_joined (Source.read_of_ofBytes hended)
    (Source.read_of_ofBytes hended') hfinished hgap hne)

end Surveys

/-- Two files that can be read and the file in which they are joined by whitespace have the same
records, and surveys of the two and of the one come to the same result.  This is the same count and
the same schema, or the same refusal of a record out of range, if the sample is of a size that can be
asked for.  The first file must not end within a string. -/
theorem survey_joined (options : SurveyOptions) (store : FileStore) (first second joined : String)
    (bytes gap more : List UInt8) (hjobs : options.jobs ≤ 1)
    (hfirst : store.readFile first = .ok bytes) (hsecond : store.readFile second = .ok more)
    (hjoined : store.readFile joined = .ok (bytes ++ gap ++ more))
    (hgap : Json.Gap gap) (hne : gap ≠ []) (hended : (store.source first).failure? = none)
    (hended' : (store.source second).failure? = none)
    (hfinished : ∀ values, ¬ Json.Unfinished bytes values) :
    store.source joined =
      ⟨joined, (store.source first).records ++ (store.source second).records, none⟩ ∧
    (survey options ([joined].map store.source)).result =
      (survey options ([first, second].map store.source)).result ∧
    (options.sampleSize ≤ maxSample →
      (∃ findings, (survey options ([joined].map store.source)).result = .ok findings) ∨
        ∃ literal path, (survey options ([joined].map store.source)).result =
          .error (.outOfRange literal path)) := by
  have hsource :=
    FileStore.source_joined hfirst hsecond hjoined hgap hne hended hended' hfinished
  have hone : ∀ source ∈ [joined].map store.source, source.failure? = none :=
    List.forall_mem_singleton.mpr (by rw [hsource])
  have htwo : ∀ source ∈ [first, second].map store.source, source.failure? = none :=
    List.forall_mem_cons.mpr ⟨hended, List.forall_mem_singleton.mpr hended'⟩
  refine ⟨hsource, ?_,
    fun hsample => survey_result_cases hjobs hsample (List.cons_ne_nil _ _) hone⟩
  refine survey_result_congr hjobs (List.cons_ne_nil _ _) (List.cons_ne_nil _ _) hone htwo ?_
  simp [hsource]

/-- A file whose bytes hold no quote does not end within a string. -/
lemma Json.not_unfinished_of_notMem {bytes : List UInt8} (h : 0x22 ∉ bytes) (values : List Value) :
    ¬ Unfinished bytes values := by
  rintro ⟨front, raw, hbytes, -⟩
  exact h (by simp [hbytes])

/-- A number on either side of the seam, a record out of range that is skipped, and a string that is
cut off at the end of the second file. -/
theorem survey_joined_numbers : ∃ (store : FileStore) (findings : Findings),
    store.readFile "a.json" = .ok (Utf8.ofString "12") ∧
    store.readFile "b.json" = .ok (Utf8.ofString "34 9223372036854775808 true \"x") ∧
    store.readFile "c.json" = .ok (Utf8.ofString "12\n34 9223372036854775808 true \"x") ∧
    (survey { sampleSize := 3, skipErrors := true } (["c.json"].map store.source)).result =
      .ok findings ∧
    (survey { sampleSize := 3, skipErrors := true } (["a.json", "b.json"].map store.source)).result =
      .ok findings := by
  let store : FileStore := { files :=
    [(["", "a.json"], .plain (Utf8.ofString "12")),
      (["", "b.json"], .plain (Utf8.ofString "34 9223372036854775808 true \"x")),
      (["", "c.json"], .plain (Utf8.ofString "12\n34 9223372036854775808 true \"x"))] }
  have hgap : Json.Gap (Utf8.ofString "\n") := by
    show ∀ b ∈ Utf8.ofString "\n", _
    decide +kernel
  obtain ⟨-, hsame, hcases⟩ := survey_joined { sampleSize := 3, skipErrors := true } store
    "a.json" "b.json" "c.json" (Utf8.ofString "12") (Utf8.ofString "\n")
    (Utf8.ofString "34 9223372036854775808 true \"x") (by decide) (by decide +kernel)
    (by decide +kernel) (by decide +kernel) hgap (by decide +kernel) (by decide +kernel)
    (by decide +kernel) (Json.not_unfinished_of_notMem (by decide +kernel))
  have hok : (survey { sampleSize := 3, skipErrors := true }
      (["c.json"].map store.source)).result.isOk = true := by decide +kernel
  rcases hcases (by decide) with ⟨findings, hfindings⟩ | ⟨literal, path, hrefused⟩
  · exact ⟨store, findings, by decide +kernel, by decide +kernel, by decide +kernel, hfindings,
      hsame.symm.trans hfindings⟩
  · rw [hrefused] at hok
    cases hok

/-- With a sample that no count can reach, two files and the file in which they are joined come to
no schema, and to no refusal of a record either, although all of them can be read. -/
theorem survey_joined_refuses_sample : ∃ store : FileStore,
    store.readFile "a.json" = .ok (Utf8.ofString "1") ∧
    store.readFile "b.json" = .ok (Utf8.ofString "2") ∧
    store.readFile "c.json" = .ok (Utf8.ofString "1" ++ Utf8.ofString "\n" ++ Utf8.ofString "2") ∧
    (store.source "a.json").failure? = none ∧ (store.source "b.json").failure? = none ∧
    (∀ values, ¬ Json.Unfinished (Utf8.ofString "1") values) ∧
    ¬ ((∃ findings,
        (survey { sampleSize := 9223372036854775808 } (["c.json"].map store.source)).result =
          .ok findings ∧
        (survey { sampleSize := 9223372036854775808 }
          (["a.json", "b.json"].map store.source)).result = .ok findings) ∨
      ∃ literal path,
        (survey { sampleSize := 9223372036854775808 } (["c.json"].map store.source)).result =
          .error (.outOfRange literal path) ∧
        (survey { sampleSize := 9223372036854775808 }
          (["a.json", "b.json"].map store.source)).result =
            .error (.outOfRange literal path)) := by
  refine ⟨{ files := [(["", "a.json"], .plain (Utf8.ofString "1")),
      (["", "b.json"], .plain (Utf8.ofString "2")),
      (["", "c.json"], .plain (Utf8.ofString "1\n2"))] },
    by decide +kernel, by decide +kernel, by decide +kernel, by decide +kernel, by decide +kernel,
    Json.not_unfinished_of_notMem (by decide +kernel), ?_⟩
  rw [survey_of_large_sample (by decide) (by decide) _ (List.cons_ne_nil _ _)]
  rintro (⟨findings, h, -⟩ | ⟨literal, path, h, -⟩)
  · cases h
  · cases h

end RecordSchema
