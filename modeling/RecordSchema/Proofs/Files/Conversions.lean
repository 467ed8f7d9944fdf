import RecordSchema.Proofs.Files.Writing
import RecordSchema.Proofs.Render.ReportParts
import RecordSchema.Proofs.Survey.Folded

/-!
# Conversions are all or nothing

Nothing is written before the report stands.  So a conversion that fails to read, to infer or to
render leaves the files as they were, and one that succeeds leaves the report in its file.  Once the
schema has been inferred, what remains to fail is a table that cannot be declared, and this depends
on the kinds of the folded records alone (`convert_all_or_nothing`).
-/

namespace RecordSchema

variable {options : SurveyOptions} {sources : List Source} {findings : Findings}
  {style : ReportStyle} {text : String} {failure : Failure} (path : String) (store : FileStore)

/-! ### What is left behind -/

lemma convert_of_failure (h : (survey options sources).report style = .error failure) :
    (convert options style sources path store).failure? = some failure ∧
      (convert options style sources path store).store = store := by
  unfold convert
  simp only [h, and_self]

lemma convert_of_report (h : (survey options sources).report style = .ok text) :
    (convert options style sources path store).failure? = (store.writeReport path text).2 ∧
      (convert options style sources path store).store = (store.writeReport path text).1 := by
  unfold convert
  simp only [h, and_self]

lemma report_of_findings (h : (survey options sources).result = .ok findings) :
    (survey options sources).report style = report style findings.count findings.node := by
  rw [Survey.report, h]
  rfl

/-! ### When a table can be declared -/

/-- The schema is neither absent nor a struct if something was folded that is no row of a table, or
if there are only nulls. -/
lemma no_table_iff (h : (survey options sources).result = .ok findings) :
    (findings.node.kind ≠ .void ∧ findings.node.kind ≠ .struct) ↔
      folded options sources ≠ [] ∧
        ((∃ record ∈ folded options sources, record ≠ .null ∧ ¬ record.IsObject) ∨
          ∀ record ∈ folded options sources, ¬ record.IsObject) := by
  obtain ⟨hvoid, hblank, hrow⟩ := kind_of_survey h
  rw [Ne, hvoid]
  refine and_congr_right fun hne => ?_
  rw [Ne, Kind.eq_struct_iff, hrow, hblank, not_and_or, not_not]
  constructor
  · rintro (hother | hnulls)
    · push Not at hother
      exact Or.inl hother
    · refine Or.inr fun record hrecord => ?_
      rw [hnulls record hrecord]
      simp [Value.IsObject]
  · rintro (⟨record, hrecord, hnull, hobject⟩ | hnone)
    · exact Or.inl fun hrows => (hrows record hrecord).elim hnull hobject
    · by_cases hrows : ∀ record ∈ folded options sources, record = .null ∨ record.IsObject
      · exact Or.inr fun record hrecord =>
          (hrows record hrecord).resolve_right (hnone record hrecord)
      · exact Or.inl hrows

/-- A conversion that fails before it writes leaves every file and every directory as it was.  Once
the survey has succeeded it fails just when a table is asked for, something was folded, and the
folded records are not all of them objects and nulls with an object among them; the failure then
tells the type.  Otherwise the report can be read at the path. -/
theorem convert_all_or_nothing (options : SurveyOptions) (style : ReportStyle)
    (sources : List Source) (path : String) (store : FileStore) :
    (∀ failure, (survey options sources).report style = .error failure →
      (convert options style sources path store).failure? = some failure ∧
        (convert options style sources path store).store = store) ∧
    ∀ findings, (survey options sources).result = .ok findings →
      ((∃ failure, report style findings.count findings.node = .error failure) ↔
        style.flat = false ∧ folded options sources ≠ [] ∧
          ((∃ record ∈ folded options sources, record ≠ .null ∧ ¬ record.IsObject) ∨
            ∀ record ∈ folded options sources, ¬ record.IsObject)) ∧
      (∀ failure, report style findings.count findings.node = .error failure →
        failure = .notATable findings.node.typeText ∧
          (convert options style sources path store).failure? = some failure) ∧
      ∀ text, report style findings.count findings.node = .ok text →
        (store.writeReport path text).2 = none →
        (convert options style sources path store).failure? = none ∧
          (convert options style sources path store).store.openFile path =
            .ok (.plain (Utf8.ofString text)) := by
  refine ⟨fun failure h => convert_of_failure path store h, fun findings h => ⟨?_, ?_, ?_⟩⟩
  · rw [← no_table_iff h]
    constructor
    · rintro ⟨failure, hreport⟩
      obtain ⟨hflat, hkind, -⟩ := report_eq_error_iff.mp hreport
      exact ⟨hflat, hkind⟩
    · rintro ⟨hflat, hkind⟩
      exact ⟨_, report_eq_error_iff.mpr ⟨hflat, hkind, rfl⟩⟩
  · intro failure hreport
    refine ⟨(report_eq_error_iff.mp hreport).2.2, (convert_of_failure path store ?_).1⟩
    rw [report_of_findings h, hreport]
  · intro text hreport hwritten
    have hsurveyed := (report_of_findings h).trans hreport
    obtain ⟨hfailure, hstore⟩ := convert_of_report path store hsurveyed
    rw [hfailure, hstore]
    exact ⟨hwritten, FileStore.openFile_writeReport hwritten⟩

/-- A null and a list make no table, so the directory of the output is not even made.  A record and
a null make one, and the file in the new directory holds it. -/
theorem convert_all_or_nothing_two_files :
    (convert {} {} (["a.json"].map (FileStore.source { files :=
        [(["", "a.json"], .plain (Utf8.ofString "null [1]"))] })) "d/out"
      { files := [(["", "a.json"], .plain (Utf8.ofString "null [1]"))] }).failure? =
        some (.notATable "array<tinyint>") ∧
    (convert {} {} (["a.json"].map (FileStore.source { files :=
        [(["", "a.json"], .plain (Utf8.ofString "null [1]"))] })) "d/out"
      { files := [(["", "a.json"], .plain (Utf8.ofString "null [1]"))] }).store =
        { files := [(["", "a.json"], .plain (Utf8.ofString "null [1]"))] } ∧
    (convert {} {} (["b.json"].map (FileStore.source { files :=
        [(["", "b.json"], .plain (Utf8.ofString "\x7b\"n\": 1\x7d null"))] })) "d/out" { files :=
        [(["", "b.json"], .plain (Utf8.ofString "\x7b\"n\": 1\x7d null"))] }).store.openFile
          "d/out" = .ok (.plain (Utf8.ofString
            "2 records read\n\ncreate table tbl (\n   n tinyint\n)\n")) := by
  obtain ⟨hnothing, -⟩ := convert_all_or_nothing {} {} (["a.json"].map (FileStore.source { files :=
      [(["", "a.json"], .plain (Utf8.ofString "null [1]"))] })) "d/out"
    { files := [(["", "a.json"], .plain (Utf8.ofString "null [1]"))] }
  obtain ⟨hfailure, hstore⟩ := hnothing (.notATable "array<tinyint>") (by decide +kernel)
  obtain ⟨-, hall⟩ := convert_all_or_nothing {} {} (["b.json"].map (FileStore.source { files :=
      [(["", "b.json"], .plain (Utf8.ofString "\x7b\"n\": 1\x7d null"))] })) "d/out"
    { files := [(["", "b.json"], .plain (Utf8.ofString "\x7b\"n\": 1\x7d null"))] }
  obtain ⟨findings, hfindings⟩ : ∃ findings, (survey {} (["b.json"].map (FileStore.source { files :=
      [(["", "b.json"], .plain (Utf8.ofString "\x7b\"n\": 1\x7d null"))] }))).result =
        .ok findings := Survey.failure?_eq_none_iff.mp (by decide +kernel)
  have hreport : (survey {} (["b.json"].map (FileStore.source { files :=
      [(["", "b.json"], .plain (Utf8.ofString "\x7b\"n\": 1\x7d null"))] }))).report {} =
        .ok "2 records read\n\ncreate table tbl (\n   n tinyint\n)\n" := by decide +kernel
  rw [report_of_findings hfindings] at hreport
  exact ⟨hfailure, hstore, ((hall findings hfindings).2.2 _ hreport (by decide +kernel)).2⟩

end RecordSchema
