import RecordSchema.Proofs.Files.Conversions
import RecordSchema.Proofs.Files.Hiding
import RecordSchema.Proofs.Text.Utf8

/-!
# Temporary files leave no trace

A run that goes about its work in files prints the same, fails with the same fault and leaves the
same files as one that does not need any (`workInFiles_eq`), as long as the files it makes for
itself stand at free places: where there is nothing, in directories that are there, and under names
that occur in no path that it is given.
-/

namespace RecordSchema

/-! ### Conversions -/

lemma convert_log (options : SurveyOptions) (style : ReportStyle) (sources : List Source)
    (path : String) (store : FileStore) :
    (convert options style sources path store).log = (survey options sources).log := by
  unfold convert
  cases hreport : (survey options sources).report style with
  | error failure => simp only [hreport]
  | ok text => simp only [hreport]

/-- A conversion comes to the same with hidden files and without. -/
lemma convert_hides {places : List Place} {full bare : FileStore} {path : String}
    (h : FileStore.Hides places full bare) (hapart : ∀ hidden ∈ places, bare.IsApart path hidden)
    (options : SurveyOptions) (style : ReportStyle) (sources : List Source) :
    (convert options style sources path full).failure? =
      (convert options style sources path bare).failure? ∧
    (convert options style sources path full).log =
      (convert options style sources path bare).log ∧
    (convert options style sources path full).store.remove places =
      (convert options style sources path bare).store := by
  rw [convert_log, convert_log]
  cases hreport : (survey options sources).report style with
  | error failure =>
    obtain ⟨hfailure, hstore⟩ := convert_of_failure path full hreport
    obtain ⟨hfailure', hstore'⟩ := convert_of_failure path bare hreport
    rw [hfailure, hstore, hfailure', hstore']
    exact ⟨rfl, rfl, h.remove_eq⟩
  | ok text =>
    obtain ⟨hfailure, hstore⟩ := convert_of_report path full hreport
    obtain ⟨hfailure', hstore'⟩ := convert_of_report path bare hreport
    obtain ⟨hhides, hsame⟩ := h.agree_writeReport hapart text
    rw [hfailure, hstore, hfailure', hstore']
    exact ⟨hsame, rfl, hhides.remove_eq⟩

namespace Program

variable {r : Request} {t : Temporaries} {around : Surroundings}

/-- The files that a run makes for itself can be made, are not the same, and are in the way of
nothing that the run is asked for. -/
structure Temporaries.IsFree (t : Temporaries) (r : Request) (store : FileStore) : Prop where
  ne : t.input ≠ t.output
  vacant : ∀ place ∈ [t.input, t.output], store.IsVacant place
  apart : ∀ place ∈ [t.input, t.output], ∀ path ∈ r.inputs ++ r.destination.paths,
    store.IsApart path place

/-- The places of the files that a run makes. -/
def Request.temporaryPlaces (r : Request) (t : Temporaries) (around : Surroundings) : List Place :=
  (r.temporaryFiles t around).map Prod.fst

/-- The store with the files that a run makes. -/
def Request.withFiles (r : Request) (t : Temporaries) (around : Surroundings) : FileStore :=
  (r.temporaryFiles t around).foldl (fun store (place, content) => store.put place content)
    around.store

lemma temporaryPlaces_subset : r.temporaryPlaces t around ⊆ [t.input, t.output] := by
  unfold Request.temporaryPlaces Request.temporaryFiles
  dsimp only
  cases r.destination <;> cases r.inputs.isEmpty <;> simp

lemma hides_withFiles (h : t.IsFree r around.store) :
    FileStore.Hides (r.temporaryPlaces t around) (r.withFiles t around) around.store := by
  have hself : FileStore.Hides (r.temporaryPlaces t around) around.store around.store :=
    FileStore.hides_self fun place hplace => h.vacant place (temporaryPlaces_subset hplace)
  refine List.foldlRecOn (motive := fun store =>
    FileStore.Hides (r.temporaryPlaces t around) store around.store) _ _ hself ?_
  intro store hstore file hfile
  exact hstore.put_hidden (List.mem_map_of_mem hfile)

lemma contentAt_put (store : FileStore) (place : Place) (content : Content) (name : String) :
    (store.put place content).contentAt place name = .ok content := by
  rw [FileStore.contentAt, FileStore.entryAt_put_self]

lemma contentAt_put_of_ne {store : FileStore} {place target : Place} {content other : Content}
    {name : String} (h : store.files.lookup place = some content) (hne : place ≠ target) :
    (store.put target other).contentAt place name = .ok content := by
  rw [FileStore.contentAt, FileStore.entryAt, FileStore.lookup_put_of_ne hne, h]

/-- The file of the input is there, whatever else is made. -/
lemma contentAt_input (h : t.IsFree r around.store) (hinputs : r.inputs.isEmpty = true) :
    (r.withFiles t around).contentAt t.input inputName =
      .ok (.plain (Utf8.ofString around.input)) := by
  unfold Request.withFiles Request.temporaryFiles
  rw [if_pos hinputs]
  cases r.destination with
  | output => exact contentAt_put_of_ne FileStore.lookup_put_self h.ne
  | file path => exact contentAt_put ..
  | unnamedFile => exact contentAt_put ..
  | unusable value => exact contentAt_put ..

/-- The input is read from its file as it stands. -/
lemma sourcesInFiles_eq (h : t.IsFree r around.store) :
    r.sourcesInFiles t (r.withFiles t around) = r.sources around := by
  unfold Request.sourcesInFiles Request.sources
  split_ifs with hinputs
  · rw [contentAt_input h hinputs]
    rfl
  · refine List.map_congr_left fun path hpath => ?_
    refine (hides_withFiles h).source_eq fun hidden hhidden => ?_
    exact h.apart hidden (temporaryPlaces_subset hhidden) path (List.mem_append_left _ hpath)

lemma printed_put (store : FileStore) (place : Place) (text : String) :
    printed (store.put place (.plain (Utf8.ofString text))) place = .ok (Newline.unified text) := by
  refine bind_eq_ok_iff.mpr ⟨.plain (Utf8.ofString text), ?_, ?_⟩
  · rw [contentAt_put]
    rfl
  · dsimp only [Content.stored]
    rw [Utf8.decode_ofString]
    rfl

/-- A run that makes files for itself comes to the same as one that does not need any. -/
theorem workInFiles_eq (h : t.IsFree r around.store) :
    r.workInFiles t around = r.work around := by
  have hhides := hides_withFiles h
  have hsources := sourcesInFiles_eq h
  have hapart : ∀ path ∈ r.destination.paths, ∀ hidden ∈ r.temporaryPlaces t around,
      around.store.IsApart path hidden := fun path hpath hidden hhidden =>
    h.apart hidden (temporaryPlaces_subset hhidden) path (List.mem_append_right _ hpath)
  show (⟨(r.workBetween t (r.withFiles t around)).result,
    (r.workBetween t (r.withFiles t around)).store.remove (r.temporaryPlaces t around),
    (r.workBetween t (r.withFiles t around)).log⟩ : Work) = _
  unfold Request.workBetween Request.work
  cases hoptions : r.options with
  | error fault =>
    dsimp only
    rw [hhides.remove_eq]
  | ok options =>
    dsimp only
    rw [hsources, Request.workWith]
    cases hdestination : r.destination with
    | output =>
      have hplace : t.output ∈ r.temporaryPlaces t around := by
        unfold Request.temporaryPlaces Request.temporaryFiles
        simp [hdestination]
      dsimp only
      cases (survey options (r.sources around)).report r.style with
      | error failure =>
        dsimp only
        rw [hhides.remove_eq]
        rfl
      | ok text =>
        dsimp only
        rw [printed_put, (hhides.put_hidden hplace).remove_eq]
        rfl
    | file path =>
      obtain ⟨hfailure, hlog, hstore⟩ := convert_hides hhides
        (hapart path (by simp [hdestination, Destination.paths])) options r.style (r.sources around)
      dsimp only
      cases hbare : (convert options r.style (r.sources around) path around.store).failure? with
      | none => rw [hfailure, hbare, hlog, hstore]
      | some failure => rw [hfailure, hbare, hlog, hstore]
    | unnamedFile =>
      obtain ⟨hfailure, hlog, hstore⟩ := convert_hides hhides
        (hapart Destination.unnamedPath (by simp [hdestination, Destination.paths])) options r.style
        (r.sources around)
      dsimp only
      cases hbare : (convert options r.style (r.sources around) Destination.unnamedPath
        around.store).failure? with
      | none => rw [hfailure, hbare, hlog, hstore]
      | some failure => rw [hfailure, hbare, hlog, hstore]
    | unusable value =>
      dsimp only
      cases (survey options (r.sources around)).report r.style with
      | error failure =>
        dsimp only
        rw [hhides.remove_eq]
        rfl
      | ok text =>
        dsimp only
        rw [hhides.remove_eq]
        rfl

end Program

end RecordSchema
