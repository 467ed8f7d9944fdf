import RecordSchema.Program.TemporaryFiles
import RecordSchema.Proofs.Files.Frame

/-!
# Files that nobody asks for

A file with a name that occurs in no path is not met by anything that is done along paths.  So a
store with some such files behaves like the store without them: what is read is the same, and what
is made or written leads to stores of which again one has the files and the other has not
(`agree_writeReport`).  Taking the files away gives the store that there would be without them
(`Hides.remove_eq`).
-/

namespace RecordSchema.FileStore

variable {store full bare full' bare' : FileStore} {path text : String} {place target : Place}
  {places : List Place} {content : Content}

/-! ### A store with files and the store without them -/

/-- A store has, in comparison to another one, files at some places where there is nothing. -/
structure Hides (places : List Place) (full bare : FileStore) : Prop where
  remove_eq : full.remove places = bare
  missing : ∀ place ∈ places, bare.entryAt place = .missing
  ready : ∀ place ∈ places, bare.IsReady place

namespace Hides

lemma workingDirectory (h : Hides places full bare) :
    full.workingDirectory = bare.workingDirectory := by
  rw [← h.remove_eq]
  rfl

lemma directories (h : Hides places full bare) : full.directories = bare.directories := by
  rw [← h.remove_eq]
  rfl

lemma files (h : Hides places full bare) :
    full.files.filter (fun file => !places.contains file.1) = bare.files := by
  rw [← h.remove_eq]
  rfl

end Hides

/-- Taking files away from some places leaves those at others. -/
lemma lookup_filter_of_notMem {files : List (Place × Content)} (h : place ∉ places) :
    (files.filter fun file => !places.contains file.1).lookup place = files.lookup place := by
  induction files with
  | nil => rfl
  | cons file files ih =>
    by_cases hfile : file.1 ∈ places
    · have hother : (place == file.1) = false := beq_false_of_ne fun heq => h (heq ▸ hfile)
      rw [List.filter_cons_of_neg (by simpa using hfile), ih, List.lookup_cons, hother]
    · rw [List.filter_cons_of_pos (by simpa using hfile), List.lookup_cons, List.lookup_cons, ih]

namespace Hides

/-- The two stores have the same directories: what leads to a hidden file is a directory without
it. -/
lemma isDirectory_eq (h : Hides places full bare) :
    full.isDirectory place = bare.isDirectory place := by
  refine Bool.eq_iff_iff.mpr ⟨fun hfull => ?_, fun hbare => ?_⟩
  · rcases isDirectory_iff.mp hfull with hprefix | hlisted | ⟨file, hfile, hne, hleads⟩
    · exact isDirectory_iff.mpr (Or.inl (h.workingDirectory ▸ hprefix))
    · exact isDirectory_iff.mpr (Or.inr (Or.inl (h.directories ▸ hlisted)))
    · by_cases hhidden : file.1 ∈ places
      · exact h.ready _ hhidden place hleads hne.symm
      · refine isDirectory_iff.mpr (Or.inr (Or.inr ⟨file, ?_, hne, hleads⟩))
        rw [← h.files]
        exact List.mem_filter.mpr ⟨hfile, by simpa using hhidden⟩
  · rw [isDirectory_iff, h.workingDirectory, h.directories]
    refine (isDirectory_iff.mp hbare).imp_right (Or.imp_right ?_)
    rintro ⟨file, hfile, hleads⟩
    rw [← h.files] at hfile
    exact ⟨file, List.mem_of_mem_filter hfile, hleads⟩

/-- At other places the two stores have the same. -/
theorem entryAt_eq (h : Hides places full bare) (hplace : place ∉ places) :
    full.entryAt place = bare.entryAt place := by
  have hlookup : full.files.lookup place = bare.files.lookup place := by
    rw [← h.files, lookup_filter_of_notMem hplace]
  rw [entryAt, entryAt, hlookup, h.isDirectory_eq]

end Hides

/-! ### Hiding files -/

/-- A place for a new file: there is nothing yet, in a directory that is there. -/
def IsVacant (store : FileStore) (place : Place) : Prop :=
  store.entryAt place = .missing ∧ store.IsReady place

lemma ne_of_mem_files {file : Place × Content} (h : store.entryAt place = .missing)
    (hfile : file ∈ store.files) : file.1 ≠ place := by
  rintro rfl
  unfold entryAt at h
  cases hlookup : store.files.lookup file.1 with
  | some content =>
    rw [hlookup] at h
    cases h
  | none => simpa using List.lookup_eq_none_iff.mp hlookup file hfile

/-- Where there are no files, none are hidden. -/
lemma hides_self (h : ∀ place ∈ places, store.IsVacant place) : Hides places store store where
  remove_eq := by
    have hfiles : store.files.filter (fun file => !places.contains file.1) = store.files := by
      refine List.filter_eq_self.mpr fun file hfile => ?_
      have hne : file.1 ∉ places := fun hmem => ne_of_mem_files (h _ hmem).1 hfile rfl
      simpa using hne
    unfold remove
    rw [hfiles]
  missing place hplace := (h place hplace).1
  ready place hplace := (h place hplace).2

/-- A file at a hidden place may be put there or replaced. -/
lemma Hides.put_hidden (h : Hides places full bare) (hplace : place ∈ places) :
    Hides places (full.put place content) bare where
  remove_eq := by
    rw [← h.remove_eq]
    unfold remove put
    have hothers : (full.files.filter fun file => file.1 != place).filter
        (fun file => !places.contains file.1) =
          full.files.filter fun file => !places.contains file.1 := by
      rw [List.filter_filter]
      refine List.filter_congr fun file _ => ?_
      by_cases hfile : file.1 = place
      · simp [hfile, hplace]
      · simp [hfile]
    have hnew : [(place, content)].filter (fun file => !places.contains file.1) = [] := by
      simp [hplace]
    dsimp only
    rw [List.filter_append, hothers, hnew, List.append_nil]
  missing := h.missing
  ready := h.ready

/-! ### Paths that do not lead there -/

/-- A place has a name that is not met on the way along a path. -/
def IsApart (store : FileStore) (path : String) (place : Place) : Prop :=
  ∃ name ∈ place, name ≠ "" ∧ name ∉ store.workingDirectory ∧ name ∉ namesOf path

lemma mem_placeAfter {name part : String} (h : name ∈ placeAfter place part) :
    name ∈ place ∨ name = part := by
  unfold placeAfter at h
  split_ifs at h
  · exact Or.inl h
  · exact Or.inl (List.mem_of_mem_dropLast h)
  · exact (List.mem_append.mp h).imp_right List.mem_singleton.mp

lemma mem_foldl_placeAfter {name : String} {parts : List String}
    (h : name ∈ parts.foldl placeAfter place) : name ∈ place ∨ name ∈ parts := by
  induction parts generalizing place with
  | nil => exact Or.inl h
  | cons part parts ih =>
    rcases ih h with h | h
    · exact (mem_placeAfter h).imp_right fun heq => List.mem_cons.mpr (Or.inl heq)
    · exact Or.inr (List.mem_cons_of_mem _ h)

lemma mem_startOf {name : String} (h : name ∈ store.startOf path) :
    name ∈ store.workingDirectory := by
  unfold startOf at h
  split_ifs at h
  · cases h
  · exact h

lemma IsApart.placeOf_ne (h : store.IsApart path place) : store.placeOf path ≠ place := by
  obtain ⟨name, hname, -, hstart, hpath⟩ := h
  rintro rfl
  exact (mem_foldl_placeAfter hname).elim (fun h => hstart (mem_startOf h)) hpath

/-- A path along another one does not lead there either. -/
lemma IsApart.along {along : String} (h : store.IsApart path place)
    (halong : Path.IsAlong along.toList path.toList) : store.IsApart along place := by
  obtain ⟨name, hname, hne, hstart, hpath⟩ := h
  exact ⟨name, hname, hne, hstart, fun h => hpath ((halong.1.map _).subset h)⟩

/-- What is written at a path leaves such a place as it was. -/
lemma IsApart.entryAt_eq (h : bare.IsApart path place) (hwrites : WritesOnly path bare bare') :
    bare'.entryAt place = bare.entryAt place := by
  rcases hwrites place with heq | ⟨heq, -⟩ | ⟨⟨front, hfront, heq⟩, -⟩
  · exact heq
  · exact absurd heq.symm h.placeOf_ne
  · obtain ⟨name, hname, -, hstart, hpath⟩ := h
    rw [heq] at hname
    have hparent : namesOf (Path.parent path) <+: namesOf path := by
      rw [namesOf, Path.parent, String.toList_ofList]
      exact (Path.names_split path.toList).map _
    rcases mem_foldl_placeAfter hname with hname | hname
    · exact absurd (mem_startOf hname) hstart
    · exact absurd (hparent.subset (hfront.subset hname)) hpath

lemma IsApart.congr (h : store.IsApart path place)
    (hstore : full.workingDirectory = store.workingDirectory) : full.IsApart path place := by
  unfold IsApart at h ⊢
  rwa [hstore]

/-- The parts of a path are its names, but for empty ones. -/
lemma mem_namesOf {name : String} (h : name ∈ partsOf path) (hne : name ≠ "") :
    name ∈ namesOf path := by
  obtain ⟨part, hpart, rfl⟩ := List.mem_map.mp h
  refine List.mem_map_of_mem (List.mem_filter.mpr ⟨hpart, ?_⟩)
  rw [decide_eq_true_iff]
  rintro rfl
  exact hne String.ofList_nil

namespace Hides

/-- Walking along parts, of which no hidden place has all its names, is the same in both stores. -/
lemma walk_eq {parts : List String} (h : Hides places full bare)
    (hapart : ∀ hidden ∈ places, ∃ name ∈ hidden, name ∉ place ∧ name ∉ parts) :
    full.walk path place parts = bare.walk path place parts := by
  induction parts generalizing place with
  | nil => rfl
  | cons part parts ih =>
    have hplace : place ∉ places := by
      intro hplace
      obtain ⟨name, hname, hnot, -⟩ := hapart place hplace
      exact hnot hname
    rw [walk, walk, h.entryAt_eq hplace]
    cases bare.entryAt place with
    | directory =>
      refine ih fun hidden hhidden => ?_
      obtain ⟨name, hname, hnot, hparts⟩ := hapart hidden hhidden
      refine ⟨name, hname, fun h => ?_, fun h => hparts (List.mem_cons_of_mem _ h)⟩
      exact (mem_placeAfter h).elim hnot fun heq => hparts (List.mem_cons.mpr (Or.inl heq))
    | file content => rfl
    | missing => rfl

lemma startOf_eq (h : Hides places full bare) : full.startOf path = bare.startOf path := by
  unfold startOf
  rw [h.workingDirectory]

lemma placeOf_eq (h : Hides places full bare) : full.placeOf path = bare.placeOf path := by
  unfold placeOf
  rw [h.startOf_eq]

/-- Walking along a path, or a part of it, is the same in both stores. -/
lemma walk_startOf_eq {parts : List String} (h : Hides places full bare)
    (hapart : ∀ hidden ∈ places, bare.IsApart path hidden)
    (hparts : ∀ part ∈ parts, part ≠ "" → part ∈ namesOf path) :
    full.walk path (full.startOf path) parts = bare.walk path (bare.startOf path) parts := by
  rw [h.startOf_eq]
  refine h.walk_eq fun hidden hhidden => ?_
  obtain ⟨name, hname, hne, hstart, hpath⟩ := hapart hidden hhidden
  exact ⟨name, hname, fun h => hstart (mem_startOf h), fun h => hpath (hparts name h hne)⟩

section Apart

variable (h : Hides places full bare) (hapart : ∀ hidden ∈ places, bare.IsApart path hidden)
include h hapart

omit h in
lemma placeOf_notMem : bare.placeOf path ∉ places :=
  fun hplace => (hapart _ hplace).placeOf_ne rfl

lemma resolve_eq : full.resolve path = bare.resolve path := by
  unfold resolve
  rw [h.walk_startOf_eq hapart fun part hpart => mem_namesOf hpart]

lemma pathExists_eq : full.pathExists path = bare.pathExists path := by
  unfold pathExists
  rw [h.resolve_eq hapart]
  cases hplace : bare.resolve path with
  | error failure => rfl
  | ok place =>
    dsimp only
    rw [eq_placeOf_of_resolve hplace, h.entryAt_eq (placeOf_notMem hapart)]

lemma openFile_eq : full.openFile path = bare.openFile path := by
  unfold openFile
  rw [h.resolve_eq hapart]
  refine bind_congr_of_ok fun place hplace => ?_
  rw [eq_placeOf_of_resolve hplace, h.entryAt_eq (placeOf_notMem hapart)]

/-- The records of a file are the same in both stores. -/
theorem source_eq : full.source path = bare.source path := by
  unfold source deliver
  rw [h.openFile_eq hapart]

lemma locate_eq : full.locate path = bare.locate path := by
  have hparts : ∀ part ∈ (partsOf (String.ofList (Path.trimSlashes path.toList))).dropLast,
      part ≠ "" → part ∈ namesOf path := by
    intro part hpart hne
    have hname := mem_namesOf (List.mem_of_mem_dropLast hpart) hne
    rwa [namesOf, String.toList_ofList, Path.names_trimSlashes] at hname
  unfold locate
  dsimp only
  rw [h.walk_startOf_eq hapart hparts]
  split_ifs
  · rfl
  · rfl
  · refine bind_congr_of_ok fun place hwalk => ?_
    have hplace : place ∉ places := by
      intro hplace
      obtain ⟨name, hname, hne, hstart, hpath⟩ := hapart place hplace
      rw [eq_foldl_of_walk hwalk] at hname
      rcases mem_foldl_placeAfter hname with hname | hname
      · exact hstart (mem_startOf hname)
      · exact hpath (hparts name hname hne)
    rw [h.entryAt_eq hplace]

end Apart

end Hides

/-! ### Changing both stores -/

lemma IsReady.mono (h : store.IsReady place)
    (hmono : ∀ {above}, store.isDirectory above = true → full.isDirectory above = true) :
    full.IsReady place :=
  fun above habove hne => hmono (h above habove hne)

namespace Hides

/-- A directory in both stores, at a place where there is nothing. -/
lemma withDirectory (h : Hides places full bare) (hready : bare.IsReady target)
    (hmissing : bare.entryAt target = .missing) (htarget : target ∉ places) :
    Hides places (full.withDirectory target) (bare.withDirectory target) where
  remove_eq := by
    rw [← h.remove_eq]
    rfl
  missing hidden hhidden := by
    have hne : hidden ≠ target := fun heq => htarget (heq ▸ hhidden)
    rw [entryAt_withDirectory hready hmissing, if_neg hne]
    exact h.missing hidden hhidden
  ready hidden hhidden := by
    refine (h.ready hidden hhidden).mono fun hdirectory => ?_
    rw [isDirectory_iff] at hdirectory ⊢
    refine hdirectory.imp_right (Or.imp_left ?_)
    rintro ⟨directory, hdirectory, hleads⟩
    exact ⟨directory, List.mem_append_left _ hdirectory, hleads⟩

/-- A file in both stores. -/
lemma put (h : Hides places full bare) (hready : bare.IsReady target) (htarget : target ∉ places) :
    Hides places (full.put target content) (bare.put target content) where
  remove_eq := by
    rw [← h.remove_eq]
    unfold remove FileStore.put
    have hnew : [(target, content)].filter (fun file => !places.contains file.1) =
        [(target, content)] := by
      simp [htarget]
    dsimp only
    rw [List.filter_append, hnew, List.filter_comm]
  missing hidden hhidden := by
    have hne : hidden ≠ target := fun heq => htarget (heq ▸ hhidden)
    rw [entryAt_put_of_ne hready hne]
    exact h.missing hidden hhidden
  ready hidden hhidden := (h.ready hidden hhidden).mono isDirectory_put

/-- Making a directory comes to the same in both stores. -/
lemma agree_makeDirectory (h : Hides places full bare)
    (hapart : ∀ hidden ∈ places, bare.IsApart path hidden) :
    Agree (Hides places) (full.attempt (full.makeDirectory path))
      (bare.attempt (bare.makeDirectory path)) := by
  have hlocated := h.locate_eq hapart
  cases hlocate : bare.locate path with
  | error failure =>
    rw [hlocate] at hlocated
    rw [makeDirectory, makeDirectory, hlocated, hlocate]
    exact ⟨h, rfl⟩
  | ok located =>
    rw [hlocate] at hlocated
    have htarget := placeOf_notMem hapart
    rw [makeDirectory_of_locate hlocated, makeDirectory_of_locate hlocate, h.placeOf_eq,
      h.entryAt_eq htarget]
    cases hentry : bare.entryAt (bare.placeOf path) with
    | missing => exact ⟨h.withDirectory (isReady_of_locate hlocate) hentry htarget, rfl⟩
    | file content => exact ⟨h, rfl⟩
    | directory => exact ⟨h, rfl⟩

/-- Making a directory and those above it comes to the same in both stores. -/
lemma agree_makeDirectories (h : Hides places full bare)
    (hapart : ∀ hidden ∈ places, bare.IsApart path hidden) :
    Agree (Hides places) (full.makeDirectories path) (bare.makeDirectories path) := by
  have hagree : Agree (fun made made' => Hides places made made' ∧
      made'.workingDirectory = bare.workingDirectory)
      (full.makeDirectories path) (bare.makeDirectories path) := by
    refine agree_makeDirectoriesWithin path ?_ ?_ _ ⟨List.prefix_refl _, rfl⟩ ⟨h, rfl⟩
    · rintro made made' along halong ⟨hhides, hstore⟩
      exact hhides.pathExists_eq fun hidden hhidden =>
        ((hapart hidden hhidden).along halong).congr hstore
    · rintro made made' along halong ⟨hhides, hstore⟩
      obtain ⟨hmade, hfailure⟩ := hhides.agree_makeDirectory fun hidden hhidden =>
        ((hapart hidden hhidden).along halong).congr hstore
      exact ⟨⟨hmade, (makesOnly_attempt made' along).workingDirectory.trans hstore⟩, hfailure⟩
  exact ⟨hagree.1.1, hagree.2⟩

/-- Writing a file comes to the same in both stores. -/
lemma agree_writeFile (h : Hides places full bare)
    (hapart : ∀ hidden ∈ places, bare.IsApart path hidden) :
    Agree (Hides places) (full.attempt (full.writeFile path text))
      (bare.attempt (bare.writeFile path text)) := by
  have hlocated := h.locate_eq hapart
  cases hlocate : bare.locate path with
  | error failure =>
    rw [hlocate] at hlocated
    rw [writeFile, writeFile, hlocated, hlocate]
    exact ⟨h, rfl⟩
  | ok located =>
    rw [hlocate] at hlocated
    have htarget := placeOf_notMem hapart
    rw [writeFile_of_locate hlocated, writeFile_of_locate hlocate, h.placeOf_eq,
      h.entryAt_eq htarget]
    cases hentry : bare.entryAt (bare.placeOf path) with
    | directory => exact ⟨h, rfl⟩
    | missing =>
      dsimp only
      split_ifs
      · exact ⟨h, rfl⟩
      · exact ⟨h.put (isReady_of_locate hlocate) htarget, rfl⟩
    | file content =>
      dsimp only
      split_ifs
      · exact ⟨h, rfl⟩
      · exact ⟨h.put (isReady_of_locate hlocate) htarget, rfl⟩

/-- Writing a report comes to the same in both stores. -/
theorem agree_writeReport (h : Hides places full bare)
    (hapart : ∀ hidden ∈ places, bare.IsApart path hidden) (text : String) :
    Agree (Hides places) (full.writeReport path text) (bare.writeReport path text) := by
  have hprepare : Agree (Hides places) (full.prepare path) (bare.prepare path) := by
    unfold prepare
    by_cases hparent : (Path.split path.toList).1 = []
    · have hempty : (Path.parent path).isEmpty = true := by
        rw [Path.parent, hparent]
        rfl
      rw [hempty, Bool.true_or, Bool.true_or, if_pos rfl, if_pos rfl]
      exact ⟨h, rfl⟩
    · have halong : ∀ hidden ∈ places, bare.IsApart (Path.parent path) hidden := by
        intro hidden hhidden
        refine (hapart hidden hhidden).along ?_
        rw [Path.parent, String.toList_ofList]
        exact Path.isAlong_split hparent
      rw [h.pathExists_eq halong]
      split_ifs
      · exact ⟨h, rfl⟩
      · exact h.agree_makeDirectories halong
  have hstore := (makesOnly_prepare bare path).workingDirectory
  rw [writeReport_eq, writeReport_eq]
  generalize full.prepare path = made at hprepare
  generalize bare.prepare path = made' at hprepare hstore
  obtain ⟨hprepared, hfailure⟩ := hprepare
  rw [hfailure]
  cases made'.2 with
  | some failure => exact ⟨hprepared, rfl⟩
  | none =>
    exact hprepared.agree_writeFile fun hidden hhidden => (hapart hidden hhidden).congr hstore

end Hides

end RecordSchema.FileStore
