import RecordSchema.Proofs.Files.Names

/-!
# What writing leaves as it was

A path leads to a place by its names, one after the other: whether the places on the way exist
decides if it can be walked, not where it leads.  Writing a report to a path therefore has a frame
that can be read off the path: the file at the place of the path, and directories on the way to it
that were missing (`writesOnly_writeReport`).  Everything else stands where it stood, whether the
writing succeeds or fails.
-/

namespace RecordSchema.FileStore

variable {store store' : FileStore} {path text : String} {place target : Place}

/-! ### The place of a path -/

/-- The names in a path. -/
def namesOf (path : String) : List String := (Path.names path.toList).map String.ofList

/-- The place that a path leads to if it can be walked: that of its names, one after the other. -/
def placeOf (store : FileStore) (path : String) : Place :=
  (namesOf path).foldl placeAfter (store.startOf path)

lemma placeAfter_empty (place : Place) : placeAfter place "" = place := if_pos (Or.inl rfl)

/-- Empty parts lead nowhere. -/
lemma foldl_placeAfter_parts (parts : List (List Char)) (place : Place) :
    (parts.map String.ofList).foldl placeAfter place =
      ((parts.filter (· ≠ [])).map String.ofList).foldl placeAfter place := by
  induction parts generalizing place with
  | nil => rfl
  | cons part parts ih =>
    by_cases hpart : part = []
    · rw [hpart, List.map_cons, List.foldl_cons, List.filter_cons_of_neg (by simp),
        String.ofList_nil, placeAfter_empty, ih]
    · rw [List.map_cons, List.foldl_cons, List.filter_cons_of_pos (by simpa using hpart),
        List.map_cons, List.foldl_cons, ih]

lemma foldl_placeAfter_partsOf (path : String) (place : Place) :
    (partsOf path).foldl placeAfter place = (namesOf path).foldl placeAfter place :=
  foldl_placeAfter_parts _ place

/-- Walking along parts leads where they lead. -/
lemma eq_foldl_of_walk {parts : List String} (h : store.walk path place parts = .ok target) :
    target = parts.foldl placeAfter place := by
  induction parts generalizing place with
  | nil => exact (Except.ok.inj h).symm
  | cons part parts ih =>
    rw [walk] at h
    cases hentry : store.entryAt place with
    | directory =>
      rw [hentry] at h
      exact ih h
    | file content =>
      rw [hentry] at h
      cases h
    | missing =>
      rw [hentry] at h
      cases h

/-- A path that can be walked leads to its place. -/
theorem eq_placeOf_of_resolve (h : store.resolve path = .ok place) :
    place = store.placeOf path := by
  unfold resolve at h
  split_ifs at h
  rw [eq_foldl_of_walk h, foldl_placeAfter_partsOf, placeOf]

/-- A path that can be located lies in a directory, and its last part leads from there to its
place. -/
lemma of_locate {part : String} (h : store.locate path = .ok (place, part)) :
    store.entryAt place = .directory ∧ placeAfter place part = store.placeOf path := by
  unfold locate at h
  split_ifs at h
  obtain ⟨found, hwalk, h⟩ := bind_eq_ok_iff.mp h
  cases hentry : store.entryAt found with
  | directory =>
    rw [hentry] at h
    cases h
    refine ⟨hentry, ?_⟩
    have hparts : partsOf (String.ofList (Path.trimSlashes path.toList)) ≠ [] := by
      simpa [partsOf] using parts_ne_nil _
    have hlast := List.dropLast_concat_getLast hparts
    rw [eq_foldl_of_walk hwalk, List.getLast?_eq_getLast_of_ne_nil hparts, Option.getD_some]
    calc placeAfter _ _
      _ = (partsOf (String.ofList (Path.trimSlashes path.toList))).foldl placeAfter
          (store.startOf path) := by
        conv_rhs => rw [← hlast, List.foldl_concat]
      _ = store.placeOf path := by
        rw [foldl_placeAfter_partsOf, placeOf, namesOf, namesOf, String.toList_ofList,
          Path.names_trimSlashes]
  | file content =>
    rw [hentry] at h
    cases h
  | missing =>
    rw [hentry] at h
    cases h

/-! ### One more entry -/

/-- All places above a place are directories. -/
def IsReady (store : FileStore) (place : Place) : Prop :=
  ∀ above, above <+: place → above ≠ place → store.isDirectory above = true

lemma isDirectory_iff : store.isDirectory place = true ↔
    place <+: store.workingDirectory ∨ (∃ directory ∈ store.directories, place <+: directory) ∨
      ∃ file ∈ store.files, file.1 ≠ place ∧ place <+: file.1 := by
  unfold isDirectory
  simp only [Bool.or_eq_true, List.any_eq_true, List.isPrefixOf_iff_prefix, Bool.and_eq_true,
    bne_iff_ne, or_assoc]

lemma isDirectory_of_prefix {above : Place} (h : store.isDirectory place = true)
    (habove : above <+: place) : store.isDirectory above = true := by
  rw [isDirectory_iff] at h ⊢
  rcases h with h | ⟨directory, hdirectory, h⟩ | ⟨file, hfile, hne, h⟩
  · exact Or.inl (habove.trans h)
  · exact Or.inr (Or.inl ⟨directory, hdirectory, habove.trans h⟩)
  · refine Or.inr (Or.inr ⟨file, hfile, ?_, habove.trans h⟩)
    -- the file lies properly below the place, and so below what is above the place
    rintro rfl
    exact hne (h.eq_of_length_le habove.length_le).symm

/-- Any part leads from a directory to a place below directories. -/
lemma isReady_placeAfter (h : store.entryAt place = .directory) (part : String) :
    store.IsReady (placeAfter place part) := by
  intro above habove hne
  refine isDirectory_of_prefix (entryAt_eq_directory_iff.mp h).2 ?_
  unfold placeAfter at habove hne
  split_ifs at habove hne
  · exact habove
  · exact habove.trans (List.dropLast_prefix place)
  · obtain h | h := List.prefix_concat_iff.mp habove
    · exact absurd h hne
    · exact h

lemma isReady_of_locate {part : String} (h : store.locate path = .ok (place, part)) :
    store.IsReady (store.placeOf path) := by
  obtain ⟨hdirectory, hplace⟩ := of_locate h
  exact hplace ▸ isReady_placeAfter hdirectory part

/-- Taking files away from one place leaves those at another. -/
lemma lookup_filter_of_ne {files : List (Place × Content)} (hne : place ≠ target) :
    (files.filter fun file => file.1 != target).lookup place = files.lookup place := by
  induction files with
  | nil => rfl
  | cons file files ih =>
    by_cases hfile : file.1 = target
    · have hother : (place == file.1) = false := beq_false_of_ne (hfile ▸ hne)
      rw [List.filter_cons_of_neg (by simpa using hfile), ih, List.lookup_cons, hother]
    · rw [List.filter_cons_of_pos (by simpa using hfile), List.lookup_cons, List.lookup_cons, ih]

/-- A new file leaves those at other places. -/
lemma lookup_put_of_ne {content : Content} (hne : place ≠ target) :
    (store.put target content).files.lookup place = store.files.lookup place := by
  have hother : (place == target) = false := beq_false_of_ne hne
  show List.lookup place (_ ++ [(target, content)]) = _
  rw [List.lookup_append, lookup_filter_of_ne hne, List.lookup_cons, hother, List.lookup_nil,
    Option.or_none]

/-- A file in a place below directories changes nothing at any other place. -/
theorem entryAt_put_of_ne {content : Content} (h : store.IsReady target) (hne : place ≠ target) :
    (store.put target content).entryAt place = store.entryAt place := by
  have hdirectory : (store.put target content).isDirectory place = store.isDirectory place := by
    refine Bool.eq_iff_iff.mpr ⟨fun hput => ?_, isDirectory_put⟩
    -- what only the new file makes a directory is above its place, and was one before
    rcases isDirectory_iff.mp hput with hstart | hlisted | ⟨file, hfile, hbelow, hleads⟩
    · exact isDirectory_iff.mpr (Or.inl hstart)
    · exact isDirectory_iff.mpr (Or.inr (Or.inl hlisted))
    · rcases List.mem_append.mp hfile with hfile | hfile
      · exact isDirectory_iff.mpr
          (Or.inr (Or.inr ⟨file, List.mem_of_mem_filter hfile, hbelow, hleads⟩))
      · rw [List.mem_singleton.mp hfile] at hleads
        exact h place hleads hne
  rw [entryAt, lookup_put_of_ne hne, hdirectory, entryAt]

/-- The store with one more directory. -/
def withDirectory (store : FileStore) (place : Place) : FileStore :=
  { store with directories := store.directories ++ [place] }

/-- A directory in a place below directories changes nothing at any other place. -/
lemma entryAt_withDirectory (h : store.IsReady target)
    (hmissing : store.entryAt target = .missing) :
    (store.withDirectory target).entryAt place =
      if place = target then .directory else store.entryAt place := by
  have hdirectory : (store.withDirectory target).isDirectory place =
      (store.isDirectory place || place.isPrefixOf target) := by
    unfold isDirectory withDirectory
    simp only [List.any_append, List.any_cons, List.any_nil, Bool.or_false]
    ac_rfl
  by_cases hplace : place = target
  · subst hplace
    have hlookup : store.files.lookup place = none := by
      unfold entryAt at hmissing
      cases hfile : store.files.lookup place with
      | none => rfl
      | some content =>
        rw [hfile] at hmissing
        cases hmissing
    rw [if_pos rfl]
    exact entryAt_eq_directory_iff.mpr ⟨hlookup, by simp [hdirectory]⟩
  · have hsame : (store.withDirectory target).isDirectory place = store.isDirectory place := by
      rw [hdirectory]
      cases hprefix : place.isPrefixOf target with
      | false => rw [Bool.or_false]
      | true => rw [h place (List.isPrefixOf_iff_prefix.mp hprefix) hplace, Bool.true_or]
    rw [if_neg hplace, entryAt, hsame]
    rfl

/-! ### Making directories -/

/-- The places on the way to a path, its own place among them. -/
def IsOnWay (store : FileStore) (path : String) (place : Place) : Prop :=
  ∃ front, front <+: namesOf path ∧ place = front.foldl placeAfter (store.startOf path)

/-- A later store has the same files as an earlier one, and differs from it only in directories at
places of some kind that were missing. -/
structure MakesOnly (IsMade : Place → Prop) (before after : FileStore) : Prop where
  files : after.files = before.files
  workingDirectory : after.workingDirectory = before.workingDirectory
  entryAt : ∀ place, after.entryAt place = before.entryAt place ∨
    IsMade place ∧ before.entryAt place = .missing ∧ after.entryAt place = .directory

namespace MakesOnly

variable {IsMade IsMade' : Place → Prop} {before between after : FileStore}

lemma refl (IsMade : Place → Prop) (store : FileStore) : MakesOnly IsMade store store :=
  ⟨rfl, rfl, fun _ => Or.inl rfl⟩

lemma imp (h : MakesOnly IsMade before after) (himp : ∀ place, IsMade place → IsMade' place) :
    MakesOnly IsMade' before after :=
  ⟨h.files, h.workingDirectory,
    fun place => (h.entryAt place).imp_right (And.imp_left (himp place))⟩

lemma trans (h : MakesOnly IsMade before between) (h' : MakesOnly IsMade between after) :
    MakesOnly IsMade before after := by
  refine ⟨h'.files.trans h.files, h'.workingDirectory.trans h.workingDirectory, fun place => ?_⟩
  rcases h'.entryAt place with heq' | ⟨hmade, hmissing, hdirectory⟩
  · rw [heq']
    exact h.entryAt place
  · rcases h.entryAt place with heq | ⟨-, -, hdirectory'⟩
    · exact Or.inr ⟨hmade, heq ▸ hmissing, hdirectory⟩
    · -- what has been made is not missing any more
      rw [hdirectory'] at hmissing
      cases hmissing

end MakesOnly

/-- Where a path can be located, its directory is made unless something stands there. -/
lemma makeDirectory_of_locate {part : String} (h : store.locate path = .ok (place, part)) :
    store.makeDirectory path = match store.entryAt (store.placeOf path) with
      | .missing => .ok (store.withDirectory (store.placeOf path))
      | _ => .error (.fileExists path) := by
  rw [← (of_locate h).2, makeDirectory, h]
  rfl

lemma makeDirectory_eq_ok (h : store.makeDirectory path = .ok store') :
    store' = store.withDirectory (store.placeOf path) ∧ store.IsReady (store.placeOf path) ∧
      store.entryAt (store.placeOf path) = .missing := by
  obtain ⟨⟨place, part⟩, hlocate, -⟩ := bind_eq_ok_iff.mp h
  rw [makeDirectory_of_locate hlocate] at h
  split at h
  · next hentry => exact ⟨(Except.ok.inj h).symm, isReady_of_locate hlocate, hentry⟩
  · cases h

lemma makesOnly_makeDirectory (h : store.makeDirectory path = .ok store') :
    MakesOnly (store.IsOnWay path) store store' := by
  obtain ⟨rfl, hready, hmissing⟩ := makeDirectory_eq_ok h
  refine ⟨rfl, rfl, fun place => ?_⟩
  rw [entryAt_withDirectory hready hmissing]
  by_cases hplace : place = store.placeOf path
  · rw [if_pos hplace]
    exact Or.inr ⟨⟨namesOf path, List.prefix_refl _, hplace⟩, hplace ▸ hmissing, rfl⟩
  · rw [if_neg hplace]
    exact Or.inl rfl

/-! ### Making directories and those above them -/

/-- What a step makes of a store, which stays as it is if the step fails. -/
def attempt (store : FileStore) : Except Failure FileStore → FileStore × Option Failure
  | .ok store' => (store', none)
  | .error failure => (store, some failure)

/-- The last step in making directories: the directory itself, unless it has just been made. -/
def makeLast (store : FileStore) (path : String) (isMade : Bool) : FileStore × Option Failure :=
  if isMade then (store, none) else store.attempt (store.makeDirectory path)

lemma makeDirectoriesWithin_succ (depth : Nat) (store : FileStore) (path : String) :
    store.makeDirectoriesWithin (depth + 1) path =
      let head := (Path.above path.toList).1
      let last := (Path.above path.toList).2
      let missing := !head.isEmpty && !last.isEmpty && !store.pathExists (String.ofList head)
      let made := if missing then store.makeDirectoriesWithin depth (String.ofList head)
        else (store, none)
      match made.2 with
      | none => made.1.makeLast path (missing && last = ['.'])
      | some (.fileExists _) => made.1.makeLast path (missing && last = ['.'])
      | some failure => (made.1, some failure) := rfl

/-- Two results of changing a store agree: the stores are related, and the failures, if any, are the
same. -/
def Agree (Related : FileStore → FileStore → Prop) (made made' : FileStore × Option Failure) :
    Prop :=
  Related made.1 made'.1 ∧ made.2 = made'.2

/-- What two stores have in common stays common when a directory and those above it are made in
both, if it does for each single directory along the way. -/
theorem agree_makeDirectoriesWithin {Related : FileStore → FileStore → Prop} (whole : String)
    (hexists : ∀ {store store' path}, Path.IsAlong path.toList whole.toList →
      Related store store' → store.pathExists path = store'.pathExists path)
    (hmake : ∀ {store store' path}, Path.IsAlong path.toList whole.toList →
      Related store store' → Agree Related (store.attempt (store.makeDirectory path))
        (store'.attempt (store'.makeDirectory path)))
    (depth : Nat) {path : String} (halong : Path.IsAlong path.toList whole.toList)
    (h : Related store store') :
    Agree Related (store.makeDirectoriesWithin depth path)
      (store'.makeDirectoriesWithin depth path) := by
  have hlast : ∀ {store store' path} (isMade : Bool), Path.IsAlong path.toList whole.toList →
      Related store store' →
      Agree Related (store.makeLast path isMade) (store'.makeLast path isMade) := by
    intro store store' path isMade halong h
    cases isMade with
    | true => exact ⟨h, rfl⟩
    | false => exact hmake halong h
  induction depth generalizing path store store' with
  | zero => exact ⟨h, rfl⟩
  | succ depth ih =>
    rw [makeDirectoriesWithin_succ, makeDirectoriesWithin_succ]
    by_cases hhead : (Path.above path.toList).1 = []
    · -- there is nothing above the path
      simp only [hhead, List.isEmpty_nil, Bool.not_true, Bool.false_and, Bool.false_eq_true,
        if_false]
      exact hmake halong h
    · have habove : Path.IsAlong (String.ofList (Path.above path.toList).1).toList
          whole.toList := by
        rw [String.toList_ofList]
        exact (Path.isAlong_above hhead).trans halong
      dsimp only
      rw [hexists habove h]
      generalize (!(Path.above path.toList).1.isEmpty && !(Path.above path.toList).2.isEmpty &&
        !store'.pathExists (String.ofList (Path.above path.toList).1)) = missing
      obtain ⟨hrelated, hfailure⟩ : Agree Related
          (if missing = true then
            store.makeDirectoriesWithin depth (String.ofList (Path.above path.toList).1)
            else (store, none))
          (if missing = true then
            store'.makeDirectoriesWithin depth (String.ofList (Path.above path.toList).1)
            else (store', none)) := by
        split_ifs
        · exact ih habove h
        · exact ⟨h, rfl⟩
      rw [hfailure]
      split
      · exact hlast _ halong hrelated
      · exact hlast _ halong hrelated
      · exact ⟨hrelated, rfl⟩

/-- The way along a path is part of the way. -/
lemma isOnWay_of_isAlong {along : String} (halong : Path.IsAlong along.toList path.toList)
    (hstore : store'.workingDirectory = store.workingDirectory)
    (h : store'.IsOnWay along place) : store.IsOnWay path place := by
  obtain ⟨front, hfront, rfl⟩ := h
  refine ⟨front, hfront.trans (halong.1.map _), ?_⟩
  unfold startOf
  rw [halong.2, hstore]

lemma makesOnly_attempt (store : FileStore) (path : String) :
    MakesOnly (store.IsOnWay path) store (store.attempt (store.makeDirectory path)).1 := by
  cases hmade : store.makeDirectory path with
  | ok made => exact makesOnly_makeDirectory hmade
  | error failure => exact MakesOnly.refl _ store

/-- Making a directory and those above it makes directories on the way to it. -/
theorem makesOnly_makeDirectories (store : FileStore) (path : String) :
    MakesOnly (store.IsOnWay path) store (store.makeDirectories path).1 := by
  have hagree : Agree (fun made made' => made = made' ∧ MakesOnly (store.IsOnWay path) store made)
      (store.makeDirectories path) (store.makeDirectories path) := by
    refine agree_makeDirectoriesWithin path ?_ ?_ _ ⟨List.prefix_refl _, rfl⟩
      ⟨rfl, MakesOnly.refl _ store⟩
    · rintro made _ along - ⟨rfl, -⟩
      rfl
    · rintro made _ along halong ⟨rfl, hmakes⟩
      have hlast := (makesOnly_attempt made along).imp fun place =>
        isOnWay_of_isAlong halong hmakes.workingDirectory
      exact ⟨⟨rfl, hmakes.trans hlast⟩, rfl⟩
  exact hagree.1.2

/-! ### Writing -/

/-- A later store has, in comparison to an earlier one, at most one more file or one with another
content, which is at the place of a path, and more directories on the way to it. -/
def WritesOnly (path : String) (before after : FileStore) : Prop :=
  ∀ place, after.entryAt place = before.entryAt place ∨
    (place = before.placeOf path ∧ before.entryAt place ≠ .directory ∧
      ∃ content, after.entryAt place = .file content) ∨
    (before.IsOnWay (Path.parent path) place ∧ before.entryAt place = .missing ∧
      after.entryAt place = .directory)

lemma MakesOnly.writesOnly (h : MakesOnly (store.IsOnWay (Path.parent path)) store store') :
    WritesOnly path store store' :=
  fun place => (h.entryAt place).imp_right Or.inr

/-- Where a path can be located, its file is written unless there is a directory. -/
lemma writeFile_of_locate {part : String} (h : store.locate path = .ok (place, part)) :
    store.writeFile path text = match store.entryAt (store.placeOf path) with
      | .directory => .error (.isDirectory path)
      | _ => if path.toList.getLast? = some '/' then .error (.isDirectory path)
        else .ok (store.put (store.placeOf path) (.plain (Utf8.ofString text))) := by
  rw [← (of_locate h).2, writeFile, h]
  rfl

lemma writeFile_eq_ok (h : store.writeFile path text = .ok store') :
    store' = store.put (store.placeOf path) (.plain (Utf8.ofString text)) ∧
      store.IsReady (store.placeOf path) ∧ store.entryAt (store.placeOf path) ≠ .directory := by
  obtain ⟨⟨place, part⟩, hlocate, -⟩ := bind_eq_ok_iff.mp h
  rw [writeFile_of_locate hlocate] at h
  split at h
  · cases h
  · next hentry =>
    split_ifs at h
    exact ⟨(Except.ok.inj h).symm, isReady_of_locate hlocate, hentry⟩

/-- The store in which a report is written: the directory for it has been made, if it was
missing. -/
def prepare (store : FileStore) (path : String) : FileStore × Option Failure :=
  if (Path.parent path).isEmpty || store.pathExists (Path.parent path) then (store, none)
  else store.makeDirectories (Path.parent path)

lemma writeReport_eq (store : FileStore) (path text : String) :
    store.writeReport path text = match (store.prepare path).2 with
      | some failure => ((store.prepare path).1, some failure)
      | none => (store.prepare path).1.attempt ((store.prepare path).1.writeFile path text) := by
  unfold writeReport prepare
  dsimp only
  generalize (if (Path.parent path).isEmpty || store.pathExists (Path.parent path) then
    (store, none) else store.makeDirectories (Path.parent path)) = prepared
  obtain ⟨made, failure?⟩ := prepared
  cases failure? with
  | some failure => rfl
  | none => cases made.writeFile path text <;> rfl

lemma makesOnly_prepare (store : FileStore) (path : String) :
    MakesOnly (store.IsOnWay (Path.parent path)) store (store.prepare path).1 := by
  unfold prepare
  split_ifs
  · exact MakesOnly.refl _ store
  · exact makesOnly_makeDirectories store (Path.parent path)

/-- Writing a report changes the file at its path, and makes directories on the way to it that are
missing, and that is all; also if it fails. -/
theorem writesOnly_writeReport (store : FileStore) (path text : String) :
    WritesOnly path store (store.writeReport path text).1 := by
  have hmakes := makesOnly_prepare store path
  rw [writeReport_eq]
  generalize store.prepare path = prepared at hmakes
  obtain ⟨made, failure?⟩ := prepared
  cases failure? with
  | some failure => exact hmakes.writesOnly
  | none =>
    cases hwrite : made.writeFile path text with
    | error failure => exact hmakes.writesOnly
    | ok written =>
      obtain ⟨rfl, hready, htarget⟩ := writeFile_eq_ok hwrite
      have hplace : made.placeOf path = store.placeOf path := by
        unfold placeOf startOf
        rw [hmakes.workingDirectory]
      rw [hplace] at hready htarget ⊢
      intro place
      by_cases hne : place = store.placeOf path
      · subst hne
        refine Or.inr (Or.inl ⟨rfl, ?_, _, entryAt_put_self⟩)
        rcases hmakes.entryAt (store.placeOf path) with heq | ⟨-, -, hdirectory⟩
        · rwa [← heq]
        · exact absurd hdirectory htarget
      · have hother := hmakes.writesOnly place
        rwa [← entryAt_put_of_ne hready hne] at hother

end RecordSchema.FileStore
