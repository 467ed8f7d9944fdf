import Mathlib.Tactic
import RecordSchema.Conversion
import RecordSchema.Proofs.Traversal

/-!
# Files that have been written

Putting a file in a place where there is no directory leaves all directories where they were, those
on the way to the file included (`entryAt_put_of_directory`).  So a path leads to the same place
after the file at it has been written, and what has been written can be read there
(`openFile_writeFile`).
-/

namespace RecordSchema.FileStore

variable {store store' : FileStore} {path text : String} {place place' target : Place}
  {content : Content}

/-! ### What stands at a place -/

lemma entryAt_eq_directory_iff : store.entryAt place = .directory ↔
    store.files.lookup place = none ∧ store.isDirectory place = true := by
  unfold entryAt
  cases store.files.lookup place with
  | some content => simp
  | none => simp

/-- The file is where it has been put. -/
lemma lookup_put_self : (store.put target content).files.lookup target = some content := by
  have hothers : (store.files.filter fun file => file.1 != target).lookup target = none := by
    rw [List.lookup_eq_none_iff]
    intro file hfile
    obtain ⟨-, hne⟩ := List.mem_filter.mp hfile
    rw [bne_iff_ne] at hne ⊢
    exact hne.symm
  show List.lookup target (_ ++ [(target, content)]) = _
  rw [List.lookup_append, hothers, List.lookup_cons_self]
  rfl

lemma entryAt_put_self : (store.put target content).entryAt target = .file content := by
  rw [entryAt, lookup_put_self]

/-- What is on the way to a file stays on the way to one. -/
lemma isDirectory_put (h : store.isDirectory place = true) :
    (store.put target content).isDirectory place = true := by
  unfold isDirectory at h ⊢
  simp only [Bool.or_eq_true, List.any_eq_true] at h ⊢
  refine h.imp_right ?_
  rintro ⟨file, hfile, hleads⟩
  by_cases htarget : file.1 = target
  · -- the file that led to the place has been replaced
    refine ⟨(target, content), List.mem_append_right _ (List.mem_singleton_self _), ?_⟩
    rw [← htarget]
    exact hleads
  · refine ⟨file, List.mem_append_left _ (List.mem_filter.mpr ⟨hfile, ?_⟩), hleads⟩
    rwa [bne_iff_ne]

/-- A directory stays one when a file is put in place of something else. -/
theorem entryAt_put_of_directory (h : store.entryAt place = .directory)
    (htarget : store.entryAt target ≠ .directory) :
    (store.put target content).entryAt place = .directory := by
  have hne : place ≠ target := by
    rintro rfl
    exact htarget h
  obtain ⟨hlookup, hdirectory⟩ := entryAt_eq_directory_iff.mp h
  refine entryAt_eq_directory_iff.mpr ⟨?_, isDirectory_put hdirectory⟩
  rw [List.lookup_eq_none_iff] at hlookup ⊢
  intro file hfile
  rcases List.mem_append.mp hfile with hfile | hfile
  · exact hlookup file (List.mem_of_mem_filter hfile)
  · rw [List.mem_singleton.mp hfile, bne_iff_ne]
    exact hne

/-! ### Paths -/

lemma walk_append (parts more : List String) : store.walk path place (parts ++ more) =
    store.walk path place parts >>= fun place => store.walk path place more := by
  induction parts generalizing place with
  | nil => rfl
  | cons part parts ih =>
    rw [List.cons_append, walk, walk]
    cases store.entryAt place with
    | directory => exact ih
    | file content => rfl
    | missing => rfl

/-- A way through directories is still there when a file has been put in place of something else. -/
lemma walk_put {parts : List String} (h : store.walk path place parts = .ok place')
    (htarget : store.entryAt target ≠ .directory) :
    (store.put target content).walk path place parts = .ok place' := by
  induction parts generalizing place with
  | nil => exact h
  | cons part parts ih =>
    rw [walk] at h ⊢
    cases hentry : store.entryAt place with
    | directory =>
      rw [hentry] at h
      rw [entryAt_put_of_directory hentry htarget]
      exact ih h
    | file content =>
      rw [hentry] at h
      cases h
    | missing =>
      rw [hentry] at h
      cases h

lemma parts_ne_nil (path : List Char) : Path.parts path ≠ [] := by
  cases path with
  | nil => exact List.cons_ne_nil _ _
  | cons c path =>
    rw [Path.parts, List.foldr_cons]
    split
    · split <;> exact List.cons_ne_nil _ _
    · exact List.cons_ne_nil _ _

/-- A path that does not end in a slash keeps all its parts. -/
lemma trimSlashes_eq_self {path : List Char} (h : path.getLast? ≠ some '/') :
    Path.trimSlashes path = path := by
  have htrimmed : path.reverse.dropWhile (· == '/') = path.reverse := by
    cases hreverse : path.reverse with
    | nil => rfl
    | cons c rest =>
      have hc : c ≠ '/' := by
        rintro rfl
        rw [← List.head?_reverse, hreverse] at h
        exact h rfl
      rw [List.dropWhile_cons_of_neg (by simpa using hc)]
  unfold Path.trimSlashes
  rw [htrimmed, List.reverse_reverse]
  exact ite_self path

/-- Where a file can be located, its path leads. -/
lemma resolve_of_locate {part : String} (h : store.locate path = .ok (place, part))
    (hend : path.toList.getLast? ≠ some '/') :
    store.resolve path = .ok (placeAfter place part) := by
  unfold locate at h
  unfold resolve
  split_ifs at h ⊢
  rw [trimSlashes_eq_self hend, String.ofList_toList] at h
  obtain ⟨front, last, hparts⟩ : ∃ front last, partsOf path = front ++ [last] := by
    have hne : partsOf path ≠ [] := by simpa [partsOf] using parts_ne_nil path.toList
    exact ⟨_, _, (List.dropLast_concat_getLast hne).symm⟩
  dsimp only at h
  rw [hparts, List.dropLast_concat, List.getLast?_concat] at h
  obtain ⟨found, hwalk, h⟩ := bind_eq_ok_iff.mp h
  rw [hparts, walk_append, hwalk]
  show store.walk path found [last] = _
  rw [walk]
  cases hentry : store.entryAt found with
  | directory =>
    rw [hentry] at h
    cases h
    rfl
  | file content =>
    rw [hentry] at h
    cases h
  | missing =>
    rw [hentry] at h
    cases h

/-! ### Reading what has been written -/

/-- A text can be written to a path that leads, through directories, to a place where there is no
directory, and it is put there. -/
lemma exists_put_of_writeFile (h : store.writeFile path text = .ok store') :
    ∃ target, store.resolve path = .ok target ∧ store.entryAt target ≠ .directory ∧
      store' = store.put target (.plain (Utf8.ofString text)) := by
  unfold writeFile at h
  obtain ⟨⟨place, part⟩, hlocate, h⟩ := bind_eq_ok_iff.mp h
  dsimp only at h
  split at h
  · cases h
  · next htarget =>
    split at h
    · cases h
    · next hend =>
      cases h
      exact ⟨_, resolve_of_locate hlocate hend, htarget, rfl⟩

lemma resolve_put (h : store.resolve path = .ok place)
    (htarget : store.entryAt target ≠ .directory) :
    (store.put target content).resolve path = .ok place := by
  unfold resolve at h ⊢
  split_ifs at h ⊢
  exact walk_put h htarget

/-- What has been written to a path can be read there. -/
theorem openFile_writeFile (h : store.writeFile path text = .ok store') :
    store'.openFile path = .ok (.plain (Utf8.ofString text)) := by
  obtain ⟨target, hresolve, htarget, rfl⟩ := exists_put_of_writeFile h
  refine bind_eq_ok_iff.mpr ⟨target, resolve_put hresolve htarget, ?_⟩
  rw [entryAt_put_self]
  rfl

/-- A report that has been written can be read at its path. -/
theorem openFile_writeReport (h : (store.writeReport path text).2 = none) :
    (store.writeReport path text).1.openFile path = .ok (.plain (Utf8.ofString text)) := by
  obtain ⟨store₁, failure?, hmade⟩ : ∃ store₁ failure?,
      (if (Path.parent path).isEmpty || store.pathExists (Path.parent path) then (store, none)
        else store.makeDirectories (Path.parent path)) = (store₁, failure?) :=
    ⟨_, _, Prod.mk.eta.symm⟩
  unfold writeReport at h ⊢
  dsimp only at h ⊢
  rw [hmade] at h ⊢
  cases failure? with
  | some failure => cases h
  | none =>
    dsimp only at h ⊢
    cases hwrite : store₁.writeFile path text with
    | error failure =>
      rw [hwrite] at h
      cases h
    | ok written => exact openFile_writeFile hwrite

end RecordSchema.FileStore
