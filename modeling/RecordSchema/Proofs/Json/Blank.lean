import Mathlib.Data.List.TakeWhile
import RecordSchema.Proofs.Json.Completeness

/-!
# Blank files

A file without a value is looked at twice: by the reader, which finds no value in it, and piece by
piece for anything but whitespace.  The second look does not depend on the size of the pieces
(`Whitespace.fillsPieces_iff`), and both looks agree on what whitespace is.  So the second one only
takes back what was reported for want of a value (`Source.ofBytes_eq`), and a file that has no
records and does not fail is blank (`FileStore.source_empty_iff`).
-/

namespace RecordSchema

open Json

/-! ### Pieces -/

namespace Whitespace

variable {bytes : List UInt8}

lemma forall_mem_dropWhile_iff :
    (∀ b ∈ bytes.dropWhile isSpace, isSpace b = true) ↔ ∀ b ∈ bytes, isSpace b = true := by
  constructor
  · intro h b hb
    rw [← List.takeWhile_append_dropWhile (p := isSpace) (l := bytes), List.mem_append] at hb
    exact hb.elim List.mem_takeWhile_imp (h b)
  · exact fun h b hb => h b (List.dropWhile_sublist isSpace |>.mem hb)

lemma strip_eq_nil_iff : strip bytes = [] ↔ ∀ b ∈ bytes, isSpace b = true := by
  rw [strip, List.reverse_eq_nil_iff, List.dropWhile_eq_nil_iff]
  simp only [List.mem_reverse]
  exact forall_mem_dropWhile_iff

/-- Whitespace is found in pieces of any size, wherever they are cut. -/
theorem fillsPieces_iff {size : ℕ} (hsize : 0 < size) :
    fillsPieces size bytes = true ↔ ∀ b ∈ bytes, isSpace b = true := by
  induction bytes using fillsPieces.induct size with
  | case1 bytes ended =>
    have hbytes : bytes = [] := (List.take_eq_nil_iff.mp ended).resolve_left hsize.ne'
    rw [fillsPieces, if_pos ended, hbytes]
    simp
  | case2 bytes more ih =>
    rw [fillsPieces, if_neg more, Bool.and_eq_true, List.isEmpty_iff, strip_eq_nil_iff, ih,
      ← List.forall_mem_append, List.take_append_drop]

theorem fills_iff : fills bytes = true ↔ ∀ b ∈ bytes, isSpace b = true :=
  fillsPieces_iff (by decide)

end Whitespace

/-! ### Both looks -/

lemma Whitespace.isSpace_iff (b : UInt8) :
    isSpace b = true ↔ b ∈ ([0x20, 0x09, 0x0a, 0x0d, 0x0b, 0x0c] : List UInt8) :=
  List.contains_iff_mem

/-- The reader has the same whitespace. -/
lemma Json.Reader.isBlank_iff (b : UInt8) : isBlank b = true ↔ Whitespace.isSpace b = true := by
  rw [Whitespace.isSpace_iff]
  simp only [isBlank, Bool.or_eq_true, Bool.and_eq_true, decide_eq_true_eq, List.mem_cons,
    List.not_mem_nil, or_false, UInt8.le_iff_toNat_le, ← UInt8.toNat_inj, UInt8.reduceToNat]
  omega

lemma Json.gap_iff_fills {bytes : List UInt8} : Gap bytes ↔ Whitespace.fills bytes = true := by
  rw [Whitespace.fills_iff]
  exact forall₂_congr fun b _ => Reader.isBlank_iff b

/-- The texts of no values are whitespace. -/
lemma Json.texts_nil_iff {bytes : List UInt8} : Texts bytes [] ↔ Gap bytes := by
  constructor
  · rintro ⟨last, h⟩
    generalize hvalues : ([] : List Value) = values at h
    induction h with
    | nil => exact gap_nil
    | blank _ hb ih => exact (ih hvalues).append hb
    | text => simp at hvalues
  · intro h
    induction bytes using List.reverseRecOn with
    | nil => exact ⟨[], .nil⟩
    | append_singleton bytes b ih =>
      obtain ⟨hbytes, hb⟩ := List.forall_mem_append.mp h
      obtain ⟨last, htexts⟩ := ih hbytes
      exact ⟨[], htexts.blank (hb b List.mem_cons_self)⟩

/-- The reader finds no value and nothing wrong exactly in whitespace: a string that is cut off is
only passed over after a value. -/
theorem Json.read_eq_nil_iff {bytes : List UInt8} : read bytes = ⟨[], none⟩ ↔ Gap bytes := by
  rw [read_eq_iff, texts_nil_iff, or_iff_left]
  rintro ⟨-, -, -, -, hvalues, -⟩
  exact hvalues rfl

namespace Source

/-- The second look takes back exactly what was reported for want of a value. -/
theorem ofBytes_eq (name : String) (bytes : List UInt8) :
    ofBytes name bytes = ⟨name, (read bytes).values,
      (read bytes).defect?.map (Defect.toFailure name (read bytes).values.length)⟩ := by
  have hblank : read bytes = ⟨[], none⟩ ↔ Whitespace.fills bytes = true :=
    read_eq_nil_iff.trans gap_iff_fills
  unfold ofBytes Reading.reported?
  generalize read bytes = reading at hblank
  obtain ⟨values, defect?⟩ := reading
  cases values with
  | cons value values => simp
  | nil =>
    cases defect? with
    | none =>
      have hfills : Whitespace.fills bytes = true := hblank.mp rfl
      simp [hfills]
    | some defect =>
      have hfills : ¬ Whitespace.fills bytes = true := fun h => by cases hblank.mpr h
      simp [hfills]

lemma failure?_ofBytes_eq_none_iff {name : String} {bytes : List UInt8} :
    (ofBytes name bytes).failure? = none ↔ (read bytes).defect? = none := by
  rw [ofBytes_eq]
  exact Option.map_eq_none_iff

lemma ofBytes_empty_iff {name : String} {bytes : List UInt8} :
    (ofBytes name bytes).records = [] ∧ (ofBytes name bytes).failure? = none ↔
      ∀ b ∈ bytes, Whitespace.isSpace b = true := by
  rw [failure?_ofBytes_eq_none_iff, ← Whitespace.fills_iff, ← gap_iff_fills, ← read_eq_nil_iff]
  show (read bytes).values = [] ∧ _ ↔ _
  generalize read bytes = reading
  cases reading
  simp

/-- A file that cannot be read to its end fails. -/
lemma failure?_ofPart_ne_none (name : String) (bytes : List UInt8) (failure : Failure) :
    (ofPart name bytes failure).failure? ≠ none := by
  unfold ofPart
  dsimp only
  split
  · exact Option.some_ne_none _
  · split <;> exact Option.some_ne_none _

end Source

namespace FileStore

variable {path : String} {bytes : List UInt8} {failure : Failure}

/-- A file that can be read to its end. -/
lemma source_of_deliver (store : FileStore) (h : store.deliver path = ⟨bytes, none⟩) :
    store.source path = .ofBytes path bytes := by
  rw [source, h]
  rfl

/-- A file that fails after some bytes. -/
lemma source_of_deliver_failing (store : FileStore)
    (h : store.deliver path = ⟨bytes, some failure⟩) :
    store.source path = .ofPart path bytes failure := by
  rw [source, h]
  rfl

lemma source_of_readFile (store : FileStore) (h : store.readFile path = .ok bytes) :
    store.source path = .ofBytes path bytes := by
  unfold readFile at h
  split at h
  · next found hdelivery =>
    cases h
    exact store.source_of_deliver hdelivery
  · cases h

lemma source_of_readFile_error (store : FileStore) (h : store.readFile path = .error failure) :
    ∃ bytes, store.source path = .ofPart path bytes failure := by
  unfold readFile at h
  split at h
  · cases h
  · next found other hdelivery =>
    cases h
    exact ⟨found, store.source_of_deliver_failing hdelivery⟩

end FileStore

/-- A file has no records and does not fail exactly if it can be read and holds nothing but
whitespace.  The look through its pieces finds the same, and nothing that the reader objects to
passes for blank. -/
theorem FileStore.source_empty_iff (store : FileStore) (path : String) :
    ((store.source path).records = [] ∧ (store.source path).failure? = none ↔
      ∃ bytes, store.readFile path = .ok bytes ∧
        ∀ b ∈ bytes, b ∈ ([0x20, 0x09, 0x0a, 0x0d, 0x0b, 0x0c] : List UInt8)) ∧
    ∀ bytes, (Whitespace.fills bytes = true ↔ read bytes = ⟨[], none⟩) ∧
      ((Source.ofBytes path bytes).failure? = none ↔ (read bytes).defect? = none) := by
  refine ⟨?_, fun bytes => ⟨(read_eq_nil_iff.trans gap_iff_fills).symm,
    Source.failure?_ofBytes_eq_none_iff⟩⟩
  cases hread : store.readFile path with
  | ok bytes =>
    rw [store.source_of_readFile hread]
    simp only [Except.ok.injEq, exists_eq_left', ← Whitespace.isSpace_iff]
    exact Source.ofBytes_empty_iff
  | error failure =>
    obtain ⟨bytes, hsource⟩ := store.source_of_readFile_error hread
    rw [hsource]
    constructor
    · rintro ⟨-, hended⟩
      exact absurd hended (Source.failure?_ofPart_ne_none path bytes failure)
    · rintro ⟨_, h, -⟩
      cases h

end RecordSchema
