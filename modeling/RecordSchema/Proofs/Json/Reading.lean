import RecordSchema.Proofs.Json.Part

/-!
# Files and their texts

The records of a file are the values of complete texts with which its bytes begin, whatever comes
after them.  A file that is read without a failure consists of these texts, with one exception: a
string that comes after at least one text and has no second quote is passed over
(`Source.reads_whole_texts`).  Numbers, words and containers that are cut off, and strings that are cut
off inside of containers, are always noticed.
-/

namespace RecordSchema

open Json

/-- What is read is clean and of supported types, also from an input that is malformed later. -/
theorem Json.isSound_of_mem_read {bytes : List UInt8} {value : Value}
    (h : value ∈ (read bytes).values) : value.Clean ∧ value.Supported := by
  obtain ⟨front, rest, -, htexts⟩ := exists_texts_of_read bytes
  exact htexts.isSound value h

/-- So is what is read of the beginning of an input. -/
lemma Json.isSound_of_mem_readPart {bytes : List UInt8} {value : Value}
    (h : value ∈ (readPart bytes).values) : value.Clean ∧ value.Supported := by
  obtain ⟨front, rest, -, htexts⟩ := exists_texts_of_readPart bytes
  exact htexts.isSound value h

section FileStore

variable {store : FileStore} {path : String} {record : Value}

lemma FileStore.isSound_of_mem_source (h : record ∈ (store.source path).records) :
    record.Clean ∧ record.Supported := by
  unfold FileStore.source Delivery.source at h
  split at h
  · exact isSound_of_mem_read h
  · exact isSound_of_mem_readPart h

/-- The records of a file are clean. -/
theorem FileStore.clean_of_mem_source (h : record ∈ (store.source path).records) : record.Clean :=
  (FileStore.isSound_of_mem_source h).1

end FileStore

/-- The records of a source end with its failure, or they are all there is. -/
lemma Source.ofBytes_eq_iff {name : String} {bytes : List UInt8} {values : List Value} :
    Source.ofBytes name bytes = ⟨name, values, none⟩ ↔ read bytes = ⟨values, none⟩ := by
  rw [Source.ofBytes_eq]
  obtain ⟨found, defect?⟩ := read bytes
  simp only [Source.mk.injEq, Reading.mk.injEq, true_and, Option.map_eq_none_iff]

/-- The records of a source are the values of texts with which its bytes begin.  There is no failure
exactly if these are all its bytes, or an unfinished string comes after at least one text. -/
theorem Source.reads_whole_texts (name : String) (bytes : List UInt8) :
    (∃ front rest, bytes = front ++ rest ∧ Texts front (Source.ofBytes name bytes).records) ∧
    ∀ values, Source.ofBytes name bytes = ⟨name, values, none⟩ ↔
      Texts bytes values ∨ Unfinished bytes values := by
  constructor
  · exact exists_texts_of_read bytes
  · intro values
    rw [Source.ofBytes_eq_iff, read_eq_iff]

/-- A word and a string that is cut off: the word is all that is read, and nothing fails, although
these bytes are no sequence of complete texts. -/
theorem Source.cut_string_passed_over :
    Source.ofBytes "a.json" (Utf8.ofString "null \"abc") = ⟨"a.json", [.null], none⟩ ∧
    ¬ ∃ values, Texts (Utf8.ofString "null \"abc") values := by
  have hbytes : Utf8.ofString "null \"abc" =
      [0x6e, 0x75, 0x6c, 0x6c, 0x20] ++ 0x22 :: [0x61, 0x62, 0x63] := by decide +kernel
  have hform : StringForm [0x61, 0x62, 0x63] :=
    ((StringForm.nil.append (.ascii (b := 0x61) (by decide) (by decide) (by decide) (by decide))).append
      (.ascii (b := 0x62) (by decide) (by decide) (by decide) (by decide))).append
      (.ascii (b := 0x63) (by decide) (by decide) (by decide) (by decide))
  have htexts : Texts [0x6e, 0x75, 0x6c, 0x6c, 0x20] [.null] :=
    ⟨[], .blank (.text .nil .null fun b _ => not_extends_nil b) rfl⟩
  have hunfinished : Unfinished (Utf8.ofString "null \"abc") [.null] :=
    ⟨_, _, hbytes, hform, List.cons_ne_nil _ _, htexts⟩
  constructor
  · exact Source.ofBytes_eq_iff.mpr (read_of_unfinished hunfinished)
  · rintro ⟨values, h⟩
    exact not_texts_of_unfinished hunfinished values h

end RecordSchema
