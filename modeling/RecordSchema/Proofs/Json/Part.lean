import RecordSchema.Proofs.Json.Blank

/-!
# Beginnings of inputs

A file that is damaged or cut off only yields the bytes up to there.  A value counts from the
moment it is complete, and no byte that is taken afterwards makes the reader forget one
(`Reader.keeps_run`).  So what is read of the beginning of an input are the first values of the
whole input, and a defect that is met in the beginning is the defect of the whole (`read_append`).

The second look at an input without a value meets something before the bytes end, if the reader has
met something, and fails as the first one did otherwise (`Source.ofPart_eq`).
-/

namespace RecordSchema

open Json

namespace Json

/-- These values, the last one first, are still there: in what has been found, or where reading has
stopped. -/
def Keeps {α : Type} (found : α → List Value) (values : List Value) : Except Stop α → Prop
  | .ok a => values <:+ found a
  | .error stop => values <:+ stop.values

section Keeps

variable {α : Type} {found : α → List Value} {values : List Value}

lemma Keeps.ite {p : Prop} [Decidable p] {result other : Except Stop α}
    (h : Keeps found values result) (h' : Keeps found values other) :
    Keeps found values (if p then result else other) := by
  split
  · exact h
  · exact h'

lemma Keeps.trans {before : List Value} (hbefore : before <:+ values) {result : Except Stop α}
    (h : Keeps found values result) : Keeps found before result := by
  cases result with
  | ok a => exact hbefore.trans h
  | error stop => exact hbefore.trans h

lemma Keeps.bind {result : Except Stop Reader} (h : Keeps Reader.values values result)
    {next : Reader → Except Stop α} (hnext : ∀ r, Keeps found r.values (next r)) :
    Keeps found values (result >>= next) := by
  cases result with
  | error stop => exact h
  | ok r => exact (hnext r).trans h

end Keeps

namespace Reader

variable {r : Reader}

/-! ### Tokens and bytes -/

lemma keeps_same {next : Reader} (h : next.values = r.values) :
    Keeps Reader.values r.values (.ok next) :=
  h ▸ List.suffix_refl _

lemma keeps_stop (r : Reader) (defect : Defect) :
    Keeps Reader.values r.values (r.stop defect) :=
  List.suffix_refl _

lemma keeps_complete (r : Reader) (value : Value) :
    Keeps Reader.values r.values (r.complete value) := by
  unfold complete
  split
  · exact List.suffix_cons value r.values
  · exact keeps_same rfl
  · exact keeps_same rfl
  · exact keeps_stop r _

lemma keeps_closeArray (r : Reader) : Keeps Reader.values r.values r.closeArray := by
  unfold closeArray
  split
  · next items frames _ => exact keeps_complete { r with frames } _
  · exact keeps_stop r _

lemma keeps_closeObject (r : Reader) : Keeps Reader.values r.values r.closeObject := by
  unfold closeObject
  split
  · next members frames _ => exact keeps_complete { r with frames } _
  · exact keeps_stop r _

lemma keeps_beginMember (r : Reader) (raw : List UInt8) :
    Keeps Reader.values r.values (r.beginMember raw) := by
  unfold beginMember
  split
  · split
    · exact keeps_same rfl
    · exact keeps_stop r _
  · exact keeps_stop r _

lemma keeps_goOn (r : Reader) : Keeps Reader.values r.values r.goOn := by
  unfold goOn
  split
  · exact keeps_same rfl
  · exact keeps_same rfl
  · exact keeps_stop r _

lemma keeps_takeValue (r : Reader) (token : Token) :
    Keeps Reader.values r.values (r.takeValue token) := by
  unfold takeValue
  split
  · exact keeps_complete r _
  · split
    · exact keeps_complete r _
    · exact keeps_stop r _
  · split
    · exact keeps_complete r _
    · exact keeps_stop r _
  · exact keeps_same rfl
  · exact keeps_same rfl
  · exact keeps_stop r _

lemma keeps_take (r : Reader) (token : Token) :
    Keeps Reader.values r.values (r.take token) := by
  unfold take
  split
  · exact keeps_closeArray r
  · exact keeps_takeValue r _
  · exact keeps_takeValue r _
  · exact keeps_closeObject r
  · exact keeps_beginMember r _
  · exact keeps_beginMember r _
  · exact keeps_same rfl
  · exact keeps_goOn r
  · exact keeps_closeArray r
  · exact keeps_closeObject r
  · exact keeps_stop r _

lemma keeps_begin (r : Reader) (b : UInt8) : Keeps Reader.values r.values (r.begin b) := by
  unfold begin
  refine .ite (keeps_same rfl) (.ite (keeps_same rfl) ?_)
  iterate 6 refine .ite (keeps_take r _) ?_
  refine .ite (keeps_same rfl) (.ite (keeps_same rfl) (.ite (keeps_same rfl) ?_))
  split
  · exact keeps_same rfl
  · exact keeps_stop r _

lemma keeps_stepString (r : Reader) (mode : StringMode) (met : List UInt8) (b : UInt8) :
    Keeps Reader.values r.values (r.stepString mode met b) := by
  rcases stepString_cases r met b mode with ⟨-, -, hstep⟩ | ⟨next, hstep, -⟩ | hstep
  · rw [hstep]
    exact keeps_take r _
  · rw [hstep]
    exact keeps_same rfl
  · rw [hstep]
    exact keeps_stop r _

/-- One byte takes no value away. -/
theorem keeps_step (r : Reader) (b : UInt8) : Keeps Reader.values r.values (r.step b) := by
  unfold Reader.step
  split
  · exact keeps_begin r b
  · split
    · exact .ite (keeps_stop r _) (.ite (keeps_take r _) (keeps_same rfl))
    · exact keeps_stop r _
  · split
    · exact keeps_same rfl
    · exact (keeps_take r _).bind fun next => keeps_begin next b
    · exact keeps_stop r _
  · exact keeps_stepString r _ _ b

/-- Nor does any number of bytes. -/
theorem keeps_run (r : Reader) (bytes : List UInt8) :
    Keeps Reader.values r.values (r.run bytes) := by
  induction bytes generalizing r with
  | nil => exact keeps_same rfl
  | cons b bytes ih =>
    rw [run_cons]
    exact (keeps_step r b).bind ih

lemma keeps_conclude (r : Reader) : Keeps id r.values r.conclude := by
  unfold conclude
  refine .ite (List.suffix_refl _) ?_
  split
  · exact .ite (List.suffix_refl _) (List.suffix_refl _)
  · exact List.suffix_refl _

/-- Nor does the end of the input. -/
theorem keeps_finish (r : Reader) : Keeps id r.values r.finish :=
  (keeps_step r 0x20).bind keeps_conclude

end Reader

/-! ### The beginning and the whole -/

lemma values_isPrefix_of_keeps {bytes : List UInt8} {values : List Value}
    (h : Keeps id values (({ : Reader }.run bytes).bind Reader.finish)) :
    values.reverse <+: (read bytes).values := by
  unfold read
  cases hresult : ({ : Reader }.run bytes).bind Reader.finish with
  | ok found =>
    rw [hresult] at h
    exact List.reverse_prefix.mpr h
  | error stop =>
    rw [hresult] at h
    exact List.reverse_prefix.mpr h

/-- What is read of the beginning of an input are the first values of the whole input, and if there
is a defect in it, that is all. -/
theorem read_append (bytes more : List UInt8) :
    (readPart bytes).values <+: (read (bytes ++ more)).values ∧
      ((readPart bytes).defect?.isSome → read (bytes ++ more) = readPart bytes) := by
  cases hrun : ({ : Reader }.run bytes) with
  | error stop =>
    have heq : read (bytes ++ more) = readPart bytes := by
      rw [read, readPart, run_append, hrun]
      rfl
    exact ⟨heq ▸ List.prefix_refl _, fun _ => heq⟩
  | ok r =>
    have hpart : readPart bytes = ⟨r.values.reverse, none⟩ := by rw [readPart, hrun]
    rw [hpart]
    refine ⟨values_isPrefix_of_keeps ?_, fun h => absurd h Bool.false_ne_true⟩
    rw [Reader.run_append_of_ok hrun]
    exact (Reader.keeps_run r more).bind Reader.keeps_finish

lemma Reader.Holds.beginning {r : Reader} {bytes : List UInt8} (h : r.Holds bytes) :
    Beginning r.values bytes := by
  cases h with
  | between _ reaches => exact reaches.beginning
  | word _ split reaches => exact split ▸ reaches.beginning.append _
  | number _ split reaches => exact split ▸ reaches.beginning.append _
  | string _ split reaches => exact split ▸ reaches.beginning.append _

/-- The values that are read of the beginning of an input are those of complete texts. -/
lemma exists_texts_of_readPart (bytes : List UInt8) :
    ∃ front rest, bytes = front ++ rest ∧ Texts front (readPart bytes).values := by
  have hstart : Reader.Holds {} [] := .between rfl (.texts .nil) not_extends_nil
  have hrun := hstart.run bytes
  rw [List.nil_append] at hrun
  unfold readPart
  cases hresult : ({ : Reader }.run bytes) with
  | error stop =>
    rw [hresult] at hrun
    cases hrun with
    | stopped h => exact h
  | ok r =>
    rw [hresult] at hrun
    cases hrun with
    | result h => exact h.beginning

/-- The reader finds nothing wrong with whitespace. -/
lemma defect?_readPart_of_gap {bytes : List UInt8} (h : Gap bytes) :
    (readPart bytes).defect? = none := by
  rw [readPart, Reader.run_gap rfl h]

end Json

namespace Source

/-- The second look does not matter to bytes after which reading fails. -/
theorem ofPart_eq (name : String) (bytes : List UInt8) (failure : Failure) :
    ofPart name bytes failure = ⟨name, (readPart bytes).values,
      some (((readPart bytes).defect?.map
        (Defect.toFailure name (readPart bytes).values.length)).getD failure)⟩ := by
  have hblank : Whitespace.fills bytes = true → (readPart bytes).defect? = none :=
    fun hfills => defect?_readPart_of_gap (gap_iff_fills.mpr hfills)
  unfold ofPart
  generalize readPart bytes = reading at hblank
  obtain ⟨values, defect?⟩ := reading
  cases defect? with
  | none => rfl
  | some defect =>
    have hfills : ¬ Whitespace.fills bytes = true := fun hfills => by cases hblank hfills
    simp [hfills]

/-- The records of a file that cannot be read to its end are the first ones of the whole file. -/
theorem records_ofPart_isPrefix (name : String) (bytes more : List UInt8) (failure : Failure) :
    (ofPart name bytes failure).records <+: (ofBytes name (bytes ++ more)).records :=
  (read_append bytes more).1

end Source

end RecordSchema
