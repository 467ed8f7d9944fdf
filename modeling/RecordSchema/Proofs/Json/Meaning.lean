import RecordSchema.Proofs.Json.Blank

/-!
# Tokens without a meaning

A token can be well-formed and still have no meaning: the bytes of a string need not be a text, and
the powers of ten of a number can be out of bounds.  Reading stops at such a token as it does where
the input is malformed, but it fails otherwise, and that failure names no file.

The grammar tells at which tokens this happens.  `Awaits` describes the places where a value or the
name of a member may come next, and `Meaningless` says that a token without a meaning stands at such
a place.  Reading stops with one of the two defects exactly where this is so, after the values before
it (`read_eq_iff_meaningless`), and every other defect makes an input malformed
(`Source.failure_cases`).
-/

namespace RecordSchema

open Json

namespace Json

open Reader

/-! ### Places -/

/-- What may come next. -/
inductive Place where
  | value
  /-- The name of a member. -/
  | name

/-- After the bytes there is a place of this kind, and texts of these values are complete.  The last
bytes are those of the last text if nothing stands after it. -/
inductive Awaits : Place → List UInt8 → List Value → List UInt8 → Prop
  | texts {bytes last : List UInt8} {values : List Value} (texts : TextsUpTo bytes values last) :
      Awaits .value bytes values last
  | item {bytes last inner : List UInt8} {values items : List Value}
      (outer : Awaits .value bytes values last) (lead : Spells inner (.itemLead items)) :
      Awaits .value (bytes ++ 0x5b :: inner) values []
  | name {bytes last inner : List UInt8} {values : List Value} {members : List (String × Value)}
      (outer : Awaits .value bytes values last) (lead : Spells inner (.memberLead members)) :
      Awaits .name (bytes ++ 0x7b :: inner) values []
  | member {bytes last raw gap gap' : List UInt8} {values : List Value} {name : String}
      (before : Awaits .name bytes values last) (form : StringForm raw)
      (decoded : stringText raw = .ok name) (blank : Gap gap) (blank' : Gap gap') :
      Awaits .value (bytes ++ quoted raw ++ gap ++ 0x3a :: gap') values []

/-- A token without a meaning comes next, after complete texts of these values. -/
inductive Meaningless : Defect → List UInt8 → List Value → Prop
  | text {place : Place} {front last raw rest : List UInt8} {values : List Value}
      {fault : Utf8.Fault} (before : Awaits place front values last) (form : StringForm raw)
      (undecoded : stringText raw = .error fault) :
      Meaningless (.text fault) (front ++ quoted raw ++ rest) values
  | number {front last rest : List UInt8} {values : List Value} {number : Number}
      (before : Awaits .value front values last) (apart : ∀ b ∈ number.text.head?, ¬ Extends last b)
      (ended : ∀ b ∈ rest.head?, ¬ Extends number.text b) (unbounded : number.value? = none) :
      Meaningless .number (front ++ number.text ++ rest) values

/-- What the reader expects may stand at a place of this kind. -/
def Expected.Admits (expected : Expected) : Place → Prop
  | .value => expected.TakesValue
  | .name => expected = .name ∨ expected = .nameOrClose

/-- The places that a reader knows of are those of the grammar. -/
lemma Reaches.awaits {expected : Expected} {frames : List Frame} {values : List Value}
    {bytes last : List UInt8} (h : Reaches expected frames values bytes last) {place : Place}
    (admits : expected.Admits place) : Awaits place bytes values.reverse last := by
  -- after an entry and after a name there is no place, and the others are places of one kind each
  induction h generalizing place with
  | texts texts =>
    cases place with
    | value => exact .texts texts
    | name => rcases admits with h | h <;> cases h
  | arrayLead _ takes lead next ih =>
    cases place with
    | value => exact .item (ih takes) lead
    | name => rcases next with rfl | ⟨rfl, -⟩ <;> rcases admits with h | h <;> cases h
  | objectLead _ takes lead next ih =>
    cases place with
    | value => rcases next with rfl | ⟨rfl, -⟩ <;> rcases admits with h | h <;> cases h
    | name => exact .name (ih takes) lead
  | memberColon _ takes lead form decoded blank blank' ih =>
    cases place with
    | value =>
      have hmember := (Awaits.name (ih takes) lead).member form decoded blank blank'
      simpa only [List.append_assoc, List.cons_append] using hmember
    | name => rcases admits with h | h <;> cases h
  | arrayItems | objectMembers | memberName =>
    cases place <;> rcases admits with h | h <;> cases h

/-! ### What stops a reader -/

/-- A token at a place of this kind has no meaning. -/
inductive Token.Fails : Token → Place → Defect → Prop
  | text {place : Place} {raw : List UInt8} {fault : Utf8.Fault}
      (undecoded : stringText raw = .error fault) : Fails (.string raw) place (.text fault)
  | number {numeral : Numeral} (unbounded : numeral.value? = none) :
      Fails (.number numeral) .value .number

/-- If there is a defect in the result, the input is malformed. -/
def Regular {α : Type} (result : Except Stop α) : Prop :=
  ∀ stop, result = .error stop → stop.defect = .malformed

section Regular

variable {α : Type} {result other : Except Stop α}

lemma regular_ok (a : α) : Regular (.ok a) := by
  intro stop h
  cases h

lemma regular_stop (r : Reader) : Regular (r.stop .malformed) := by
  intro stop h
  cases h
  rfl

lemma Regular.ite {p : Prop} [Decidable p] (h : Regular result) (h' : Regular other) :
    Regular (if p then result else other) := by
  split
  · exact h
  · exact h'

end Regular

namespace Reader

variable {r : Reader} {stop : Stop} {token : Token} {raw : List UInt8} {b : UInt8}

lemma regular_complete (r : Reader) (value : Value) : Regular (r.complete value) := by
  unfold complete
  split
  · exact regular_ok _
  · exact regular_ok _
  · exact regular_ok _
  · exact regular_stop r

lemma regular_closeArray (r : Reader) : Regular r.closeArray := by
  unfold closeArray
  split
  · exact regular_complete _ _
  · exact regular_stop r

lemma regular_closeObject (r : Reader) : Regular r.closeObject := by
  unfold closeObject
  split
  · exact regular_complete _ _
  · exact regular_stop r

lemma regular_goOn (r : Reader) : Regular r.goOn := by
  unfold goOn
  split
  · exact regular_ok _
  · exact regular_ok _
  · exact regular_stop r

lemma fails_of_beginMember (h : r.beginMember raw = .error stop)
    (hdefect : stop.defect ≠ .malformed) :
    stop.values = r.values ∧ (Token.string raw).Fails .name stop.defect := by
  unfold beginMember at h
  split at h
  · split at h
    · cases h
    · next fault undecoded =>
      cases h
      exact ⟨rfl, .text undecoded⟩
  · exact absurd (regular_stop r stop h) hdefect

lemma fails_of_takeValue (h : r.takeValue token = .error stop)
    (hdefect : stop.defect ≠ .malformed) :
    stop.values = r.values ∧ token.Fails .value stop.defect := by
  unfold takeValue at h
  split at h
  · exact absurd (regular_complete r _ stop h) hdefect
  · split at h
    · exact absurd (regular_complete r _ stop h) hdefect
    · next unbounded =>
      cases h
      exact ⟨rfl, .number unbounded⟩
  · split at h
    · exact absurd (regular_complete r _ stop h) hdefect
    · next fault undecoded =>
      cases h
      exact ⟨rfl, .text undecoded⟩
  · cases h
  · cases h
  · exact absurd (regular_stop r stop h) hdefect

/-- Of the tokens, only strings and numbers can fail for what they mean. -/
theorem fails_of_take (h : r.take token = .error stop) (hdefect : stop.defect ≠ .malformed) :
    stop.values = r.values ∧ ∃ place, r.expected.Admits place ∧ token.Fails place stop.defect := by
  have hvalue : r.expected.TakesValue → r.takeValue token = .error stop →
      stop.values = r.values ∧ ∃ place, r.expected.Admits place ∧ token.Fails place stop.defect := by
    intro takes h
    obtain ⟨hvalues, hfails⟩ := fails_of_takeValue h hdefect
    exact ⟨hvalues, .value, takes, hfails⟩
  have hname : ∀ {raw : List UInt8}, (r.expected = .name ∨ r.expected = .nameOrClose) →
      r.beginMember raw = .error stop → stop.values = r.values ∧
        ∃ place, r.expected.Admits place ∧ (Token.string raw).Fails place stop.defect := by
    intro raw admits h
    obtain ⟨hvalues, hfails⟩ := fails_of_beginMember h hdefect
    exact ⟨hvalues, .name, admits, hfails⟩
  unfold take at h
  split at h
  · exact absurd (regular_closeArray r stop h) hdefect
  · next hexpected => exact hvalue (Or.inl hexpected) h
  · next hexpected _ => exact hvalue (Or.inr hexpected) h
  · exact absurd (regular_closeObject r stop h) hdefect
  · next hexpected => exact hname (Or.inl hexpected) h
  · next hexpected => exact hname (Or.inr hexpected) h
  · cases h
  · exact absurd (regular_goOn r stop h) hdefect
  · exact absurd (regular_closeArray r stop h) hdefect
  · exact absurd (regular_closeObject r stop h) hdefect
  · exact absurd (regular_stop r stop h) hdefect

lemma regular_take (r : Reader) (hsound : ∀ place defect, ¬ token.Fails place defect) :
    Regular (r.take token) := by
  intro stop h
  by_contra hdefect
  obtain ⟨-, place, -, hfails⟩ := fails_of_take h hdefect
  exact hsound place stop.defect hfails

/-- Where a token begins it is not known yet what it means. -/
lemma regular_begin (r : Reader) (b : UInt8) : Regular (r.begin b) := by
  unfold Reader.begin
  refine .ite (regular_ok _) (.ite (regular_ok _) ?_)
  iterate 6 refine .ite (regular_take r fun place defect hfails => by cases hfails) ?_
  refine .ite (regular_ok _) (.ite (regular_ok _) (.ite (regular_ok _) ?_))
  split
  · exact regular_ok _
  · exact regular_stop r

/-- A token without a meaning that ends with the next byte, or before it. -/
inductive Meets (r : Reader) (b : UInt8) (defect : Defect) : Prop
  | string {place : Place} {met : List UInt8} (admits : r.expected.Admits place)
      (scan : r.scan = .string .plain met) (quote : b = 0x22)
      (fails : (Token.string met.reverse).Fails place defect) : Meets r b defect
  | number {place : Place} {numeral : Numeral} (admits : r.expected.Admits place)
      (scan : r.scan = .number numeral) (ended : numeral.step b = .complete)
      (fails : (Token.number numeral).Fails place defect) : Meets r b defect

/-- One byte. -/
theorem meets_of_step (h : r.step b = .error stop) (hdefect : stop.defect ≠ .malformed) :
    stop.values = r.values ∧ r.Meets b stop.defect := by
  unfold Reader.step at h
  split at h
  · exact absurd (regular_begin r b stop h) hdefect
  · have hword : ∀ value, Regular (r.take (.word value)) := fun value =>
      regular_take r fun place defect hfails => by cases hfails
    split at h
    · exact absurd (Regular.ite (regular_stop r) (.ite (hword _) (regular_ok _)) stop h) hdefect
    · exact absurd (regular_stop r stop h) hdefect
  · next numeral scan =>
    split at h
    · cases h
    · next ended =>
      cases htake : r.take (.number numeral) with
      | ok next =>
        rw [htake] at h
        exact absurd (regular_begin next b stop h) hdefect
      | error other =>
        rw [htake] at h
        cases h
        obtain ⟨hvalues, place, admits, hfails⟩ := fails_of_take htake hdefect
        exact ⟨hvalues, .number admits scan ended hfails⟩
    · exact absurd (regular_stop r stop h) hdefect
  · next mode met scan =>
    rcases stepString_cases r met b mode with ⟨rfl, quote, hstep⟩ | ⟨next, hstep, -⟩ | hstep
    · rw [hstep] at h
      obtain ⟨hvalues, place, admits, hfails⟩ := fails_of_take h hdefect
      exact ⟨hvalues, .string admits scan quote hfails⟩
    · rw [hstep] at h
      cases h
    · rw [hstep] at h
      exact absurd (regular_stop r stop h) hdefect

variable {bytes : List UInt8} {defect : Defect}

/-- What a reader meets is spelled out by the bytes it has taken and the next one.  A number may be
the last thing of all. -/
lemma Holds.meaningless (holds : r.Holds bytes) (h : r.Meets b defect) :
    (∀ more, Meaningless defect (bytes ++ b :: more) r.values.reverse) ∧
      (b ≠ 0x22 → Meaningless defect bytes r.values.reverse) := by
  cases h with
  | @string place met admits scan quote fails =>
    refine ⟨fun more => ?_, fun hne => absurd quote hne⟩
    cases holds with
    | @string front raw last mode scan' split reaches reads =>
      rw [scan] at scan'
      cases scan'
      cases fails with
      | text undecoded =>
        rw [List.reverse_reverse] at undecoded
        have hbytes : bytes ++ b :: more = front ++ quoted raw ++ more := by
          simp [split, quote, quoted]
        rw [hbytes]
        exact .text (reaches.awaits admits) reads.form undecoded
    | between idle => cases scan.symm.trans idle
    | word scan' => cases scan.symm.trans scan'
    | number scan' => cases scan.symm.trans scan'
  | @number place numeral admits scan ended fails =>
    cases holds with
    | @number front pending last other scan' split reaches apart read =>
      obtain rfl : numeral = other := by
        cases scan.symm.trans scan'
        rfl
      have hextends := Numeral.not_extends_of_complete read ended
      obtain ⟨number, rfl, rfl⟩ := (Numeral.reads_of_readAll? read).exists_number ended
      cases fails with
      | number unbounded =>
        rw [Numeral.value?_ofComplete] at unbounded
        -- the byte that completes the number is not one of its own
        have hmeaningless : ∀ rest : List UInt8, (∀ c ∈ rest.head?, ¬ Extends number.text c) →
            Meaningless .number (bytes ++ rest) r.values.reverse := by
          intro rest hrest
          rw [split]
          exact .number (reaches.awaits admits) apart hrest unbounded
        refine ⟨fun more => hmeaningless (b :: more) (by simpa using hextends), fun _ => ?_⟩
        have hend := hmeaningless [] (by simp)
        rwa [List.append_nil] at hend
    | between idle => cases scan.symm.trans idle
    | word scan' => cases scan.symm.trans scan'
    | string scan' => cases scan.symm.trans scan'

/-- Any number of bytes. -/
theorem Holds.meaningless_of_run (holds : r.Holds bytes) {more : List UInt8}
    (h : r.run more = .error stop) (hdefect : stop.defect ≠ .malformed) :
    Meaningless stop.defect (bytes ++ more) stop.values.reverse := by
  induction more generalizing r bytes with
  | nil => cases h
  | cons b more ih =>
    rw [run_cons] at h
    cases hstep : r.step b with
    | error other =>
      rw [hstep] at h
      cases h
      obtain ⟨hvalues, hmeets⟩ := meets_of_step hstep hdefect
      rw [hvalues]
      exact (holds.meaningless hmeets).1 more
    | ok next =>
      rw [hstep] at h
      have hnext := holds.step b
      rw [hstep] at hnext
      cases hnext with
      | result hnext =>
        have hrest := ih hnext h
        rwa [List.append_assoc] at hrest

lemma regular_conclude (r : Reader) : Regular r.conclude := by
  have hmalformed : Regular (.error ⟨.malformed, r.values⟩ : Except Stop (List Value)) := by
    intro stop h
    cases h
    rfl
  unfold conclude
  refine .ite hmalformed ?_
  split
  · exact .ite hmalformed (regular_ok _)
  · exact regular_ok _

/-- The end of the input. -/
lemma Holds.meaningless_of_finish (holds : r.Holds bytes) (h : r.finish = .error stop)
    (hdefect : stop.defect ≠ .malformed) :
    Meaningless stop.defect bytes stop.values.reverse := by
  rw [finish_eq] at h
  cases hstep : r.step 0x20 with
  | error other =>
    rw [hstep] at h
    cases h
    obtain ⟨hvalues, hmeets⟩ := meets_of_step hstep hdefect
    rw [hvalues]
    exact (holds.meaningless hmeets).2 (by decide)
  | ok next =>
    rw [hstep] at h
    exact absurd (regular_conclude next stop h) hdefect

end Reader

/-- Reading stops with a defect if the run or the end of the input does. -/
lemma read_eq_some_iff {bytes : List UInt8} {values : List Value} {defect : Defect} :
    read bytes = ⟨values, some defect⟩ ↔
      (Reader.run {} bytes).bind Reader.finish = .error ⟨defect, values.reverse⟩ := by
  unfold read
  cases (Reader.run {} bytes).bind Reader.finish with
  | ok found => simp
  | error stop =>
    obtain ⟨found, others⟩ := stop
    simp [List.reverse_eq_iff, and_comm]

/-- Reading stops for another reason than malformed input only at a token without a meaning. -/
lemma meaningless_of_read {bytes : List UInt8} {values : List Value} {defect : Defect}
    (h : read bytes = ⟨values, some defect⟩) (hdefect : defect ≠ .malformed) :
    Meaningless defect bytes values := by
  have hstart : Reader.Holds {} [] := .between rfl (.texts .nil) not_extends_nil
  have hstop := read_eq_some_iff.mp h
  rw [← List.reverse_reverse values]
  cases hrun : Reader.run {} bytes with
  | error stop =>
    rw [hrun] at hstop
    cases hstop
    exact hstart.meaningless_of_run hrun hdefect
  | ok r =>
    rw [hrun] at hstop
    have hreached := hstart.run bytes
    rw [hrun] at hreached
    cases hreached with
    | result hreached => exact hreached.meaningless_of_finish hstop hdefect

/-! ### Reading up to a place -/

/-- The reader is at a place of this kind. -/
def Reader.IsAt (r : Reader) : Place → Prop
  | .value => r.expected.TakesValue
  | .name => (r.expected = .name ∨ r.expected = .nameOrClose) ∧
      ∃ members frames, r.frames = .object members :: frames

/-- Whatever leads to a place is read, as soon as the last text is known to end. -/
theorem Awaits.exists_run {place : Place} {bytes last : List UInt8} {values : List Value}
    (h : Awaits place bytes values last) : ∃ r : Reader, r.scan = .idle ∧ r.IsAt place ∧
      r.values = values.reverse ∧ ∀ b more, ¬ Extends last b →
        Reader.run {} (bytes ++ b :: more) = r.run (b :: more) := by
  induction h with
  | @texts bytes last values texts =>
    exact ⟨⟨.idle, .value, [], values.reverse⟩, rfl, Or.inl rfl, rfl,
      fun b more hb => run_append_cons (run_textsUpTo texts hb)⟩
  | @item bytes last inner values items _ lead ih =>
    obtain ⟨r, idle, takes, hvalues, hrun⟩ := ih
    obtain ⟨expected, takes', hlead⟩ := runs_of_spells lead r.frames r.values
    refine ⟨⟨.idle, expected, .array items.reverse :: r.frames, r.values⟩, rfl, takes', hvalues,
      fun b more _ => ?_⟩
    rw [List.append_assoc, List.cons_append,
      hrun _ _ (not_extends_of_not_isNumeric (by decide) last),
      run_cons_of_ok (step_openArray idle takes), run_append_of_ok hlead]
  | @name bytes last inner values members _ lead ih =>
    obtain ⟨r, idle, takes, hvalues, hrun⟩ := ih
    obtain ⟨expected, hexpected, hlead⟩ := runs_of_spells lead r.frames r.values
    refine ⟨⟨.idle, expected, .object members :: r.frames, r.values⟩, rfl,
      ⟨hexpected, members, r.frames, rfl⟩, hvalues, fun b more _ => ?_⟩
    rw [List.append_assoc, List.cons_append,
      hrun _ _ (not_extends_of_not_isNumeric (by decide) last),
      run_cons_of_ok (step_openObject idle takes), run_append_of_ok hlead]
  | @member bytes last raw gap gap' values name _ form decoded blank blank' ih =>
    obtain ⟨r, idle, ⟨hexpected, members, frames, hframes⟩, hvalues, hrun⟩ := ih
    have hname := run_name idle hexpected hframes form decoded
    have hcolon : Reader.step ⟨.idle, .colon, .member members name :: frames, r.values⟩ 0x3a =
        .ok ⟨.idle, .value, .member members name :: frames, r.values⟩ := rfl
    refine ⟨⟨.idle, .value, .member members name :: frames, r.values⟩, rfl, Or.inl rfl, hvalues,
      fun b more _ => ?_⟩
    have hbytes : bytes ++ quoted raw ++ gap ++ 0x3a :: gap' ++ b :: more =
        bytes ++ 0x22 :: (raw ++ [0x22] ++ (gap ++ 0x3a :: (gap' ++ b :: more))) := by
      simp [quoted]
    rw [hbytes, hrun _ _ (not_extends_of_not_isNumeric (by decide) last), ← List.cons_append]
    show r.run (quoted raw ++ _) = _
    rw [run_append_of_ok hname, run_append_of_ok (run_gap rfl blank), run_cons_of_ok hcolon,
      run_append_of_ok (run_gap rfl blank')]

/-! ### Tokens without a meaning are noticed -/

/-- A string that is no text, at any place for a string. -/
lemma Reader.take_undecoded {r : Reader} {place : Place} (hplace : r.IsAt place) {raw : List UInt8}
    {fault : Utf8.Fault} (undecoded : stringText raw = .error fault) :
    r.take (.string raw) = .error ⟨.text fault, r.values⟩ := by
  cases place with
  | value =>
    rw [take_eq_takeValue hplace (by simp)]
    simp [Reader.takeValue, Reader.stop, undecoded]
  | name =>
    obtain ⟨hexpected, members, frames, hframes⟩ := hplace
    rw [take_eq_beginMember hexpected]
    simp [Reader.beginMember, Reader.stop, hframes, undecoded]

lemma Reader.run_undecoded {r : Reader} (idle : r.scan = .idle) {place : Place}
    (hplace : r.IsAt place) {raw : List UInt8} (form : StringForm raw) {fault : Utf8.Fault}
    (undecoded : stringText raw = .error fault) (more : List UInt8) :
    r.run (quoted raw ++ more) = .error ⟨.text fault, r.values⟩ := by
  have htake : (r.within .plain raw).take (.string raw) = .error ⟨.text fault, r.values⟩ :=
    Reader.take_undecoded (r := r.within .plain raw) hplace undecoded
  rw [run_append, run_quoted idle form, htake]
  rfl

/-- A number that is out of bounds stops the reader with the byte after it, which completes it. -/
lemma Reader.run_unbounded {r : Reader} (idle : r.scan = .idle) (takes : r.expected.TakesValue)
    {number : Number} (unbounded : number.value? = none) {b : UInt8}
    (hb : ¬ Extends number.text b) (more : List UInt8) :
    r.run (number.text ++ b :: more) = .error ⟨.number, r.values⟩ := by
  let reading : Reader := { r with scan := .number (Numeral.ofComplete number) }
  have htake : reading.take (.number (Numeral.ofComplete number)) = .error ⟨.number, r.values⟩ := by
    rw [take_eq_takeValue (r := reading) takes (by simp)]
    simp [Reader.takeValue, Reader.stop, Numeral.value?_ofComplete, unbounded, reading]
  have hstep : reading.step b = .error ⟨.number, r.values⟩ := by
    simp only [Reader.step, reading, Numeral.complete_of_not_extends hb]
    rw [htake]
    rfl
  rw [run_append_of_ok (run_of_readAll? idle (Numeral.readAll?_text number)), run_cons, hstep]
  rfl

/-- A token without a meaning stops the reader, at the latest with the blank at the end. -/
theorem Meaningless.run {bytes : List UInt8} {values : List Value} {defect : Defect}
    (h : Meaningless defect bytes values) :
    Reader.run {} (bytes ++ [0x20]) = .error ⟨defect, values.reverse⟩ := by
  cases h with
  | @text place front last raw rest _ fault before form undecoded =>
    obtain ⟨r, idle, hplace, hvalues, hrun⟩ := before.exists_run
    have hbytes : front ++ quoted raw ++ rest ++ [0x20] =
        front ++ 0x22 :: (raw ++ [0x22] ++ (rest ++ [0x20])) := by
      simp [quoted]
    rw [hbytes, hrun _ _ (not_extends_of_not_isNumeric (by decide) last), ← List.cons_append,
      ← hvalues]
    exact Reader.run_undecoded idle hplace form undecoded _
  | @number front last rest _ number before apart ended unbounded =>
    obtain ⟨r, idle, takes, hvalues, hrun⟩ := before.exists_run
    obtain ⟨first, digits, htext, -⟩ := number.exists_text_eq
    -- the byte after the number, which may be the blank at the end
    obtain ⟨b, more, hrest, hb⟩ : ∃ b more, rest ++ [0x20] = b :: more ∧ ¬ Extends number.text b := by
      cases rest with
      | nil => exact ⟨0x20, [], rfl, not_extends_of_not_isNumeric (by decide) _⟩
      | cons b rest => exact ⟨b, rest ++ [0x20], rfl, ended b rfl⟩
    have happart : ¬ Extends last first := apart first (by rw [htext]; rfl)
    rw [List.append_assoc, List.append_assoc, hrest, htext, List.cons_append, hrun _ _ happart,
      ← List.cons_append, ← htext, ← hvalues]
    exact Reader.run_unbounded idle takes unbounded hb more

/-- Reading stops for another reason than malformed input exactly at a token without a meaning. -/
theorem read_eq_iff_meaningless {bytes : List UInt8} {values : List Value} {defect : Defect}
    (hdefect : defect ≠ .malformed) :
    read bytes = ⟨values, some defect⟩ ↔ Meaningless defect bytes values := by
  constructor
  · exact fun h => meaningless_of_read h hdefect
  · intro h
    rw [read_eq_some_iff, bind_finish, h.run]
    rfl

end Json

namespace Source

lemma ofBytes_eq_failure_iff {name : String} {bytes : List UInt8} {values : List Value}
    (defect : Defect) :
    ofBytes name bytes = ⟨name, values, some (defect.toFailure name values.length)⟩ ↔
      read bytes = ⟨values, some defect⟩ := by
  rw [ofBytes_eq]
  obtain ⟨found, defect?⟩ := read bytes
  simp only [Source.mk.injEq, Reading.mk.injEq, true_and]
  refine and_congr_right fun hvalues => ?_
  subst hvalues
  rw [Option.map_eq_some_iff]
  constructor
  · rintro ⟨other, rfl, hfailure⟩
    cases other <;> cases defect <;> cases hfailure <;> rfl
  · rintro rfl
    exact ⟨defect, rfl, rfl⟩

/-- Bytes are read to their end, or their failure is that they are malformed after so many records
in the file of this name, unless a token without a meaning comes first.  A string that is no text
and a number that is out of bounds fail as such, after the records before them. -/
theorem failure_cases (name : String) (bytes : List UInt8) :
    ((ofBytes name bytes).failure? = none ∨
        (ofBytes name bytes).failure? = some (.malformed (ofBytes name bytes).records.length name) ↔
      ∀ defect values, ¬ Meaningless defect bytes values) ∧
    (∀ values fault, ofBytes name bytes = ⟨name, values, some (.invalidText fault)⟩ ↔
      Meaningless (.text fault) bytes values) ∧
    ∀ values, ofBytes name bytes = ⟨name, values, some .invalidNumber⟩ ↔
      Meaningless .number bytes values := by
  refine ⟨?_, fun values fault => ?_, fun values => ?_⟩
  · constructor
    · intro h defect values hmeaningless
      have hsource : ofBytes name bytes =
          ⟨name, values, some (defect.toFailure name values.length)⟩ := by
        have hdefect : defect ≠ .malformed := by
          rintro rfl
          cases hmeaningless
        exact (ofBytes_eq_failure_iff defect).mpr ((read_eq_iff_meaningless hdefect).mpr hmeaningless)
      rw [hsource] at h
      cases hmeaningless <;> rcases h with h | h <;> cases h
    · intro h
      rw [ofBytes_eq]
      cases hread : read bytes with
      | mk values defect? =>
        cases defect? with
        | none => exact Or.inl rfl
        | some defect =>
          by_cases hdefect : defect = .malformed
          · subst hdefect
            exact Or.inr rfl
          · exact absurd ((read_eq_iff_meaningless hdefect).mp hread) (h defect values)
  · rw [← read_eq_iff_meaningless (by simp)]
    exact ofBytes_eq_failure_iff (.text fault)
  · rw [← read_eq_iff_meaningless (by simp)]
    exact ofBytes_eq_failure_iff .number

/-- Between the quotes stands an overlong form, which no text holds: the failure is about that byte
and not about the file.  The same goes for a power of ten with too many digits. -/
theorem failure_of_overlong_form :
    (ofBytes "a.json" [0x22, 0xc0, 0x80, 0x22]).failure? =
      some (.invalidText ⟨0, 0xc0, .start⟩) ∧
    (ofBytes "a.json" (Utf8.ofString "1 1e9999999999999999999")).failure? = some .invalidNumber ∧
    ¬ ∀ name bytes, (ofBytes name bytes).failure? = none ∨
      (ofBytes name bytes).failure? =
        some (.malformed (ofBytes name bytes).records.length name) := by
  have htext : (ofBytes "a.json" [0x22, 0xc0, 0x80, 0x22]).failure? =
      some (.invalidText ⟨0, 0xc0, .start⟩) := by decide +kernel
  refine ⟨htext, by decide +kernel, fun h => ?_⟩
  rcases h "a.json" [0x22, 0xc0, 0x80, 0x22] with hnone | hmalformed
  · rw [htext] at hnone
    cases hnone
  · rw [htext] at hmalformed
    cases hmalformed

end Source

end RecordSchema
