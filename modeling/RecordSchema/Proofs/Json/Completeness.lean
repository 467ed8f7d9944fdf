import RecordSchema.Proofs.Json.Soundness

/-!
# What a reader accepts

Whatever the grammar spells is read without a stop, with its value.  A number is only complete when
the next byte has come, so what the reader does on a text is told together with one more byte
(`Runs`): it does with this byte what it would do after the value has taken its place.

With the other direction, reading an input to its end without a stop is the same as the input being
a sequence of complete texts, or texts with an unfinished string after them (`read_eq_iff`).
-/

namespace RecordSchema.Json

namespace Reader

variable {r next : Reader} {bytes more gap : List UInt8} {b : UInt8}

/-! ### Runs in parts -/

lemma run_append_of_ok (h : r.run bytes = .ok next) : r.run (bytes ++ more) = next.run more := by
  rw [run_append, h]
  rfl

lemma run_cons_of_ok (h : r.step b = .ok next) : r.run (b :: bytes) = next.run bytes := by
  rw [run_cons, h]
  rfl

lemma run_singleton (r : Reader) (b : UInt8) : r.run [b] = r.step b := by
  rw [run_cons]
  exact bind_pure (r.step b)

/-- What holds for the next byte holds for all that follow. -/
lemma run_append_cons (h : r.run (bytes ++ [b]) = next.step b) :
    r.run (bytes ++ b :: more) = next.run (b :: more) := by
  have hbytes : bytes ++ b :: more = bytes ++ [b] ++ more := by simp
  rw [hbytes, run_append, h, ← run_cons]

lemma step_of_idle (idle : r.scan = .idle) (b : UInt8) : r.step b = r.begin b := by
  unfold Reader.step
  rw [idle]

lemma eq_of_idle (idle : r.scan = .idle) : { r with scan := .idle } = r := by
  obtain ⟨scan, expected, frames, values⟩ := r
  subst idle
  rfl

lemma step_blank (idle : r.scan = .idle) (hb : isBlank b = true) : r.step b = .ok r := by
  rw [step_of_idle idle, begin, if_pos hb, eq_of_idle idle]

lemma run_gap (idle : r.scan = .idle) (hgap : Gap gap) : r.run gap = .ok r := by
  induction gap with
  | nil => rfl
  | cons b gap ih =>
    obtain ⟨hb, hrest⟩ := List.forall_mem_cons.mp hgap
    rw [run_cons_of_ok (step_blank idle hb)]
    exact ih hrest

lemma not_isNumeric_of_isBlank (h : isBlank b = true) : ¬ IsNumeric b := by
  intro hb
  simp only [isBlank, Bool.or_eq_true, Bool.and_eq_true, decide_eq_true_eq,
    UInt8.le_iff_toNat_le] at h
  simp only [IsNumeric, IsDigit, List.mem_cons, List.not_mem_nil, or_false,
    UInt8.le_iff_toNat_le] at hb
  simp only [← UInt8.toNat_inj, UInt8.reduceToNat] at h hb
  omega

/-! ### Complete values -/

/-- Only the open containers and the values matter for what a complete value does. -/
lemma complete_congr (hframes : next.frames = r.frames) (hvalues : next.values = r.values)
    (value : Value) : next.complete value = r.complete value := by
  obtain ⟨scan, expected, frames, values⟩ := r
  obtain ⟨scan', expected', frames', values'⟩ := next
  subst hframes hvalues
  unfold complete
  cases frames' with
  | nil => rfl
  | cons frame frames => cases frame <;> rfl

lemma idle_of_complete {value : Value} (h : r.complete value = .ok next) : next.scan = .idle := by
  unfold complete at h
  split at h
  · cases h
    rfl
  · cases h
    rfl
  · cases h
    rfl
  · cases h

/-- After a complete value the next byte begins something. -/
lemma complete_bind_begin (r : Reader) (value : Value) (b : UInt8) :
    ((r.complete value).bind fun next => next.begin b) =
      (r.complete value).bind fun next => next.step b := by
  cases h : r.complete value with
  | error stop => rfl
  | ok next => exact (step_of_idle (idle_of_complete h) b).symm

lemma take_eq_takeValue (takes : r.expected.TakesValue) {token : Token}
    (htoken : token ≠ .closeArray) : r.take token = r.takeValue token := by
  unfold take
  rcases takes with h | h
  · rw [h]
  · rw [h]
    cases token <;> first | rfl | exact absurd rfl htoken

lemma take_eq_beginMember (hexpected : r.expected = .name ∨ r.expected = .nameOrClose)
    (raw : List UInt8) : r.take (.string raw) = r.beginMember raw := by
  unfold take
  rcases hexpected with h | h <;> rw [h]

end Reader

open Reader

/-! ### What it means that something is read -/

/-- What the reader does on bytes that spell something. -/
def Runs (bytes : List UInt8) : Form → Prop
  | .value single => ∀ r : Reader, r.scan = .idle → r.expected.TakesValue → ∀ b,
      ¬ Extends bytes b → r.run (bytes ++ [b]) = (r.complete single).bind fun next => next.step b
  | .itemLead entries => ∀ frames values, ∃ expected : Expected, expected.TakesValue ∧
      Reader.run ⟨.idle, .valueOrClose, .array [] :: frames, values⟩ bytes =
        .ok ⟨.idle, expected, .array entries.reverse :: frames, values⟩
  | .items entries => ∀ frames values b, ¬ IsNumeric b →
      Reader.run ⟨.idle, .valueOrClose, .array [] :: frames, values⟩ (bytes ++ [b]) =
        Reader.step ⟨.idle, .separator, .array entries.reverse :: frames, values⟩ b
  | .memberLead entries => ∀ frames values, ∃ expected,
      (expected = Expected.name ∨ expected = .nameOrClose) ∧
      Reader.run ⟨.idle, .nameOrClose, .object [] :: frames, values⟩ bytes =
        .ok ⟨.idle, expected, .object entries :: frames, values⟩
  | .members entries => ∀ frames values b, ¬ IsNumeric b →
      Reader.run ⟨.idle, .nameOrClose, .object [] :: frames, values⟩ (bytes ++ [b]) =
        Reader.step ⟨.idle, .separator, .object entries :: frames, values⟩ b

variable {r : Reader} {bytes gap : List UInt8} {value : Value}

/-- A text that completes its value with its last byte. -/
lemma runs_of_complete (h : ∀ r : Reader, r.scan = .idle → r.expected.TakesValue →
    r.run bytes = r.complete value) : Runs bytes (.value value) := by
  intro r idle takes b _
  rw [run_append, h r idle takes]
  cases r.complete value with
  | error stop => rfl
  | ok next => exact run_singleton next b

/-- A value with whitespace after it, inside a container. -/
lemma Runs.value_gap (h : Runs bytes (.value value)) (idle : r.scan = .idle)
    (takes : r.expected.TakesValue) {next : Reader} (hcomplete : r.complete value = .ok next)
    (hgap : Gap gap) {b : UInt8} (hb : ¬ IsNumeric b) :
    r.run (bytes ++ gap ++ [b]) = next.step b := by
  have hidle := idle_of_complete hcomplete
  cases gap with
  | nil =>
    rw [List.append_nil, h r idle takes b (not_extends_of_not_isNumeric hb bytes), hcomplete]
    rfl
  | cons first gap =>
    obtain ⟨hfirst, hrest⟩ := List.forall_mem_cons.mp hgap
    have hstep : r.run (bytes ++ [first]) = next.step first := by
      rw [h r idle takes first
        (not_extends_of_not_isNumeric (not_isNumeric_of_isBlank hfirst) bytes), hcomplete]
      rfl
    rw [List.append_assoc, List.cons_append, run_append_cons hstep,
      run_cons_of_ok (step_blank hidle hfirst), run_append_of_ok (run_gap hidle hrest),
      run_singleton]

/-! ### Single tokens -/

/-- The letters of a word that are left, up to the last one. -/
lemma run_letters (r : Reader) {rest : List UInt8} (hrest : rest ≠ []) (value : Value) :
    ∃ scan, ({ r with scan := .word rest value } : Reader).run rest =
      ({ r with scan } : Reader).take (.word value) := by
  induction rest with
  | nil => exact absurd rfl hrest
  | cons b rest ih =>
    by_cases hlast : rest = []
    · refine ⟨.word [b] value, ?_⟩
      rw [hlast, run_singleton]
      unfold Reader.step
      dsimp only
      rw [if_neg (by simp), if_pos (by simp)]
    · obtain ⟨scan, hrun⟩ := ih hlast
      have hstep : ({ r with scan := .word (b :: rest) value } : Reader).step b =
          .ok { r with scan := .word rest value } := by
        unfold Reader.step
        dsimp only
        rw [if_neg (by simp), if_neg (by simpa using hlast)]
      exact ⟨scan, (run_cons_of_ok hstep).trans hrun⟩

lemma runs_word {text : List UInt8} (h : IsWord text value) : Runs text (.value value) := by
  refine runs_of_complete fun r idle takes => ?_
  obtain ⟨first, rest, rfl, hrest, hfirst⟩ : ∃ first rest, text = first :: rest ∧ rest ≠ [] ∧
      r.begin first = .ok { r with scan := .word rest value } := by
    cases h with
    | null | trueWord | falseWord => exact ⟨_, _, rfl, by simp, rfl⟩
  obtain ⟨scan, hrun⟩ := run_letters r hrest value
  rw [run_cons_of_ok ((step_of_idle idle first).trans hfirst), hrun,
    take_eq_takeValue (r := { r with scan }) takes (by simp)]
  exact complete_congr rfl rfl value

/-- What starts a number is no sign, no letter and no blank. -/
lemma begin_of_start? {b : UInt8} {numeral : Numeral} (h : Numeral.start? b = some numeral) :
    r.begin b = .ok { r with scan := .number numeral } := by
  have hb : b = 0x2d ∨ IsDigit b := by
    by_contra hb
    obtain ⟨hminus, hdigit⟩ := not_or.mp hb
    rw [Numeral.start?, if_neg hminus, digit?_eq_none_iff.mpr hdigit] at h
    cases h
  have hne : ∀ c : UInt8, ¬ (c = 0x2d ∨ IsDigit c) → b ≠ c := by
    rintro c hc rfl
    exact hc hb
  have hblank : ¬ isBlank b = true := by
    intro hblank
    refine not_isNumeric_of_isBlank hblank ?_
    rcases hb with rfl | hdigit
    · decide
    · exact Or.inl hdigit
  unfold Reader.begin
  rw [if_neg hblank]
  iterate 10 rw [if_neg (hne _ (by decide))]
  rw [h]

/-- The bytes of a number keep the reader within it. -/
lemma run_of_readAll? (idle : r.scan = .idle) {numeral : Numeral}
    (h : Numeral.readAll? bytes = some numeral) :
    r.run bytes = .ok { r with scan := .number numeral } := by
  induction bytes using List.reverseRecOn generalizing numeral with
  | nil => cases h
  | append_singleton bytes b ih =>
    by_cases hbytes : bytes = []
    · subst hbytes
      have hstart : Numeral.start? b = some numeral := by simpa [Numeral.readAll?] using h
      rw [List.nil_append, run_singleton, step_of_idle idle]
      exact begin_of_start? hstart
    · rw [Numeral.readAll?_append hbytes] at h
      obtain ⟨previous, hprevious, hnext⟩ := Option.bind_eq_some_iff.mp h
      rw [Numeral.foldlM_next?_singleton] at hnext
      rw [run_append_of_ok (ih hprevious), run_singleton]
      unfold Reader.step
      dsimp only
      rw [Numeral.next?_eq_some_iff.mp hnext]

lemma runs_number {number : Number} (denotes : number.value? = some value) :
    Runs number.text (.value value) := by
  intro r idle takes b hb
  have htake : ({ r with scan := .number (Numeral.ofComplete number) } : Reader).take
      (.number (Numeral.ofComplete number)) = r.complete value := by
    rw [take_eq_takeValue (r := { r with scan := .number (Numeral.ofComplete number) }) takes
      (by simp)]
    unfold Reader.takeValue
    dsimp only
    rw [Numeral.value?_ofComplete, denotes]
    exact complete_congr rfl rfl value
  rw [run_append_of_ok (run_of_readAll? idle (Numeral.readAll?_text number)), run_singleton,
    ← complete_bind_begin, ← htake]
  unfold Reader.step
  dsimp only
  rw [Numeral.complete_of_not_extends hb]
  rfl

/-- A string up to its second quote. -/
lemma run_quoted (idle : r.scan = .idle) {raw : List UInt8} (form : StringForm raw) :
    r.run (quoted raw) = (r.within .plain raw).take (.string raw) := by
  have hquote : r.step 0x22 = .ok (r.within .plain []) := by
    rw [step_of_idle idle]
    rfl
  rw [quoted, run_cons_of_ok hquote, run_append_of_ok (run_stringForm r form), run_singleton,
    step_within]
  unfold Reader.stepString
  dsimp only
  rw [if_pos rfl, List.reverse_reverse]

lemma runs_string {raw : List UInt8} {text : String} (form : StringForm raw)
    (decoded : stringText raw = .ok text) : Runs (quoted raw) (.value (.string text)) := by
  refine runs_of_complete fun r idle takes => ?_
  rw [run_quoted idle form, take_eq_takeValue (r := r.within .plain raw) takes (by simp)]
  unfold Reader.takeValue
  dsimp only
  rw [decoded]
  exact complete_congr rfl rfl _

/-! ### Containers -/

lemma step_openArray (idle : r.scan = .idle) (takes : r.expected.TakesValue) :
    r.step 0x5b = .ok ⟨.idle, .valueOrClose, .array [] :: r.frames, r.values⟩ := by
  rw [step_of_idle idle]
  show r.take .openArray = _
  rw [take_eq_takeValue takes (by simp)]
  rfl

lemma step_openObject (idle : r.scan = .idle) (takes : r.expected.TakesValue) :
    r.step 0x7b = .ok ⟨.idle, .nameOrClose, .object [] :: r.frames, r.values⟩ := by
  rw [step_of_idle idle]
  show r.take .openObject = _
  rw [take_eq_takeValue takes (by simp)]
  rfl

lemma runs_emptyArray (hgap : Gap gap) : Runs (0x5b :: (gap ++ [0x5d])) (.value (.array [])) := by
  refine runs_of_complete fun r idle takes => ?_
  rw [run_cons_of_ok (step_openArray idle takes), run_append_of_ok (run_gap rfl hgap), run_singleton]
  exact complete_congr rfl rfl _

lemma Runs.array {items : List Value} (h : Runs bytes (.items items)) :
    Runs (0x5b :: (bytes ++ [0x5d])) (.value (.array items)) := by
  refine runs_of_complete fun r idle takes => ?_
  rw [run_cons_of_ok (step_openArray idle takes), h _ _ _ (by decide)]
  show Reader.complete ⟨.idle, .separator, r.frames, r.values⟩ (.array items.reverse.reverse) = _
  rw [List.reverse_reverse]
  exact complete_congr rfl rfl _

lemma runs_emptyObject (hgap : Gap gap) : Runs (0x7b :: (gap ++ [0x7d])) (.value (.object [])) := by
  refine runs_of_complete fun r idle takes => ?_
  rw [run_cons_of_ok (step_openObject idle takes), run_append_of_ok (run_gap rfl hgap), run_singleton]
  exact complete_congr rfl rfl _

lemma Runs.object {members : List (String × Value)} (h : Runs bytes (.members members)) :
    Runs (0x7b :: (bytes ++ [0x7d])) (.value (.object members)) := by
  refine runs_of_complete fun r idle takes => ?_
  rw [run_cons_of_ok (step_openObject idle takes), h _ _ _ (by decide)]
  exact complete_congr rfl rfl _

lemma Runs.nextItem {items : List Value} (h : Runs bytes (.items items)) (hgap : Gap gap) :
    Runs (bytes ++ 0x2c :: gap) (.itemLead items) := by
  intro frames values
  refine ⟨.value, Or.inl rfl, ?_⟩
  rw [run_append_cons (h frames values 0x2c (by decide)), run_cons]
  exact run_gap rfl hgap

lemma Runs.item {lead text : List UInt8} {items : List Value} (h : Runs lead (.itemLead items))
    (h' : Runs text (.value value)) (hgap : Gap gap) :
    Runs (lead ++ text ++ gap) (.items (items ++ [value])) := by
  intro frames values b hb
  obtain ⟨expected, takes, hlead⟩ := h frames values
  have hcomplete : Reader.complete ⟨.idle, expected, .array items.reverse :: frames, values⟩ value =
      .ok ⟨.idle, .separator, .array (items ++ [value]).reverse :: frames, values⟩ := by
    rw [List.reverse_append]
    rfl
  rw [List.append_assoc, List.append_assoc, run_append_of_ok hlead, ← List.append_assoc]
  exact h'.value_gap rfl takes hcomplete hgap hb

lemma Runs.nextMember {members : List (String × Value)} (h : Runs bytes (.members members))
    (hgap : Gap gap) : Runs (bytes ++ 0x2c :: gap) (.memberLead members) := by
  intro frames values
  refine ⟨.name, Or.inl rfl, ?_⟩
  rw [run_append_cons (h frames values 0x2c (by decide)), run_cons]
  exact run_gap rfl hgap

/-- The name of a member. -/
lemma run_name (idle : r.scan = .idle) (hexpected : r.expected = .name ∨ r.expected = .nameOrClose)
    {members : List (String × Value)} {frames : List Frame}
    (hframes : r.frames = .object members :: frames) {raw : List UInt8} {name : String}
    (form : StringForm raw) (decoded : stringText raw = .ok name) :
    r.run (quoted raw) = .ok ⟨.idle, .colon, .member members name :: frames, r.values⟩ := by
  rw [run_quoted idle form, take_eq_beginMember (r := r.within .plain raw) hexpected]
  obtain ⟨scan, expected, _, values⟩ := r
  subst hframes
  unfold Reader.beginMember
  dsimp only [Reader.within]
  rw [decoded]

lemma Runs.member {lead raw gap' text gap'' : List UInt8} {members : List (String × Value)}
    {name : String} (h : Runs lead (.memberLead members)) (form : StringForm raw)
    (decoded : stringText raw = .ok name) (hgap : Gap gap) (hgap' : Gap gap')
    (h' : Runs text (.value value)) (hgap'' : Gap gap'') :
    Runs (lead ++ quoted raw ++ gap ++ 0x3a :: (gap' ++ text ++ gap''))
      (.members (putEntry name value members)) := by
  intro frames values b hb
  obtain ⟨expected, hexpected, hlead⟩ := h frames values
  have hname : Reader.run ⟨.idle, expected, .object members :: frames, values⟩ (quoted raw) =
      .ok ⟨.idle, .colon, .member members name :: frames, values⟩ :=
    run_name rfl hexpected rfl form decoded
  have hcolon : Reader.step ⟨.idle, .colon, .member members name :: frames, values⟩ 0x3a =
      .ok ⟨.idle, .value, .member members name :: frames, values⟩ := rfl
  have hbytes : lead ++ quoted raw ++ gap ++ 0x3a :: (gap' ++ text ++ gap'') ++ [b] =
      lead ++ (quoted raw ++ (gap ++ 0x3a :: (gap' ++ (text ++ gap'' ++ [b])))) := by
    simp
  rw [hbytes, run_append_of_ok hlead, run_append_of_ok hname, run_append_of_ok (run_gap rfl hgap),
    run_cons_of_ok hcolon, run_append_of_ok (run_gap rfl hgap')]
  exact h'.value_gap rfl (Or.inl rfl) rfl hgap'' hb

/-- Whatever is spelled is read. -/
theorem runs_of_spells {form : Form} (h : Spells bytes form) : Runs bytes form := by
  induction h with
  | null => exact runs_word .null
  | trueWord => exact runs_word .trueWord
  | falseWord => exact runs_word .falseWord
  | number denotes => exact runs_number denotes
  | string form decoded => exact runs_string form decoded
  | emptyArray blank => exact runs_emptyArray blank
  | array _ ih => exact ih.array
  | emptyObject blank => exact runs_emptyObject blank
  | object _ ih => exact ih.object
  | firstItem blank => exact fun frames values => ⟨.valueOrClose, Or.inr rfl, run_gap rfl blank⟩
  | nextItem _ blank ih => exact ih.nextItem blank
  | item _ _ blank ih ih' => exact ih.item ih' blank
  | firstMember blank => exact fun frames values => ⟨.nameOrClose, Or.inr rfl, run_gap rfl blank⟩
  | nextMember _ blank ih => exact ih.nextMember blank
  | member _ form decoded blank blank' _ blank'' ih ih' =>
    exact ih.member form decoded blank blank' ih' blank''

/-! ### Whole inputs -/

lemma Spells.exists_cons {bytes : List UInt8} {value : Value} (h : Spells bytes (.value value)) :
    ∃ b rest, bytes = b :: rest := by
  cases h with
  | @number number _ _ =>
    obtain ⟨b, rest, htext, -⟩ := number.exists_text_eq
    exact ⟨b, rest, htext⟩
  | _ => exact ⟨_, _, rfl⟩

/-- After complete texts the reader holds their values, as soon as the last one is known to end. -/
lemma run_textsUpTo {last : List UInt8} {values : List Value} (h : TextsUpTo bytes values last)
    {b : UInt8} (hb : ¬ Extends last b) :
    Reader.run {} (bytes ++ [b]) = Reader.step ⟨.idle, .value, [], values.reverse⟩ b := by
  induction h generalizing b with
  | nil => exact run_singleton {} b
  | @blank bytes last values first _ hfirst ih =>
    have hstep := ih (not_extends_of_not_isNumeric (not_isNumeric_of_isBlank hfirst) last)
    rw [run_append_of_ok (hstep.trans (step_blank rfl hfirst)), run_singleton]
  | @text bytes last text values value _ spelled apart ih =>
    obtain ⟨first, rest, rfl⟩ := spelled.exists_cons
    have hstep := ih (apart first rfl)
    rw [List.append_assoc, List.cons_append, run_append_cons hstep, ← List.cons_append,
      runs_of_spells spelled _ rfl (Or.inl rfl) b hb, List.reverse_append]
    rfl

/-- The end of the input counts as one more blank. -/
lemma bind_finish (r : Reader) (bytes : List UInt8) :
    (r.run bytes).bind finish = (r.run (bytes ++ [0x20])).bind conclude := by
  rw [run_append]
  cases r.run bytes with
  | error stop => rfl
  | ok next => exact congrArg (fun result => result.bind conclude) (run_singleton next 0x20).symm

/-- After complete texts and a blank the reader is between two tokens. -/
lemma run_texts {values : List Value} (h : Texts bytes values) :
    Reader.run {} (bytes ++ [0x20]) = .ok ⟨.idle, .value, [], values.reverse⟩ := by
  obtain ⟨last, htexts⟩ := h
  have hrun := run_textsUpTo htexts (not_extends_of_not_isNumeric (b := 0x20) (by decide) last)
  rw [hrun]
  exact step_blank rfl rfl

/-- After an unfinished string and a blank the reader is still within the string. -/
lemma run_unfinished {values : List Value} (h : Unfinished bytes values) :
    values ≠ [] ∧ ∃ met, Reader.run {} (bytes ++ [0x20]) =
      .ok ⟨.string .plain met, .value, [], values.reverse⟩ := by
  obtain ⟨front, raw, rfl, hform, hvalues, last, htexts⟩ := h
  refine ⟨hvalues, 0x20 :: raw.reverse, ?_⟩
  have hrun := run_textsUpTo htexts (not_extends_of_not_isNumeric (b := 0x22) (by decide) last)
  let opened : Reader := ⟨.idle, .value, [], values.reverse⟩
  have hquote : opened.step 0x22 = .ok (opened.within .plain []) := rfl
  rw [List.append_assoc, List.cons_append, run_append_cons hrun, run_cons_of_ok hquote,
    run_append_of_ok (run_stringForm opened hform), run_singleton]
  rfl

lemma read_of_texts {values : List Value} (h : Texts bytes values) :
    read bytes = ⟨values, none⟩ := by
  unfold read
  rw [bind_finish, run_texts h]
  show Reading.mk values.reverse.reverse none = _
  rw [List.reverse_reverse]

/-- A string without its second quote is passed over after complete values. -/
lemma read_of_unfinished {values : List Value} (h : Unfinished bytes values) :
    read bytes = ⟨values, none⟩ := by
  obtain ⟨hvalues, met, hrun⟩ := run_unfinished h
  have hresult : (Reader.run {} bytes).bind finish = .ok values.reverse := by
    rw [bind_finish, hrun]
    show conclude _ = _
    unfold conclude
    dsimp only
    rw [if_neg (by decide), if_neg (by simpa using hvalues)]
  unfold read
  rw [hresult]
  show Reading.mk values.reverse.reverse none = _
  rw [List.reverse_reverse]

/-- The grammar is unambiguous. -/
theorem Texts.unique {values others : List Value} (h : Texts bytes values)
    (h' : Texts bytes others) : values = others := by
  have hread : (⟨values, none⟩ : Reading) = ⟨others, none⟩ :=
    (read_of_texts h).symm.trans (read_of_texts h')
  exact congrArg Reading.values hread

/-- No sequence of complete texts has an unfinished string after it. -/
theorem not_texts_of_unfinished {values : List Value} (h : Unfinished bytes values)
    (others : List Value) : ¬ Texts bytes others := by
  intro htexts
  obtain ⟨-, met, hrun⟩ := run_unfinished h
  rw [run_texts htexts] at hrun
  cases hrun

/-- Reading ends well on sequences of complete texts, with or without an unfinished string after
them, and on nothing else. -/
theorem read_eq_iff {values : List Value} :
    read bytes = ⟨values, none⟩ ↔ Texts bytes values ∨ Unfinished bytes values := by
  constructor
  · intro h
    have hdefect : (read bytes).defect? = none := by rw [h]
    have hend := texts_or_unfinished_of_read hdefect
    rwa [h] at hend
  · rintro (h | h)
    · exact read_of_texts h
    · exact read_of_unfinished h

end RecordSchema.Json
