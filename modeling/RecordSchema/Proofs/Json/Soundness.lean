import RecordSchema.Records
import RecordSchema.Proofs.Json.Grammar
import RecordSchema.Proofs.Json.NumberReading

/-!
# What a reader has understood

At every moment the bytes that a reader has taken are spelled out by its state: the complete values
are those of texts at the beginning, every open container is spelled as far as it goes, and what the
reader is in the middle of is the beginning of a token.  `Reaches` says so between two tokens, and
`Reader.Holds` anywhere.  Each step keeps this (`Reader.Holds.step`), hence every run does.

Wherever reading stops, the values are those of complete texts with which the input begins
(`exists_texts_of_read`).  Where it ends well, these texts are the whole input, or a string without
its second quote comes after them (`texts_or_unfinished_of_read`).
-/

namespace RecordSchema.Json

/-- A value may come next. -/
def Expected.TakesValue (expected : Expected) : Prop :=
  expected = .value ∨ expected = .valueOrClose

/-! ### Between tokens -/

/-- What is expected, the open containers and the complete values spell out the bytes taken so far.
The last bytes are those of the last text if nothing stands after it. -/
inductive Reaches : Expected → List Frame → List Value → List UInt8 → List UInt8 → Prop
  | texts {values : List Value} {bytes last : List UInt8}
      (texts : TextsUpTo bytes values.reverse last) : Reaches .value [] values bytes last
  | arrayLead {before expected : Expected} {frames : List Frame} {values items : List Value}
      {bytes last inner : List UInt8} (outer : Reaches before frames values bytes last)
      (takes : before.TakesValue) (lead : Spells inner (.itemLead items.reverse))
      (next : expected = .value ∨ expected = .valueOrClose ∧ items = [] ∧ Gap inner) :
      Reaches expected (.array items :: frames) values (bytes ++ 0x5b :: inner) []
  | arrayItems {before : Expected} {frames : List Frame} {values items : List Value}
      {bytes last inner : List UInt8} (outer : Reaches before frames values bytes last)
      (takes : before.TakesValue) (spelled : Spells inner (.items items.reverse)) :
      Reaches .separator (.array items :: frames) values (bytes ++ 0x5b :: inner) []
  | objectLead {before expected : Expected} {frames : List Frame} {values : List Value}
      {members : List (String × Value)} {bytes last inner : List UInt8}
      (outer : Reaches before frames values bytes last) (takes : before.TakesValue)
      (lead : Spells inner (.memberLead members))
      (next : expected = .name ∨ expected = .nameOrClose ∧ members = [] ∧ Gap inner) :
      Reaches expected (.object members :: frames) values (bytes ++ 0x7b :: inner) []
  | objectMembers {before : Expected} {frames : List Frame} {values : List Value}
      {members : List (String × Value)} {bytes last inner : List UInt8}
      (outer : Reaches before frames values bytes last) (takes : before.TakesValue)
      (spelled : Spells inner (.members members)) :
      Reaches .separator (.object members :: frames) values (bytes ++ 0x7b :: inner) []
  | memberName {before : Expected} {frames : List Frame} {values : List Value}
      {members : List (String × Value)} {name : String} {bytes last inner raw gap : List UInt8}
      (outer : Reaches before frames values bytes last) (takes : before.TakesValue)
      (lead : Spells inner (.memberLead members)) (form : StringForm raw)
      (decoded : stringText raw = .ok name) (blank : Gap gap) :
      Reaches .colon (.member members name :: frames) values
        (bytes ++ 0x7b :: (inner ++ quoted raw ++ gap)) []
  | memberColon {before : Expected} {frames : List Frame} {values : List Value}
      {members : List (String × Value)} {name : String} {bytes last inner raw gap gap' : List UInt8}
      (outer : Reaches before frames values bytes last) (takes : before.TakesValue)
      (lead : Spells inner (.memberLead members)) (form : StringForm raw)
      (decoded : stringText raw = .ok name) (blank : Gap gap) (blank' : Gap gap') :
      Reaches .value (.member members name :: frames) values
        (bytes ++ 0x7b :: (inner ++ quoted raw ++ gap ++ 0x3a :: gap')) []

/-- The values, the last one first, are those of texts with which the bytes begin. -/
def Beginning (values : List Value) (bytes : List UInt8) : Prop :=
  ∃ front rest, bytes = front ++ rest ∧ Texts front values.reverse

lemma Beginning.append {values : List Value} {bytes : List UInt8} (h : Beginning values bytes)
    (more : List UInt8) : Beginning values (bytes ++ more) := by
  obtain ⟨front, rest, rfl, htexts⟩ := h
  exact ⟨front, rest ++ more, List.append_assoc _ _ _, htexts⟩

section Reaches

variable {expected : Expected} {frames : List Frame} {values : List Value}
  {bytes last : List UInt8}

lemma Reaches.beginning (h : Reaches expected frames values bytes last) :
    Beginning values bytes := by
  induction h with
  | @texts values bytes last texts => exact ⟨bytes, [], (List.append_nil _).symm, last, texts⟩
  | arrayLead _ _ _ _ ih => exact ih.append _
  | arrayItems _ _ _ ih => exact ih.append _
  | objectLead _ _ _ _ ih => exact ih.append _
  | objectMembers _ _ _ ih => exact ih.append _
  | memberName _ _ _ _ _ _ ih => exact ih.append _
  | memberColon _ _ _ _ _ _ _ ih => exact ih.append _

/-- Whitespace may come at any time, and parts a number from what follows. -/
lemma Reaches.blank (h : Reaches expected frames values bytes last) {b : UInt8}
    (hb : Reader.isBlank b = true) : Reaches expected frames values (bytes ++ [b]) [] := by
  cases h with
  | texts texts => exact .texts (texts.blank hb)
  | arrayLead outer takes lead next =>
    rw [List.append_assoc]
    refine .arrayLead outer takes (lead.blank (by simp) hb) (next.imp_right fun hfirst => ?_)
    exact ⟨hfirst.1, hfirst.2.1, hfirst.2.2.append hb⟩
  | arrayItems outer takes spelled =>
    rw [List.append_assoc]
    exact .arrayItems outer takes (spelled.blank (by simp) hb)
  | objectLead outer takes lead next =>
    rw [List.append_assoc]
    refine .objectLead outer takes (lead.blank (by simp) hb) (next.imp_right fun hfirst => ?_)
    exact ⟨hfirst.1, hfirst.2.1, hfirst.2.2.append hb⟩
  | objectMembers outer takes spelled =>
    rw [List.append_assoc]
    exact .objectMembers outer takes (spelled.blank (by simp) hb)
  | memberName outer takes lead form decoded blank =>
    have hmember := Reaches.memberName outer takes lead form decoded (blank.append hb)
    simpa only [List.append_assoc, List.cons_append] using hmember
  | memberColon outer takes lead form decoded blank blank' =>
    have hmember := Reaches.memberColon outer takes lead form decoded blank (blank'.append hb)
    simpa only [List.append_assoc, List.cons_append] using hmember

end Reaches

/-! ### Tokens -/

/-- The words with their values. -/
inductive IsWord : List UInt8 → Value → Prop
  | null : IsWord [0x6e, 0x75, 0x6c, 0x6c] .null
  | trueWord : IsWord [0x74, 0x72, 0x75, 0x65] (.boolean true)
  | falseWord : IsWord [0x66, 0x61, 0x6c, 0x73, 0x65] (.boolean false)

lemma IsWord.spells {text : List UInt8} {value : Value} (h : IsWord text value) :
    Spells text (.value value) := by
  cases h with
  | null => exact .null
  | trueWord => exact .trueWord
  | falseWord => exact .falseWord

/-- The token in writing. -/
inductive Token.IsWritten : Token → List UInt8 → Prop
  | word {text : List UInt8} {value : Value} (word : IsWord text value) :
      IsWritten (.word value) text
  | number (number : Number) : IsWritten (.number (Numeral.ofComplete number)) number.text
  | string {raw : List UInt8} (form : StringForm raw) : IsWritten (.string raw) (quoted raw)
  | openArray : IsWritten .openArray [0x5b]
  | closeArray : IsWritten .closeArray [0x5d]
  | openObject : IsWritten .openObject [0x7b]
  | closeObject : IsWritten .closeObject [0x7d]
  | comma : IsWritten .comma [0x2c]
  | colon : IsWritten .colon [0x3a]

/-- The result is good, or reading has stopped after values of texts with which the bytes begin. -/
inductive Yields {α : Type} (good : α → Prop) (bytes : List UInt8) : Except Stop α → Prop
  | result {a : α} (h : good a) : Yields good bytes (.ok a)
  | stopped {stop : Stop} (h : Beginning stop.values bytes) : Yields good bytes (.error stop)

lemma Yields.imp {α : Type} {good good' : α → Prop} {bytes : List UInt8} {result : Except Stop α}
    (h : Yields good bytes result) (himp : ∀ a, good a → good' a) : Yields good' bytes result := by
  cases h with
  | result h => exact .result (himp _ h)
  | stopped h => exact .stopped h

lemma yields_ite {α : Type} {good : α → Prop} {bytes : List UInt8} {p : Prop} [Decidable p]
    {result other : Except Stop α} (h : p → Yields good bytes result)
    (h' : ¬ p → Yields good bytes other) : Yields good bytes (if p then result else other) := by
  by_cases hp : p
  · rw [if_pos hp]
    exact h hp
  · rw [if_neg hp]
    exact h' hp

lemma Yields.bind {α β : Type} {good : α → Prop} {good' : β → Prop} {bytes more : List UInt8}
    {result : Except Stop α} (h : Yields good bytes result) {next : α → Except Stop β}
    (hnext : ∀ a, good a → Yields good' (bytes ++ more) (next a)) :
    Yields good' (bytes ++ more) (result >>= next) := by
  cases h with
  | result h => exact hnext _ h
  | stopped h => exact .stopped (h.append more)

namespace Reader

/-- The reader is between two tokens.  The second bytes are those of the last token, so that a
number can only be gone on with as the token can. -/
structure Between (r : Reader) (bytes token : List UInt8) : Prop where
  idle : r.scan = .idle
  reaches : ∃ last, Reaches r.expected r.frames r.values bytes last ∧
    ∀ b, Extends last b → Extends token b

variable {r : Reader} {expected : Expected} {bytes last text : List UInt8}

lemma yields_stop {good : Reader → Prop} (h : Reaches expected r.frames r.values bytes last)
    (text : List UInt8) (defect : Defect) : Yields good (bytes ++ text) (r.stop defect) :=
  .stopped (h.beginning.append text)

/-- Within a container, the last bytes do not matter. -/
lemma between_of_nil (idle : r.scan = .idle)
    (h : Reaches r.expected r.frames r.values bytes []) (token : List UInt8) :
    r.Between bytes token :=
  ⟨idle, [], h, fun b hextends => absurd hextends (not_extends_nil b)⟩

/-- A complete value takes its place. -/
lemma yields_complete (h : Reaches expected r.frames r.values bytes last)
    (takes : expected.TakesValue) {value : Value} (spelled : Spells text (.value value))
    (apart : ∀ b ∈ text.head?, ¬ Extends last b) :
    Yields (fun next => next.Between (bytes ++ text) text) (bytes ++ text) (r.complete value) := by
  obtain ⟨scan, _, frames, values⟩ := r
  cases h with
  | texts texts =>
    refine .result ⟨rfl, text, .texts ?_, fun b hextends => hextends⟩
    rw [List.reverse_cons]
    exact texts.text spelled apart
  | arrayLead outer takes' lead next =>
    refine .result (between_of_nil rfl ?_ text)
    rw [List.append_assoc]
    refine .arrayItems outer takes' ?_
    rw [List.reverse_cons]
    simpa using lead.item spelled gap_nil
  | objectLead _ _ _ next =>
    rcases takes with rfl | rfl <;> rcases next with h | ⟨h, -⟩ <;> cases h
  | memberColon outer takes' lead form decoded blank blank' =>
    refine .result (between_of_nil rfl ?_ text)
    have hmember := Reaches.objectMembers outer takes'
      (.member lead form decoded blank blank' spelled gap_nil)
    simpa using hmember
  | arrayItems | objectMembers | memberName => rcases takes with h | h <;> cases h

/-- A closing bracket or brace completes the value of its container. -/
lemma yields_container {frames : List Frame} {outer inner : List UInt8} {first final : UInt8}
    {value : Value} (h : Reaches expected frames r.values outer last) (takes : expected.TakesValue)
    (hfirst : ¬ IsNumeric first) (spelled : Spells (first :: (inner ++ [final])) (.value value)) :
    Yields (fun next => next.Between (outer ++ first :: inner ++ [final]) [final])
      (outer ++ first :: inner ++ [final]) ({ r with frames }.complete value) := by
  have hcomplete := yields_complete (r := { r with frames }) h takes spelled
    (by simpa using not_extends_of_not_isNumeric hfirst last)
  have hbytes : outer ++ first :: (inner ++ [final]) = outer ++ first :: inner ++ [final] := by
    simp
  rw [hbytes] at hcomplete
  refine hcomplete.imp fun next hnext => ⟨hnext.idle, ?_⟩
  obtain ⟨last, hreaches, hextends⟩ := hnext.reaches
  exact ⟨last, hreaches, fun b hb => absurd (hextends b hb) (not_extends_of_head hfirst _ b)⟩

lemma yields_closeArray (h : Reaches r.expected r.frames r.values bytes last)
    (hexpected : r.expected = .valueOrClose ∨ r.expected = .separator) :
    Yields (fun next => next.Between (bytes ++ [0x5d]) [0x5d]) (bytes ++ [0x5d]) r.closeArray := by
  obtain ⟨scan, expected, frames, values⟩ := r
  cases h with
  | @arrayLead _ _ _ _ items _ _ inner outer takes _ next =>
    rcases next with rfl | ⟨-, rfl, hgap⟩
    · rcases hexpected with h | h <;> cases h
    · exact yields_container outer takes (by decide) (.emptyArray hgap)
  | arrayItems outer takes spelled =>
    exact yields_container outer takes (by decide) (.array spelled)
  | texts => rcases hexpected with h | h <;> cases h
  | objectLead outer takes lead next => exact yields_stop (.objectLead outer takes lead next) _ _
  | objectMembers outer takes spelled => exact yields_stop (.objectMembers outer takes spelled) _ _
  | memberName => rcases hexpected with h | h <;> cases h
  | memberColon => rcases hexpected with h | h <;> cases h

lemma yields_closeObject (h : Reaches r.expected r.frames r.values bytes last)
    (hexpected : r.expected = .nameOrClose ∨ r.expected = .separator) :
    Yields (fun next => next.Between (bytes ++ [0x7d]) [0x7d]) (bytes ++ [0x7d]) r.closeObject := by
  obtain ⟨scan, expected, frames, values⟩ := r
  cases h with
  | objectLead outer takes _ next =>
    rcases next with rfl | ⟨-, rfl, hgap⟩
    · rcases hexpected with h | h <;> cases h
    · exact yields_container outer takes (by decide) (.emptyObject hgap)
  | objectMembers outer takes spelled =>
    exact yields_container outer takes (by decide) (.object spelled)
  | texts => rcases hexpected with h | h <;> cases h
  | arrayLead outer takes lead next => exact yields_stop (.arrayLead outer takes lead next) _ _
  | arrayItems outer takes spelled => exact yields_stop (.arrayItems outer takes spelled) _ _
  | memberName => rcases hexpected with h | h <;> cases h
  | memberColon => rcases hexpected with h | h <;> cases h

/-- The name of a member. -/
lemma yields_beginMember (h : Reaches r.expected r.frames r.values bytes last)
    (hexpected : r.expected = .nameOrClose ∨ r.expected = .name) {raw : List UInt8}
    (form : StringForm raw) :
    Yields (fun next => next.Between (bytes ++ quoted raw) (quoted raw)) (bytes ++ quoted raw)
      (r.beginMember raw) := by
  have hstop : ∀ defect, Yields (fun next => next.Between (bytes ++ quoted raw) (quoted raw))
      (bytes ++ quoted raw) (r.stop defect) := fun defect => yields_stop h _ defect
  obtain ⟨scan, expected, frames, values⟩ := r
  cases h with
  | objectLead outer takes lead =>
    unfold beginMember
    dsimp only
    split
    · next name decoded =>
      refine .result (between_of_nil rfl ?_ _)
      have hmember := Reaches.memberName outer takes lead form decoded gap_nil
      simpa using hmember
    · exact hstop _
  | objectMembers => rcases hexpected with h | h <;> cases h
  | texts => rcases hexpected with h | h <;> cases h
  | arrayLead => exact hstop _
  | arrayItems => exact hstop _
  | memberName => exact hstop _
  | memberColon => exact hstop _

/-- The comma between two entries. -/
lemma yields_goOn (h : Reaches r.expected r.frames r.values bytes last)
    (hexpected : r.expected = .separator) :
    Yields (fun next => next.Between (bytes ++ [0x2c]) [0x2c]) (bytes ++ [0x2c]) r.goOn := by
  obtain ⟨scan, expected, frames, values⟩ := r
  cases h with
  | arrayItems outer takes spelled =>
    refine .result (between_of_nil rfl ?_ _)
    have hlead := Reaches.arrayLead outer takes (spelled.nextItem gap_nil) (Or.inl rfl)
    simpa using hlead
  | objectMembers outer takes spelled =>
    refine .result (between_of_nil rfl ?_ _)
    have hlead := Reaches.objectLead outer takes (spelled.nextMember gap_nil) (Or.inl rfl)
    simpa using hlead
  | arrayLead _ _ _ next => rcases next with rfl | ⟨rfl, -⟩ <;> cases hexpected
  | objectLead _ _ _ next => rcases next with rfl | ⟨rfl, -⟩ <;> cases hexpected
  | texts | memberName | memberColon => cases hexpected

/-- The colon after a name. -/
lemma yields_colon (h : Reaches r.expected r.frames r.values bytes last)
    (hexpected : r.expected = .colon) :
    Yields (fun next => next.Between (bytes ++ [0x3a]) [0x3a]) (bytes ++ [0x3a])
      (.ok { r with scan := .idle, expected := .value }) := by
  obtain ⟨scan, expected, frames, values⟩ := r
  cases h with
  | memberName outer takes lead form decoded blank =>
    refine .result (between_of_nil rfl ?_ _)
    have hmember := Reaches.memberColon outer takes lead form decoded blank gap_nil
    simpa using hmember
  | arrayLead _ _ _ next => rcases next with rfl | ⟨rfl, -⟩ <;> cases hexpected
  | objectLead _ _ _ next => rcases next with rfl | ⟨rfl, -⟩ <;> cases hexpected
  | texts | arrayItems | objectMembers | memberColon => cases hexpected

/-- A token where a value may stand. -/
lemma yields_takeValue (h : Reaches r.expected r.frames r.values bytes last)
    (takes : r.expected.TakesValue) {token : Token} (written : token.IsWritten text)
    (apart : ∀ b ∈ text.head?, ¬ Extends last b) :
    Yields (fun next => next.Between (bytes ++ text) text) (bytes ++ text) (r.takeValue token) := by
  cases written with
  | word word => exact yields_complete h takes word.spells apart
  | number number =>
    unfold takeValue
    dsimp only
    rw [Numeral.value?_ofComplete]
    split
    · next value denotes => exact yields_complete h takes (.number denotes) apart
    · exact yields_stop h _ _
  | string form =>
    unfold takeValue
    dsimp only
    split
    · next text decoded => exact yields_complete h takes (.string form decoded) apart
    · exact yields_stop h _ _
  | openArray =>
    refine .result (between_of_nil rfl ?_ _)
    exact .arrayLead h takes (.firstItem gap_nil) (Or.inr ⟨rfl, rfl, gap_nil⟩)
  | openObject =>
    refine .result (between_of_nil rfl ?_ _)
    exact .objectLead h takes (.firstMember gap_nil) (Or.inr ⟨rfl, rfl, gap_nil⟩)
  | closeArray | closeObject | comma | colon => exact yields_stop h _ _

/-- Any token, wherever it stands. -/
theorem yields_take (h : Reaches r.expected r.frames r.values bytes last) {token : Token}
    (written : token.IsWritten text) (apart : ∀ b ∈ text.head?, ¬ Extends last b) :
    Yields (fun next => next.Between (bytes ++ text) text) (bytes ++ text) (r.take token) := by
  unfold Reader.take
  split
  · next hexpected =>
    cases written with
    | closeArray => exact yields_closeArray h (Or.inl hexpected)
  · next hexpected => exact yields_takeValue h (Or.inl hexpected) written apart
  · next hexpected _ => exact yields_takeValue h (Or.inr hexpected) written apart
  · next hexpected =>
    cases written with
    | closeObject => exact yields_closeObject h (Or.inl hexpected)
  · next hexpected =>
    cases written with
    | string form => exact yields_beginMember h (Or.inr hexpected) form
  · next hexpected =>
    cases written with
    | string form => exact yields_beginMember h (Or.inl hexpected) form
  · next hexpected =>
    cases written with
    | colon => exact yields_colon h hexpected
  · next hexpected =>
    cases written with
    | comma => exact yields_goOn h hexpected
  · next hexpected =>
    cases written with
    | closeArray => exact yields_closeArray h (Or.inr hexpected)
  · next hexpected =>
    cases written with
    | closeObject => exact yields_closeObject h (Or.inr hexpected)
  · exact yields_stop h _ _

/-! ### Bytes -/

/-- The state of the reader spells out the bytes taken so far. -/
inductive Holds (r : Reader) (bytes : List UInt8) : Prop
  | between {last : List UInt8} (idle : r.scan = .idle)
      (reaches : Reaches r.expected r.frames r.values bytes last)
      (closed : ∀ b, ¬ Extends last b) : Holds r bytes
  | word {front pending rest last : List UInt8} {value : Value} (scan : r.scan = .word rest value)
      (split : bytes = front ++ pending) (reaches : Reaches r.expected r.frames r.values front last)
      (apart : ∀ b ∈ pending.head?, ¬ Extends last b) (some : pending ≠ [])
      (word : IsWord (pending ++ rest) value) : Holds r bytes
  | number {front pending last : List UInt8} {numeral : Numeral} (scan : r.scan = .number numeral)
      (split : bytes = front ++ pending) (reaches : Reaches r.expected r.frames r.values front last)
      (apart : ∀ b ∈ pending.head?, ¬ Extends last b)
      (read : Numeral.readAll? pending = some numeral) : Holds r bytes
  | string {front raw last : List UInt8} {mode : StringMode}
      (scan : r.scan = .string mode raw.reverse) (split : bytes = front ++ 0x22 :: raw)
      (reaches : Reaches r.expected r.frames r.values front last)
      (reads : StringReads mode raw) : Holds r bytes

/-- After a token that is not a number, nothing is left open. -/
lemma Between.holds {b : UInt8} {token : List UInt8} (h : r.Between bytes (b :: token))
    (hb : ¬ IsNumeric b) : r.Holds bytes := by
  obtain ⟨last, hreaches, hextends⟩ := h.reaches
  exact .between h.idle hreaches fun c hc => not_extends_of_head hb token c (hextends c hc)

/-- A token of one byte. -/
lemma yields_take_sign (h : Reaches r.expected r.frames r.values bytes last) {token : Token}
    {b : UInt8} (written : token.IsWritten [b]) (hb : ¬ IsNumeric b) :
    Yields (fun next => next.Holds (bytes ++ [b])) (bytes ++ [b]) (r.take token) := by
  have apart : ∀ c ∈ [b].head?, ¬ Extends last c := by
    simpa using not_extends_of_not_isNumeric hb last
  exact (yields_take h written apart).imp fun next hnext => hnext.holds hb

/-- The first byte of a token, or a blank. -/
theorem yields_begin (h : Reaches r.expected r.frames r.values bytes last) {b : UInt8}
    (apart : ¬ Extends last b) :
    Yields (fun next => next.Holds (bytes ++ [b])) (bytes ++ [b]) (r.begin b) := by
  have hword : ∀ {rest : List UInt8} {value : Value}, IsWord (b :: rest) value →
      Yields (fun next => next.Holds (bytes ++ [b])) (bytes ++ [b])
        (.ok { r with scan := .word rest value }) := fun word =>
    .result (.word rfl rfl h (by simpa using apart) (by simp) word)
  unfold Reader.begin
  refine yields_ite (fun hblank => ?_) fun _ => ?_
  · exact .result (.between rfl (h.blank hblank) not_extends_nil)
  refine yields_ite (fun hquote => ?_) fun _ => ?_
  · subst hquote
    exact .result (.string (by rfl) rfl h stringReads_nil)
  -- the signs
  refine yields_ite (fun hsign => ?_) fun _ => ?_
  · subst hsign
    exact yields_take_sign h .openArray (by decide)
  refine yields_ite (fun hsign => ?_) fun _ => ?_
  · subst hsign
    exact yields_take_sign h .closeArray (by decide)
  refine yields_ite (fun hsign => ?_) fun _ => ?_
  · subst hsign
    exact yields_take_sign h .openObject (by decide)
  refine yields_ite (fun hsign => ?_) fun _ => ?_
  · subst hsign
    exact yields_take_sign h .closeObject (by decide)
  refine yields_ite (fun hsign => ?_) fun _ => ?_
  · subst hsign
    exact yields_take_sign h .comma (by decide)
  refine yields_ite (fun hsign => ?_) fun _ => ?_
  · subst hsign
    exact yields_take_sign h .colon (by decide)
  -- the letters that words start with
  refine yields_ite (fun hletter => ?_) fun _ => ?_
  · subst hletter
    exact hword .trueWord
  refine yields_ite (fun hletter => ?_) fun _ => ?_
  · subst hletter
    exact hword .falseWord
  refine yields_ite (fun hletter => ?_) fun _ => ?_
  · subst hletter
    exact hword .null
  split
  · next numeral hstart =>
    refine .result (.number rfl rfl h (by simpa using apart) ?_)
    simp [Numeral.readAll?, hstart]
  · exact yields_stop h _ _

/-- One more letter of a word. -/
lemma yields_step_word {front pending rest : List UInt8} {value : Value}
    (scan : r.scan = .word rest value) (reaches : Reaches r.expected r.frames r.values front last)
    (apart : ∀ b ∈ pending.head?, ¬ Extends last b) (some : pending ≠ [])
    (word : IsWord (pending ++ rest) value) (b : UInt8) :
    Yields (fun next => next.Holds (front ++ pending ++ [b])) (front ++ pending ++ [b])
      (r.step b) := by
  unfold Reader.step
  rw [scan, List.append_assoc]
  have hstop : Yields (fun next => next.Holds (front ++ (pending ++ [b])))
      (front ++ (pending ++ [b])) (r.stop .malformed) := yields_stop reaches _ _
  cases rest with
  | nil => exact hstop
  | cons next rest =>
    dsimp only
    have happart : ∀ c ∈ (pending ++ [b]).head?, ¬ Extends last c := by
      rwa [List.head?_append_of_ne_nil _ some]
    split_ifs with hb hrest
    · exact hstop
    · obtain rfl : rest = [] := List.isEmpty_iff.mp hrest
      obtain rfl : b = next := not_not.mp hb
      refine (yields_take reaches (.word word) happart).imp fun next hnext => ?_
      -- words start with letters that numbers do not start with
      obtain ⟨first, more, hfirst, hnumeric⟩ : ∃ first more,
          pending ++ [b] = first :: more ∧ ¬ IsNumeric first := by
        generalize pending ++ [b] = text at word
        cases word with
        | null | trueWord | falseWord => exact ⟨_, _, rfl, by decide⟩
      rw [hfirst] at hnext
      rw [hfirst]
      exact hnext.holds hnumeric
    · obtain rfl : b = next := not_not.mp hb
      refine .result (.word rfl rfl reaches happart (by simp) ?_)
      rwa [List.append_assoc, List.singleton_append]

/-- One more byte of a number, or the byte after it. -/
lemma yields_step_number {front pending : List UInt8} {numeral : Numeral}
    (scan : r.scan = .number numeral) (reaches : Reaches r.expected r.frames r.values front last)
    (apart : ∀ b ∈ pending.head?, ¬ Extends last b)
    (read : Numeral.readAll? pending = some numeral) (b : UInt8) :
    Yields (fun next => next.Holds (front ++ pending ++ [b])) (front ++ pending ++ [b])
      (r.step b) := by
  unfold Reader.step
  rw [scan]
  have hpending : pending ≠ [] := by
    rintro rfl
    cases read
  dsimp only
  split
  · next next hstep =>
    refine .result (.number rfl (List.append_assoc _ _ _) reaches ?_
      (Numeral.readAll?_append_singleton read hstep))
    rwa [List.head?_append_of_ne_nil _ hpending]
  · next hstep =>
    -- the number ends before the byte, which then begins what follows
    obtain ⟨number, rfl, rfl⟩ := (Numeral.reads_of_readAll? read).exists_number hstep
    refine (yields_take reaches (.number number) apart).bind fun next hnext => ?_
    obtain ⟨last, hreaches, hextends⟩ := hnext.reaches
    exact yields_begin hreaches fun hb =>
      Numeral.not_extends_of_complete read hstep (hextends b hb)
  · rw [List.append_assoc]
    exact yields_stop reaches _ _

/-- One more byte of a string. -/
lemma yields_step_string {front raw : List UInt8} {mode : StringMode}
    (scan : r.scan = .string mode raw.reverse)
    (reaches : Reaches r.expected r.frames r.values front last) (reads : StringReads mode raw)
    (b : UInt8) :
    Yields (fun next => next.Holds (front ++ 0x22 :: raw ++ [b])) (front ++ 0x22 :: raw ++ [b])
      (r.step b) := by
  unfold Reader.step
  rw [scan]
  dsimp only
  rcases stepString_cases r raw.reverse b mode with ⟨rfl, rfl, hstep⟩ | ⟨next, hstep, hreads⟩ | hstep
  · rw [hstep, List.reverse_reverse]
    have hbytes : front ++ 0x22 :: raw ++ [0x22] = front ++ quoted raw := by
      simp [quoted]
    rw [hbytes]
    refine (yields_take reaches (.string reads.form) ?_).imp fun next hnext => ?_
    · simpa [quoted] using not_extends_of_not_isNumeric (by decide) last
    · exact hnext.holds (by decide)
  · rw [hstep]
    refine .result (.string ?_ ?_ reaches (hreads raw reads))
    · simp
    · simp
  · rw [hstep, List.append_assoc]
    exact yields_stop reaches _ _

/-- One more byte. -/
theorem Holds.step (h : r.Holds bytes) (b : UInt8) :
    Yields (fun next => next.Holds (bytes ++ [b])) (bytes ++ [b]) (r.step b) := by
  cases h with
  | between idle reaches closed =>
    unfold Reader.step
    rw [idle]
    exact yields_begin reaches (closed b)
  | word scan split reaches apart some word =>
    subst split
    exact yields_step_word scan reaches apart some word b
  | number scan split reaches apart read =>
    subst split
    exact yields_step_number scan reaches apart read b
  | string scan split reaches reads =>
    subst split
    exact yields_step_string scan reaches reads b

/-- Any number of bytes. -/
theorem Holds.run (h : r.Holds bytes) (more : List UInt8) :
    Yields (fun next => next.Holds (bytes ++ more)) (bytes ++ more) (r.run more) := by
  induction more generalizing r bytes with
  | nil =>
    rw [List.append_nil]
    exact .result h
  | cons b more ih =>
    have hbytes : bytes ++ b :: more = bytes ++ [b] ++ more := by simp
    rw [run_cons, hbytes]
    exact (h.step b).bind fun next hnext => ih hnext

end Reader

/-! ### The end of the input -/

/-- No number goes on with a blank. -/
lemma Numeral.step_blank_ne_more (numeral next : Numeral) : numeral.step 0x20 ≠ .more next := by
  have hdigit : digit? 0x20 = none := by decide
  obtain ⟨part, negative, coefficient, places, powerNegative, power⟩ := numeral
  cases part <;> simp [Numeral.step, hdigit, orPoint, orPower]

namespace Reader

variable {r : Reader} {bytes : List UInt8}

/-- Only between two parts of a string may a blank come. -/
lemma stepString_blank {mode : StringMode} (hmode : mode ≠ .plain) (met : List UInt8) :
    r.stepString mode met 0x20 = r.stop .malformed := by
  cases mode with
  | plain => exact absurd rfl hmode
  | escape => rfl
  | digits left => rfl
  | continuation left => rfl

/-- What is left to check once the blank at the end has been taken. -/
def conclude (r : Reader) : Except Stop (List Value) :=
  if !r.frames.isEmpty then .error ⟨.malformed, r.values⟩
  else
    match r.scan with
    | .string _ _ => if r.values.isEmpty then .error ⟨.malformed, r.values⟩ else .ok r.values
    | _ => .ok r.values

lemma finish_eq (r : Reader) : r.finish = (r.step 0x20).bind conclude := rfl

/-- The end of the input between two tokens. -/
lemma yields_conclude {last : List UInt8} (h : Reaches r.expected r.frames r.values bytes last)
    (idle : r.scan = .idle) :
    Yields (fun values => Texts bytes values.reverse ∨ Unfinished bytes values.reverse) bytes
      r.conclude := by
  obtain ⟨_, expected, frames, values⟩ := r
  subst idle
  cases h with
  | texts texts => exact .result (Or.inl ⟨last, texts⟩)
  | arrayLead outer takes lead next => exact .stopped (outer.beginning.append _)
  | arrayItems outer takes spelled => exact .stopped (outer.beginning.append _)
  | objectLead outer takes lead next => exact .stopped (outer.beginning.append _)
  | objectMembers outer takes spelled => exact .stopped (outer.beginning.append _)
  | memberName outer => exact .stopped (outer.beginning.append _)
  | memberColon outer => exact .stopped (outer.beginning.append _)

/-- The end of the input within a word. -/
lemma yields_finish_word {front pending rest last : List UInt8} {value : Value}
    (scan : r.scan = .word rest value) (reaches : Reaches r.expected r.frames r.values front last)
    (word : IsWord (pending ++ rest) value) :
    Yields (fun values => Texts (front ++ pending) values.reverse ∨
      Unfinished (front ++ pending) values.reverse) (front ++ pending) r.finish := by
  have hstep : r.step 0x20 = r.stop .malformed := by
    unfold Reader.step
    rw [scan]
    cases rest with
    | nil => rfl
    | cons next rest =>
      have hnext : (0x20 : UInt8) ≠ next := by
        -- no word has a blank in it
        have hmem : next ∈ pending ++ next :: rest := by simp
        rintro rfl
        generalize pending ++ 0x20 :: rest = text at hmem word
        cases word <;> simp at hmem
      dsimp only
      rw [if_pos hnext]
  rw [finish_eq, hstep]
  exact .stopped (reaches.beginning.append _)

/-- The end of the input after a number. -/
lemma yields_finish_number {front pending last : List UInt8} {numeral : Numeral}
    (scan : r.scan = .number numeral) (reaches : Reaches r.expected r.frames r.values front last)
    (apart : ∀ b ∈ pending.head?, ¬ Extends last b)
    (read : Numeral.readAll? pending = some numeral) :
    Yields (fun values => Texts (front ++ pending) values.reverse ∨
      Unfinished (front ++ pending) values.reverse) (front ++ pending) r.finish := by
  rw [finish_eq]
  unfold Reader.step
  rw [scan]
  dsimp only
  split
  · next next hstep => exact absurd hstep (Numeral.step_blank_ne_more numeral next)
  · next hstep =>
    obtain ⟨number, rfl, rfl⟩ := (Numeral.reads_of_readAll? read).exists_number hstep
    have htake := yields_take reaches (.number number) apart
    generalize r.take (.number (Numeral.ofComplete number)) = result at htake
    cases htake with
    | stopped h => exact .stopped h
    | @result next hnext =>
      obtain ⟨last, hreaches, -⟩ := hnext.reaches
      show Yields _ _ (conclude { next with scan := .idle })
      exact yields_conclude hreaches rfl
  · exact .stopped (reaches.beginning.append _)

/-- The end of the input within a string. -/
lemma yields_finish_string {front raw last : List UInt8} {mode : StringMode}
    (scan : r.scan = .string mode raw.reverse)
    (reaches : Reaches r.expected r.frames r.values front last) (reads : StringReads mode raw) :
    Yields (fun values => Texts (front ++ 0x22 :: raw) values.reverse ∨
      Unfinished (front ++ 0x22 :: raw) values.reverse) (front ++ 0x22 :: raw) r.finish := by
  have hstep : r.step 0x20 = r.stepString mode raw.reverse 0x20 := by
    unfold Reader.step
    rw [scan]
  rw [finish_eq, hstep]
  by_cases hmode : mode = .plain
  · subst hmode
    show Yields _ _ (conclude { r with scan := .string .plain (0x20 :: raw.reverse) })
    unfold conclude
    dsimp only
    refine yields_ite (fun _ => .stopped (reaches.beginning.append _)) fun hframes => ?_
    refine yields_ite (fun _ => .stopped (reaches.beginning.append _)) fun hvalues => ?_
    obtain ⟨_, expected, frames, values⟩ := r
    cases reaches with
    | texts texts =>
      refine .result (Or.inr ⟨front, raw, rfl, reads.form, ?_, last, texts⟩)
      simpa using hvalues
    | _ => simp at hframes
  · rw [stepString_blank hmode]
    exact .stopped (reaches.beginning.append _)

/-- The end of the input, wherever the reader is. -/
theorem Holds.finish (h : r.Holds bytes) :
    Yields (fun values => Texts bytes values.reverse ∨ Unfinished bytes values.reverse) bytes
      r.finish := by
  cases h with
  | between idle reaches closed =>
    have hstep : r.step 0x20 = .ok { r with scan := .idle } := by
      unfold Reader.step
      rw [idle]
      rfl
    rw [finish_eq, hstep]
    show Yields _ _ (conclude { r with scan := .idle })
    exact yields_conclude reaches rfl
  | word scan split reaches apart some word =>
    subst split
    exact yields_finish_word scan reaches word
  | number scan split reaches apart read =>
    subst split
    exact yields_finish_number scan reaches apart read
  | string scan split reaches reads =>
    subst split
    exact yields_finish_string scan reaches reads

end Reader

/-- What a whole input yields. -/
theorem yields_read (bytes : List UInt8) :
    Yields (fun values => Texts bytes values.reverse ∨ Unfinished bytes values.reverse) bytes
      (({ : Reader }.run bytes).bind Reader.finish) := by
  have hstart : Reader.Holds {} [] := .between rfl (.texts .nil) not_extends_nil
  have hrun := hstart.run bytes
  rw [List.nil_append] at hrun
  cases hresult : ({ : Reader }.run bytes) with
  | error stop =>
    rw [hresult] at hrun
    cases hrun with
    | stopped h => exact .stopped h
  | ok r =>
    rw [hresult] at hrun
    cases hrun with
    | result h => exact h.finish

/-- Wherever reading stops, the values are those of texts with which the input begins. -/
theorem exists_texts_of_read (bytes : List UInt8) :
    ∃ front rest, bytes = front ++ rest ∧ Texts front (read bytes).values := by
  have hread := yields_read bytes
  unfold read
  cases hresult : ({ : Reader }.run bytes).bind Reader.finish with
  | error stop =>
    rw [hresult] at hread
    cases hread with
    | stopped h => exact h
  | ok values =>
    rw [hresult] at hread
    cases hread with
    | result h =>
      rcases h with htexts | ⟨front, raw, rfl, -, -, htexts⟩
      · exact ⟨bytes, [], (List.append_nil _).symm, htexts⟩
      · exact ⟨front, _, rfl, htexts⟩

/-- An input that ends well is a sequence of complete texts, or has an unfinished string after
them. -/
theorem texts_or_unfinished_of_read {bytes : List UInt8} (h : (read bytes).defect? = none) :
    Texts bytes (read bytes).values ∨ Unfinished bytes (read bytes).values := by
  have hread := yields_read bytes
  unfold read at h ⊢
  cases hresult : ({ : Reader }.run bytes).bind Reader.finish with
  | error stop =>
    rw [hresult] at h
    cases h
  | ok values =>
    rw [hresult] at hread
    cases hread with
    | result h => exact h

end RecordSchema.Json
