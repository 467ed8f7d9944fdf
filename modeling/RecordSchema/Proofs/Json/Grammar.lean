import RecordSchema.Proofs.Inference.Range
import RecordSchema.Proofs.Json.Number
import RecordSchema.Proofs.Json.StringForm

/-!
# The grammar of inputs

Which bytes spell which value, and which bytes are a sequence of texts.  Whitespace may stand
between any two tokens and between texts, and nothing has to part one text from the next, except
that a number takes every byte that it can go on with.

The grammar is told without a reader.  Inside brackets it goes from the left: what stands before an
item is either nothing or items and a comma, and items end in whitespace.  Besides sequences of
complete texts (`Texts`) there are those with a string after them that is cut off (`Unfinished`).
-/

namespace RecordSchema.Json

/-- Whitespace. -/
def Gap (bytes : List UInt8) : Prop := ∀ b ∈ bytes, Reader.isBlank b = true

/-- What bytes can spell. -/
inductive Form where
  /-- One value. -/
  | value (value : Value)
  /-- What stands between an opening bracket and an item: the items before it and a comma. -/
  | itemLead (items : List Value)
  /-- Items, at least one. -/
  | items (items : List Value)
  | memberLead (members : List (String × Value))
  | members (members : List (String × Value))

/-- The bytes spell this. -/
inductive Spells : List UInt8 → Form → Prop
  | null : Spells [0x6e, 0x75, 0x6c, 0x6c] (.value .null)
  | trueWord : Spells [0x74, 0x72, 0x75, 0x65] (.value (.boolean true))
  | falseWord : Spells [0x66, 0x61, 0x6c, 0x73, 0x65] (.value (.boolean false))
  | number {number : Number} {value : Value} (denotes : number.value? = some value) :
      Spells number.text (.value value)
  | string {raw : List UInt8} {text : String} (form : StringForm raw)
      (decoded : stringText raw = .ok text) : Spells (quoted raw) (.value (.string text))
  | emptyArray {gap : List UInt8} (blank : Gap gap) :
      Spells (0x5b :: (gap ++ [0x5d])) (.value (.array []))
  | array {bytes : List UInt8} {items : List Value} (spelled : Spells bytes (.items items)) :
      Spells (0x5b :: (bytes ++ [0x5d])) (.value (.array items))
  | emptyObject {gap : List UInt8} (blank : Gap gap) :
      Spells (0x7b :: (gap ++ [0x7d])) (.value (.object []))
  | object {bytes : List UInt8} {members : List (String × Value)}
      (spelled : Spells bytes (.members members)) :
      Spells (0x7b :: (bytes ++ [0x7d])) (.value (.object members))
  | firstItem {gap : List UInt8} (blank : Gap gap) : Spells gap (.itemLead [])
  | nextItem {bytes gap : List UInt8} {items : List Value} (spelled : Spells bytes (.items items))
      (blank : Gap gap) : Spells (bytes ++ 0x2c :: gap) (.itemLead items)
  | item {lead text gap : List UInt8} {items : List Value} {value : Value}
      (before : Spells lead (.itemLead items)) (spelled : Spells text (.value value))
      (blank : Gap gap) : Spells (lead ++ text ++ gap) (.items (items ++ [value]))
  | firstMember {gap : List UInt8} (blank : Gap gap) : Spells gap (.memberLead [])
  | nextMember {bytes gap : List UInt8} {members : List (String × Value)}
      (spelled : Spells bytes (.members members)) (blank : Gap gap) :
      Spells (bytes ++ 0x2c :: gap) (.memberLead members)
  /-- The last member of a name gives its value, at the place of the first one. -/
  | member {lead raw gap gap' text gap'' : List UInt8} {members : List (String × Value)}
      {name : String} {value : Value} (before : Spells lead (.memberLead members))
      (form : StringForm raw) (decoded : stringText raw = .ok name) (blank : Gap gap)
      (blank' : Gap gap') (spelled : Spells text (.value value)) (blank'' : Gap gap'') :
      Spells (lead ++ quoted raw ++ gap ++ 0x3a :: (gap' ++ text ++ gap''))
        (.members (putEntry name value members))

/-- The bytes are complete texts of these values, in order, with optional whitespace around them.
The last bytes are those of the last text if nothing stands after it. -/
inductive TextsUpTo : List UInt8 → List Value → List UInt8 → Prop
  | nil : TextsUpTo [] [] []
  | blank {bytes last : List UInt8} {values : List Value} {b : UInt8}
      (texts : TextsUpTo bytes values last) (blank : Reader.isBlank b = true) :
      TextsUpTo (bytes ++ [b]) values []
  | text {bytes last text : List UInt8} {values : List Value} {value : Value}
      (texts : TextsUpTo bytes values last) (spelled : Spells text (.value value))
      (apart : ∀ b ∈ text.head?, ¬ Extends last b) :
      TextsUpTo (bytes ++ text) (values ++ [value]) text

/-- The bytes are exactly a sequence of complete texts of these values. -/
def Texts (bytes : List UInt8) (values : List Value) : Prop := ∃ last, TextsUpTo bytes values last

/-- Texts of some values, at least one, and after them a quote and what may stand between quotes,
but no second quote. -/
def Unfinished (bytes : List UInt8) (values : List Value) : Prop :=
  ∃ front raw, bytes = front ++ 0x22 :: raw ∧ StringForm raw ∧ values ≠ [] ∧ Texts front values

/-! ### Whitespace -/

lemma gap_nil : Gap [] := by simp [Gap]

lemma Gap.append {bytes : List UInt8} (h : Gap bytes) {b : UInt8} (hb : Reader.isBlank b = true) :
    Gap (bytes ++ [b]) :=
  List.forall_mem_append.mpr ⟨h, List.forall_mem_singleton.mpr hb⟩

/-- Everything but a value may go on with whitespace. -/
lemma Spells.blank {bytes : List UInt8} {form : Form} (h : Spells bytes form)
    (hform : ∀ value, form ≠ .value value) {b : UInt8} (hb : Reader.isBlank b = true) :
    Spells (bytes ++ [b]) form := by
  cases h with
  | firstItem blank => exact .firstItem (blank.append hb)
  | nextItem spelled blank =>
    rw [List.append_assoc]
    exact .nextItem spelled (blank.append hb)
  | item before spelled blank =>
    rw [List.append_assoc]
    exact .item before spelled (blank.append hb)
  | firstMember blank => exact .firstMember (blank.append hb)
  | nextMember spelled blank =>
    rw [List.append_assoc]
    exact .nextMember spelled (blank.append hb)
  | member before form decoded blank blank' spelled blank'' =>
    have hmember := Spells.member before form decoded blank blank' spelled (blank''.append hb)
    simpa only [List.append_assoc, List.cons_append] using hmember
  | _ => exact absurd rfl (hform _)

/-! ### What can be spelled -/

/-- What is spelled is clean and of supported types. -/
def Form.IsSound : Form → Prop
  | .value single => single.Clean ∧ single.Supported
  | .itemLead entries | .items entries => ∀ item ∈ entries, item.Clean ∧ item.Supported
  | .memberLead entries | .members entries =>
    (Value.names entries).Nodup ∧ ∀ member ∈ entries, member.2.Clean ∧ member.2.Supported

lemma Number.isSound_of_value? {number : Number} {value : Value} (h : number.value? = some value) :
    value.Clean ∧ value.Supported := by
  unfold Number.value? at h
  split_ifs at h
  · cases h
    exact ⟨.integer _, .integer _⟩
  · cases h
    exact ⟨.integer _, .integer _⟩
  · cases h
    exact ⟨.decimal (by simp) (by simp), .decimal _⟩

lemma Form.IsSound.array {items : List Value} (h : (Form.items items).IsSound) :
    (Form.value (.array items)).IsSound :=
  ⟨.array fun item hitem => (h item hitem).1, .array fun item hitem => (h item hitem).2⟩

lemma Form.IsSound.object {members : List (String × Value)} (h : (Form.members members).IsSound) :
    (Form.value (.object members)).IsSound :=
  ⟨.object h.1 fun member hmember => (h.2 member hmember).1,
    .object fun member hmember => (h.2 member hmember).2⟩

theorem Spells.isSound {bytes : List UInt8} {form : Form} (h : Spells bytes form) :
    form.IsSound := by
  induction h with
  | null => exact ⟨.null, .null⟩
  | trueWord | falseWord => exact ⟨.boolean _, .boolean _⟩
  | number denotes => exact Number.isSound_of_value? denotes
  | string => exact ⟨.string _, .string _⟩
  | emptyArray => exact Form.IsSound.array (by simp [Form.IsSound])
  | array _ ih => exact ih.array
  | emptyObject => exact Form.IsSound.object (by simp [Form.IsSound, Value.names])
  | object _ ih => exact ih.object
  | firstItem => simp [Form.IsSound]
  | nextItem _ _ ih => exact ih
  | item _ _ _ ih ih' =>
    exact List.forall_mem_append.mpr ⟨ih, List.forall_mem_singleton.mpr ih'⟩
  | firstMember => simp [Form.IsSound, Value.names]
  | nextMember _ _ ih => exact ih
  | @member _ _ _ _ _ _ _ name _ _ _ _ _ _ _ _ ih ih' =>
    refine ⟨Value.nodup_names_putEntry name _ ih.1, ?_⟩
    exact Value.forall_mem_putEntry (P := fun value => value.Clean ∧ value.Supported) ih' ih.2

/-- The values of texts are clean and of supported types. -/
theorem Texts.isSound {bytes : List UInt8} {values : List Value} (h : Texts bytes values) :
    ∀ value ∈ values, value.Clean ∧ value.Supported := by
  obtain ⟨last, h⟩ := h
  induction h with
  | nil => simp
  | blank _ _ ih => exact ih
  | text _ spelled _ ih =>
    exact List.forall_mem_append.mpr ⟨ih, List.forall_mem_singleton.mpr spelled.isSound⟩

end RecordSchema.Json
