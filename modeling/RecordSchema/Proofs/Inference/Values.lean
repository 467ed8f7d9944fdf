import Mathlib.Tactic
import RecordSchema.Value

/-!
# Equivalent values

Two values are equivalent when they say the same up to order and repetition.  Scalars have to be
the same, arrays have to hold equivalent elements, however often and in whatever order, and objects
have to have equivalent values under the same names.

NaN has no place in a range, so values are `Clean` when they are free of it.  The names of an object
are distinct, as those of every parsed object are.  On clean values equivalence is an equivalence
relation, and whatever permutes or repeats clean values gives an equivalent list
(`equivalentLists_of_mem_iff`).
-/

namespace RecordSchema

namespace Value

/-! ### Induction on values -/

lemma sizeOf_lt_of_mem_items {items : List Value} {item : Value} (h : item ∈ items) :
    sizeOf item < sizeOf (Value.array items) := by
  have hlt := List.sizeOf_lt_of_mem h
  rw [array.sizeOf_spec]
  omega

lemma sizeOf_lt_of_mem_members {members : List (String × Value)} {member : String × Value}
    (h : member ∈ members) : sizeOf member.2 < sizeOf (Value.object members) := by
  obtain ⟨name, value⟩ := member
  have hlt := List.sizeOf_lt_of_mem h
  rw [Prod.mk.sizeOf_spec] at hlt
  rw [object.sizeOf_spec]
  change sizeOf value < _
  omega

/-- Induction on a value, with the claim for every element and for every member. -/
@[elab_as_elim]
theorem induction {motive : Value → Prop} (null : motive .null)
    (boolean : ∀ value, motive (.boolean value)) (integer : ∀ value, motive (.integer value))
    (decimal : ∀ value, motive (.decimal value)) (double : ∀ value, motive (.double value))
    (string : ∀ value, motive (.string value))
    (array : ∀ items, (∀ item ∈ items, motive item) → motive (.array items))
    (object : ∀ members, (∀ member ∈ members, motive member.2) → motive (.object members))
    (unsupported : ∀ typeName, motive (.unsupported typeName)) : ∀ value, motive value
  | .null => null
  | .boolean value => boolean value
  | .integer value => integer value
  | .decimal value => decimal value
  | .double value => double value
  | .string value => string value
  | .array items => array items fun item _ =>
      induction null boolean integer decimal double string array object unsupported item
  | .object members => object members fun member _ =>
      induction null boolean integer decimal double string array object unsupported member.2
  | .unsupported typeName => unsupported typeName
termination_by value => sizeOf value
decreasing_by
  · exact sizeOf_lt_of_mem_items ‹_›
  · exact sizeOf_lt_of_mem_members ‹_›

/-! ### Definitions -/

/-- The names of the members of an object. -/
def names (members : List (String × Value)) : List String := members.map Prod.fst

/-- A value without NaN, in which every object has each name once. -/
inductive Clean : Value → Prop
  | null : Clean .null
  | boolean (value : Bool) : Clean (.boolean value)
  | integer (value : ℤ) : Clean (.integer value)
  | decimal {value : Decimal} (quiet : value ≠ .quietNaN) (signaling : value ≠ .signalingNaN) :
      Clean (.decimal value)
  | double {value : Double} (number : value ≠ .nan) : Clean (.double value)
  | string (value : String) : Clean (.string value)
  | array {items : List Value} (clean : ∀ item ∈ items, Clean item) : Clean (.array items)
  | object {members : List (String × Value)} (distinct : (names members).Nodup)
      (clean : ∀ member ∈ members, Clean member.2) : Clean (.object members)
  | unsupported (typeName : String) : Clean (.unsupported typeName)

mutual

/-- Whether a value is clean. -/
def decideClean : (value : Value) → Decidable value.Clean
  | .null => .isTrue .null
  | .boolean value => .isTrue (.boolean value)
  | .integer value => .isTrue (.integer value)
  | .string value => .isTrue (.string value)
  | .unsupported typeName => .isTrue (.unsupported typeName)
  | .decimal value => decidable_of_iff (value ≠ .quietNaN ∧ value ≠ .signalingNaN)
      ⟨fun ⟨quiet, signaling⟩ => .decimal quiet signaling,
        fun | .decimal quiet signaling => ⟨quiet, signaling⟩⟩
  | .double value => decidable_of_iff (value ≠ .nan) ⟨.double, fun | .double number => number⟩
  | .array items =>
    have := decideItems items
    decidable_of_iff (∀ item ∈ items, item.Clean) ⟨.array, fun | .array clean => clean⟩
  | .object members =>
    have := decideMembers members
    decidable_of_iff ((names members).Nodup ∧ ∀ member ∈ members, member.2.Clean)
      ⟨fun ⟨distinct, clean⟩ => .object distinct clean,
        fun | .object distinct clean => ⟨distinct, clean⟩⟩

/-- The same for each element of an array. -/
def decideItems : (items : List Value) → Decidable (∀ item ∈ items, item.Clean)
  | [] => .isTrue (by simp)
  | item :: items =>
    have := decideClean item
    have := decideItems items
    decidable_of_iff (item.Clean ∧ ∀ other ∈ items, other.Clean)
      (by simp only [List.forall_mem_cons])

/-- The same for each member of an object. -/
def decideMembers : (members : List (String × Value)) →
    Decidable (∀ member ∈ members, member.2.Clean)
  | [] => .isTrue (by simp)
  | (_, value) :: members =>
    have := decideClean value
    have := decideMembers members
    decidable_of_iff (value.Clean ∧ ∀ member ∈ members, member.2.Clean)
      (by simp only [List.forall_mem_cons])

end

instance : DecidablePred Clean := decideClean

/-- The same value up to the order and the repetition of elements and the order of members. -/
def Equivalent : Value → Value → Prop
  | .array items, value => ∃ others, value = .array others ∧
    (∀ item (_ : item ∈ items), ∃ other ∈ others, Equivalent item other) ∧
      ∀ other ∈ others, ∃ item, ∃ _ : item ∈ items, Equivalent item other
  | .object members, value => ∃ others, value = .object others ∧
    ((names members).Nodup ∧ (names others).Nodup) ∧
      (∀ member (_ : member ∈ members), ∃ other ∈ others,
        member.1 = other.1 ∧ Equivalent member.2 other.2) ∧
      ∀ other ∈ others, ∃ member, ∃ _ : member ∈ members,
        member.1 = other.1 ∧ Equivalent member.2 other.2
  | scalar, value => value = scalar ∧ scalar.Clean
termination_by value => sizeOf value
decreasing_by
  · exact sizeOf_lt_of_mem_items ‹_›
  · exact sizeOf_lt_of_mem_items ‹_›
  · exact sizeOf_lt_of_mem_members ‹_›
  · exact sizeOf_lt_of_mem_members ‹_›

/-- Lists of values that are equivalent as the elements of arrays are: every value of either list
is equivalent to some value of the other. -/
def EquivalentLists (values others : List Value) : Prop :=
  (∀ value ∈ values, ∃ other ∈ others, Equivalent value other) ∧
    ∀ other ∈ others, ∃ value ∈ values, Equivalent value other

lemma equivalent_array {items : List Value} {value : Value} :
    Equivalent (.array items) value ↔ ∃ others, value = .array others ∧
      EquivalentLists items others := by
  rw [Equivalent]
  simp only [EquivalentLists, exists_prop]

lemma equivalent_object {members : List (String × Value)} {value : Value} :
    Equivalent (.object members) value ↔ ∃ others, value = .object others ∧
      ((names members).Nodup ∧ (names others).Nodup) ∧
        (∀ member ∈ members, ∃ other ∈ others,
          member.1 = other.1 ∧ Equivalent member.2 other.2) ∧
        ∀ other ∈ others, ∃ member ∈ members,
          member.1 = other.1 ∧ Equivalent member.2 other.2 := by
  rw [Equivalent]
  simp only [exists_prop]

lemma equivalent_scalar {scalar value : Value} (harray : ∀ items, scalar ≠ .array items)
    (hobject : ∀ members, scalar ≠ .object members) :
    Equivalent scalar value ↔ value = scalar ∧ scalar.Clean := by
  rw [Equivalent]
  · exact harray
  · exact hobject

/-! ### An equivalence relation on clean values -/

/-- A clean value is equivalent to itself. -/
theorem Clean.equivalent_self {value : Value} (h : value.Clean) : Equivalent value value := by
  induction h with
  | array _ ih =>
    exact equivalent_array.mpr ⟨_, rfl, fun item hitem => ⟨item, hitem, ih item hitem⟩,
      fun item hitem => ⟨item, hitem, ih item hitem⟩⟩
  | object distinct _ ih =>
    exact equivalent_object.mpr ⟨_, rfl, ⟨distinct, distinct⟩,
      fun member hmember => ⟨member, hmember, rfl, ih member hmember⟩,
      fun member hmember => ⟨member, hmember, rfl, ih member hmember⟩⟩
  | decimal quiet signaling =>
    exact (equivalent_scalar (by simp) (by simp)).mpr ⟨rfl, .decimal quiet signaling⟩
  | double number => exact (equivalent_scalar (by simp) (by simp)).mpr ⟨rfl, .double number⟩
  | _ => exact (equivalent_scalar (by simp) (by simp)).mpr ⟨rfl, by constructor⟩

theorem Equivalent.symm {value other : Value} (h : Equivalent value other) :
    Equivalent other value := by
  induction value using induction generalizing other with
  | array items ih =>
    obtain ⟨others, rfl, forth, back⟩ := equivalent_array.mp h
    refine equivalent_array.mpr ⟨items, rfl, fun item hitem => ?_, fun item hitem => ?_⟩
    · obtain ⟨partner, hpartner, heq⟩ := back item hitem
      exact ⟨partner, hpartner, ih partner hpartner heq⟩
    · obtain ⟨partner, hpartner, heq⟩ := forth item hitem
      exact ⟨partner, hpartner, ih item hitem heq⟩
  | object members ih =>
    obtain ⟨others, rfl, ⟨distinct, distinct'⟩, forth, back⟩ := equivalent_object.mp h
    refine equivalent_object.mpr ⟨members, rfl, ⟨distinct', distinct⟩, fun member hmember => ?_,
      fun member hmember => ?_⟩
    · obtain ⟨partner, hpartner, hname, heq⟩ := back member hmember
      exact ⟨partner, hpartner, hname.symm, ih partner hpartner heq⟩
    · obtain ⟨partner, hpartner, hname, heq⟩ := forth member hmember
      exact ⟨partner, hpartner, hname.symm, ih member hmember heq⟩
  | _ =>
    obtain ⟨rfl, clean⟩ := (equivalent_scalar (by simp) (by simp)).mp h
    exact clean.equivalent_self

theorem Equivalent.trans {value other further : Value} (h : Equivalent value other)
    (h' : Equivalent other further) : Equivalent value further := by
  induction value using induction generalizing other further with
  | array items ih =>
    obtain ⟨others, rfl, forth, back⟩ := equivalent_array.mp h
    obtain ⟨furthers, rfl, forth', back'⟩ := equivalent_array.mp h'
    refine equivalent_array.mpr ⟨furthers, rfl, fun item hitem => ?_, fun item hitem => ?_⟩
    · obtain ⟨middle, hmiddle, heq⟩ := forth item hitem
      obtain ⟨partner, hpartner, heq'⟩ := forth' middle hmiddle
      exact ⟨partner, hpartner, ih item hitem heq heq'⟩
    · obtain ⟨middle, hmiddle, heq'⟩ := back' item hitem
      obtain ⟨partner, hpartner, heq⟩ := back middle hmiddle
      exact ⟨partner, hpartner, ih partner hpartner heq heq'⟩
  | object members ih =>
    obtain ⟨others, rfl, ⟨distinct, -⟩, forth, back⟩ := equivalent_object.mp h
    obtain ⟨furthers, rfl, ⟨-, distinct'⟩, forth', back'⟩ := equivalent_object.mp h'
    refine equivalent_object.mpr ⟨furthers, rfl, ⟨distinct, distinct'⟩, fun member hmember => ?_,
      fun member hmember => ?_⟩
    · obtain ⟨middle, hmiddle, hname, heq⟩ := forth member hmember
      obtain ⟨partner, hpartner, hname', heq'⟩ := forth' middle hmiddle
      exact ⟨partner, hpartner, hname.trans hname', ih member hmember heq heq'⟩
    · obtain ⟨middle, hmiddle, hname', heq'⟩ := back' member hmember
      obtain ⟨partner, hpartner, hname, heq⟩ := back middle hmiddle
      exact ⟨partner, hpartner, hname.trans hname', ih partner hpartner heq heq'⟩
  | _ =>
    obtain ⟨rfl, -⟩ := (equivalent_scalar (by simp) (by simp)).mp h
    exact h'

/-- Only clean values are equivalent to anything. -/
theorem Equivalent.clean_left {value other : Value} (h : Equivalent value other) : value.Clean := by
  induction value using induction generalizing other with
  | array items ih =>
    obtain ⟨others, rfl, forth, -⟩ := equivalent_array.mp h
    refine .array fun item hitem => ?_
    obtain ⟨partner, -, heq⟩ := forth item hitem
    exact ih item hitem heq
  | object members ih =>
    obtain ⟨others, rfl, ⟨distinct, -⟩, forth, -⟩ := equivalent_object.mp h
    refine .object distinct fun member hmember => ?_
    obtain ⟨partner, -, -, heq⟩ := forth member hmember
    exact ih member hmember heq
  | _ => exact ((equivalent_scalar (by simp) (by simp)).mp h).2

lemma Equivalent.clean_right {value other : Value} (h : Equivalent value other) : other.Clean :=
  h.symm.clean_left

/-! ### What gives equivalent values -/

/-- Clean lists with the same values are equivalent, whatever the order and the repetitions. -/
theorem equivalentLists_of_mem_iff {values others : List Value}
    (hclean : ∀ value ∈ values, value.Clean)
    (hmem : ∀ value, value ∈ values ↔ value ∈ others) : EquivalentLists values others :=
  ⟨fun value hvalue => ⟨value, (hmem value).mp hvalue, (hclean value hvalue).equivalent_self⟩,
    fun value hvalue => ⟨value, (hmem value).mpr hvalue,
      (hclean value ((hmem value).mpr hvalue)).equivalent_self⟩⟩

/-! ### Members of objects -/

lemma mem_names_putEntry {name other : String} {value : Value} {members : List (String × Value)} :
    other ∈ names (putEntry name value members) ↔ other = name ∨ other ∈ names members := by
  induction members with
  | nil => simp [putEntry, names]
  | cons member members ih =>
    rw [putEntry]
    split
    · next hname =>
      simp [names, hname]
    · show other ∈ member.1 :: names (putEntry name value members) ↔ _
      rw [List.mem_cons, ih]
      show _ ↔ other = name ∨ other ∈ member.1 :: names members
      rw [List.mem_cons]
      exact or_left_comm

lemma nodup_names_putEntry (name : String) (value : Value) {members : List (String × Value)}
    (h : (names members).Nodup) : (names (putEntry name value members)).Nodup := by
  induction members with
  | nil => exact List.nodup_singleton name
  | cons member members ih =>
    obtain ⟨hmember, hmembers⟩ := List.nodup_cons.mp h
    rw [putEntry]
    split
    · next hname => exact List.nodup_cons.mpr ⟨hname ▸ hmember, hmembers⟩
    · next hname =>
      refine List.nodup_cons.mpr ⟨fun hmem => ?_, ih hmembers⟩
      rcases mem_names_putEntry.mp hmem with heq | hmem
      · exact hname heq
      · exact hmember hmem

lemma forall_mem_putEntry {P : Value → Prop} {name : String} {value : Value}
    {members : List (String × Value)} (hvalue : P value) (hmembers : ∀ member ∈ members, P member.2) :
    ∀ member ∈ putEntry name value members, P member.2 := by
  induction members with
  | nil =>
    intro member hmember
    rw [List.mem_singleton.mp hmember]
    exact hvalue
  | cons member members ih =>
    obtain ⟨hmember, hmembers⟩ := List.forall_mem_cons.mp hmembers
    rw [putEntry]
    split
    · exact List.forall_mem_cons.mpr ⟨hvalue, hmembers⟩
    · exact List.forall_mem_cons.mpr ⟨hmember, ih hmembers⟩

end Value

end RecordSchema
