import RecordSchema.Proofs.Inference.Classified

/-!
# The kind of a schema

The kind of a merge depends on nothing but the kinds of its sides (`Node.kind_merge`).  So the kind
of a schema tells what the records are: it is absent without records, it is that of nulls if there
is no other record, and it is that of a struct if the records are objects and nulls, with an object
among them (`kind_of_infer`).
-/

namespace RecordSchema

/-- The record is an object. -/
def Value.IsObject (record : Value) : Prop := ∃ members, record = .object members

/-! ### Kinds that are merged -/

namespace Kind

/-- The kind of what nodes of two kinds merge into. -/
def merge : Kind → Kind → Kind
  | .void, right => right
  | left, .void => left
  | .null, right => right
  | left, .null => left
  | .integer, .floating | .floating, .integer => .floating
  | .string, .binary | .binary, .string => .string
  | left, right => if left = right then left else .union

/-- Nothing has been observed, or nulls. -/
def IsBlank (kind : Kind) : Prop := kind = .void ∨ kind = .null

/-- Nothing has been observed but objects and nulls. -/
def IsRow (kind : Kind) : Prop := kind.IsBlank ∨ kind = .struct

instance (kind : Kind) : Decidable kind.IsBlank := inferInstanceAs (Decidable (_ ∨ _))

instance (kind : Kind) : Decidable kind.IsRow := inferInstanceAs (Decidable (_ ∨ _))

lemma eq_struct_iff (kind : Kind) : kind = .struct ↔ kind.IsRow ∧ ¬ kind.IsBlank := by
  cases kind <;> decide

lemma merge_eq_void_iff (left right : Kind) :
    left.merge right = .void ↔ left = .void ∧ right = .void := by
  cases left <;> cases right <;> decide

lemma isBlank_merge_iff (left right : Kind) :
    (left.merge right).IsBlank ↔ left.IsBlank ∧ right.IsBlank := by
  cases left <;> cases right <;> decide

lemma isRow_merge_iff (left right : Kind) :
    (left.merge right).IsRow ↔ left.IsRow ∧ right.IsRow := by
  cases left <;> cases right <;> decide

end Kind

namespace Node

/-- The kind of a merge is the merge of the kinds. -/
theorem kind_merge (a b : Node) : (a.merge b).kind = a.kind.merge b.kind := by
  rw [merge_eq_mergeLevel]
  cases a <;> cases b <;> rfl

/-! ### Merging any number of nodes -/

section Properties

variable {P : Node → Prop}

lemma foldl_merge_iff (hmerge : ∀ a b, P (a.merge b) ↔ P a ∧ P b) (start : Node)
    (nodes : List Node) : P (nodes.foldl merge start) ↔ P start ∧ ∀ node ∈ nodes, P node := by
  induction nodes generalizing start with
  | nil => simp
  | cons node nodes ih =>
    rw [List.foldl_cons, ih, hmerge, List.forall_mem_cons, and_assoc]

/-- What a merge has if both sides have it is what the merge of any number of nodes has if all of
them have it. -/
theorem mergeAll_iff (hvoid : P .void) (hmerge : ∀ a b, P (a.merge b) ↔ P a ∧ P b)
    (nodes : List Node) : P (mergeAll nodes) ↔ ∀ node ∈ nodes, P node :=
  (foldl_merge_iff hmerge .void nodes).trans (and_iff_right hvoid)

/-- For such a property it makes no difference in which parts nodes are merged. -/
theorem mergeAll_map_mergeAll_iff (hvoid : P .void) (hmerge : ∀ a b, P (a.merge b) ↔ P a ∧ P b)
    (parts : List (List Node)) :
    P (mergeAll (parts.map mergeAll)) ↔ P (mergeAll parts.flatten) := by
  rw [mergeAll_iff hvoid hmerge, mergeAll_iff hvoid hmerge, List.forall_mem_map,
    List.forall_mem_flatten]
  exact forall₂_congr fun nodes _ => mergeAll_iff hvoid hmerge nodes

end Properties

section Kinds

variable {P : Kind → Prop}

/-- The same for what the kind of a node has. -/
lemma kind_mergeAll_iff (hvoid : P .void)
    (hmerge : ∀ left right : Kind, P (left.merge right) ↔ P left ∧ P right) (nodes : List Node) :
    P (mergeAll nodes).kind ↔ ∀ node ∈ nodes, P node.kind :=
  mergeAll_iff (P := fun node => P node.kind) hvoid
    (fun a b => by rw [kind_merge]; exact hmerge a.kind b.kind) nodes

end Kinds

end Node

/-! ### Kinds of records -/

variable {detection : Detection} {path : String}

lemma kind_classifyString (detection : Detection) (text : String) :
    ¬ (classifyString detection text).kind.IsRow := by
  unfold classifyString
  split
  · decide
  split <;> decide

lemma kind_of_classifyInteger {value : ℤ} {node : Node}
    (h : classifyInteger value path = .ok node) : node.kind = .integer := by
  rw [classifyInteger_eq_ok h]
  rfl

lemma kind_of_classifyDecimal {value : Decimal} {node : Node}
    (h : classifyDecimal value path = .ok node) :
    node.kind = .integer ∨ node.kind = .floating := by
  rcases classifyDecimal_eq_ok h with ⟨n, hn⟩ | ⟨double, -, rfl⟩
  · exact Or.inl (kind_of_classifyInteger hn)
  · exact Or.inr rfl

/-- A null is one of nulls, an object is a row, and everything else is neither. -/
lemma kind_of_classify {record : Value} {node : Node}
    (h : classify detection path record = .ok node) :
    node.kind ≠ .void ∧ (node.kind.IsBlank ↔ record = .null) ∧
      (node.kind.IsRow ↔ record = .null ∨ record.IsObject) := by
  -- no other value has a node of the kinds in question
  have other (hnull : record ≠ .null) (hobject : ¬ record.IsObject) (hkind : ¬ node.kind.IsRow) :
      node.kind ≠ .void ∧ (node.kind.IsBlank ↔ record = .null) ∧
        (node.kind.IsRow ↔ record = .null ∨ record.IsObject) := by
    unfold Kind.IsRow Kind.IsBlank at hkind ⊢
    tauto
  cases record with
  | null =>
    rw [classify] at h
    cases h
    exact ⟨by decide, iff_of_true (by decide) rfl, iff_of_true (by decide) (Or.inl rfl)⟩
  | object members =>
    obtain ⟨fields, -, rfl⟩ := classify_object_eq_ok_iff.mp h
    have hkind : (Node.ofFields fields (.ofList [shapeSignature (Value.names members)])).kind =
        .struct := rfl
    rw [hkind]
    exact ⟨by decide, iff_of_false (by decide) (by simp),
      iff_of_true (by decide) (Or.inr ⟨members, rfl⟩)⟩
  | array items =>
    obtain ⟨nodes, -, rfl⟩ := classify_array_eq_ok_iff.mp h
    exact other (by simp) (by simp [Value.IsObject]) (by simp [Node.kind, Kind.IsRow, Kind.IsBlank])
  | integer value =>
    rw [classify] at h
    refine other (by simp) (by simp [Value.IsObject]) ?_
    rw [kind_of_classifyInteger h]
    decide
  | decimal value =>
    rw [classify] at h
    refine other (by simp) (by simp [Value.IsObject]) ?_
    rcases kind_of_classifyDecimal h with hkind | hkind <;> rw [hkind] <;> decide
  | unsupported typeName =>
    rw [classify] at h
    cases h
  | string text =>
    rw [classify] at h
    cases h
    exact other (by simp) (by simp [Value.IsObject]) (kind_classifyString detection text)
  | boolean value =>
    rw [classify] at h
    cases h
    exact other (by simp) (by simp [Value.IsObject]) (by decide)
  | double value =>
    rw [classify] at h
    cases h
    exact other (by simp) (by simp [Value.IsObject]) (by simp [Node.kind, Kind.IsRow, Kind.IsBlank])

/-- The kind of a schema tells whether there are records, whether there is anything but nulls, and
whether there is anything but nulls and objects. -/
theorem kind_of_infer {records : List Value} {node : Node}
    (h : Node.infer detection records = .ok node) :
    (node.kind = .void ↔ records = []) ∧
      (node.kind.IsBlank ↔ ∀ record ∈ records, record = .null) ∧
      (node.kind.IsRow ↔ ∀ record ∈ records, record = .null ∨ record.IsObject) := by
  obtain ⟨nodes, hnodes, rfl⟩ := infer_eq_ok_iff.mp h
  refine ⟨?_, ?_, ?_⟩
  · rw [Node.kind_mergeAll_iff (P := fun kind => kind = .void) rfl Kind.merge_eq_void_iff,
      ← forall_mem_iff_of_forall₂ (p := fun _ => False) hnodes fun record node hnode =>
        iff_of_false id (kind_of_classify hnode).1, List.eq_nil_iff_forall_not_mem]
  · rw [Node.kind_mergeAll_iff (Or.inl rfl) Kind.isBlank_merge_iff]
    exact (forall_mem_iff_of_forall₂ hnodes fun record node hnode =>
      (kind_of_classify hnode).2.1.symm).symm
  · rw [Node.kind_mergeAll_iff (Or.inl (Or.inl rfl)) Kind.isRow_merge_iff]
    exact (forall_mem_iff_of_forall₂ hnodes fun record node hnode =>
      (kind_of_classify hnode).2.2.symm).symm

end RecordSchema
