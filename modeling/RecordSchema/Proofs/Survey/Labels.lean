import RecordSchema.Proofs.Inference.Locations
import RecordSchema.Proofs.Node.Labels
import RecordSchema.Proofs.Survey.Folded

/-!
# Labels come from records

The names in the node of a value are the keys within the value, and its shapes are put together from
such keys (`labels_of_classify`).  Merges keep labels, so the names in the schema of a survey are
exactly the keys within the folded records (`labels_of_survey`).
-/

namespace RecordSchema

open Node (Label)

variable {detection : Detection}

/-! ### Labels of values -/

lemma labels_classifyString (detection : Detection) (text : String) :
    (classifyString detection text).labels = [] := by
  unfold classifyString
  split
  · rfl
  split <;> rfl

lemma labels_of_classifyInteger {path : String} {value : ℤ} {node : Node}
    (h : classifyInteger value path = .ok node) : node.labels = [] := by
  rw [classifyInteger_eq_ok h]
  rfl

lemma labels_of_classifyDecimal {path : String} {value : Decimal} {node : Node}
    (h : classifyDecimal value path = .ok node) : node.labels = [] := by
  rcases classifyDecimal_eq_ok h with ⟨n, hn⟩ | ⟨double, -, rfl⟩
  · exact labels_of_classifyInteger hn
  · rfl

/-- The node has the names of the value, and shapes made of them. -/
structure LabelledBy (value : Value) (node : Node) : Prop where
  name_iff : ∀ name, Label.name name ∈ node.labels ↔ name ∈ value.keys
  shape : ∀ shape, Label.shape shape ∈ node.labels →
    ∃ names : List String, (∀ name ∈ names, name ∈ value.keys) ∧ shape = shapeSignature names

/-- Neither side has any. -/
lemma labelledBy_of_eq_nil {value : Value} {node : Node} (hkeys : value.keys = [])
    (hlabels : node.labels = []) : LabelledBy value node where
  name_iff := by simp [hkeys, hlabels]
  shape := by simp [hlabels]

lemma labelledBy_array {items : List Value} {nodes : List Node}
    (h : List.Forall₂ LabelledBy items nodes) :
    LabelledBy (.array items) (.list (nodes.foldl Node.merge .null)) := by
  have hlabels (label : Label) : label ∈ (Node.list (nodes.foldl Node.merge .null)).labels ↔
      ∃ node ∈ nodes, label ∈ node.labels := by
    rw [Node.labels, Node.mem_labels_foldl_merge]
    exact or_iff_right List.not_mem_nil
  have hkeys (name : String) : name ∈ (Value.array items).keys ↔
      ∃ item ∈ items, name ∈ item.keys := by
    rw [Value.keys, Value.keysOfItems_eq_flatMap, List.mem_flatMap]
  constructor
  · intro name
    rw [hlabels, hkeys]
    exact (exists_mem_iff_of_forall₂ h fun item node hnode => (hnode.name_iff name).symm).symm
  · intro shape hshape
    obtain ⟨node, hnode, hshape⟩ := (hlabels _).mp hshape
    obtain ⟨item, hitem, hlabelled⟩ := exists_of_mem_right h hnode
    obtain ⟨names, hnames, rfl⟩ := hlabelled.shape shape hshape
    exact ⟨names, fun name hname => (hkeys name).mpr ⟨item, hitem, hnames name hname⟩, rfl⟩

lemma labelledBy_object {members : List (String × Value)} {fields : List (String × Node)}
    (h : List.Forall₂ (fun member field => member.1 = field.1 ∧ LabelledBy member.2 field.2)
      members fields) :
    LabelledBy (.object members)
      (.ofFields fields (.ofList [shapeSignature (Value.names members)])) := by
  have hlabels (label : Label) :
      label ∈ (Node.ofFields fields (.ofList [shapeSignature (Value.names members)])).labels ↔
        Label.shape (shapeSignature (Value.names members)) = label ∨
          ∃ field ∈ fields, Node.FieldHas label field := by
    rw [Node.ofFields, Node.mem_labels_struct]
    simp only [ShapeSet.mem_ofList, List.mem_singleton, exists_eq_left, Node.sortFields,
      mem_sortBy]
  have hkeys (name : String) : name ∈ (Value.object members).keys ↔
      ∃ member ∈ members, name = member.1 ∨ name ∈ member.2.keys := by
    rw [Value.keys, Value.keysOfMembers_eq_flatMap, List.mem_flatMap]
    simp only [List.mem_cons]
  constructor
  · intro name
    have hfields : (∃ member ∈ members, name = member.1 ∨ name ∈ member.2.keys) ↔
        ∃ field ∈ fields, Node.FieldHas (.name name) field := by
      refine exists_mem_iff_of_forall₂ h fun member field hfield => ?_
      rw [Node.FieldHas, hfield.1, ← hfield.2.name_iff, Label.name.injEq]
    rw [hlabels, hkeys, hfields]
    exact or_iff_right (by simp)
  · intro shape hshape
    rcases (hlabels _).mp hshape with heq | ⟨field, hfield, heq | hshape⟩
    · cases heq
      exact ⟨_, fun name hname => Value.mem_keys_of_mem_names hname, rfl⟩
    · cases heq
    · obtain ⟨member, hmember, -, hlabelled⟩ := exists_of_mem_right h hfield
      obtain ⟨names, hnames, rfl⟩ := hlabelled.shape shape hshape
      exact ⟨names, fun name hname =>
        (hkeys name).mpr ⟨member, hmember, Or.inr (hnames name hname)⟩, rfl⟩

/-- The node of a value has the keys within the value for its names, and shapes made of them. -/
theorem labels_of_classify {path : String} {value : Value} {node : Node}
    (h : classify detection path value = .ok node) : LabelledBy value node := by
  -- the location changes on the way down, so it is generalized
  induction value using Value.induction generalizing path node with
  | array items ih =>
    obtain ⟨nodes, hnodes, rfl⟩ := classify_array_eq_ok_iff.mp h
    exact labelledBy_array (forall₂_of_mem hnodes fun item hitem node hnode =>
      ih item hitem hnode)
  | object members ih =>
    obtain ⟨fields, hfields, rfl⟩ := classify_object_eq_ok_iff.mp h
    exact labelledBy_object (forall₂_of_mem hfields fun member hmember field hfield =>
      ⟨hfield.1, ih member hmember hfield.2⟩)
  | integer value =>
    rw [classify] at h
    exact labelledBy_of_eq_nil rfl (labels_of_classifyInteger h)
  | decimal value =>
    rw [classify] at h
    exact labelledBy_of_eq_nil rfl (labels_of_classifyDecimal h)
  | string text =>
    rw [classify] at h
    cases h
    exact labelledBy_of_eq_nil rfl (labels_classifyString detection text)
  | unsupported typeName =>
    rw [classify] at h
    cases h
  | _ =>
    rw [classify] at h
    cases h
    exact labelledBy_of_eq_nil rfl rfl

/-! ### Labels of schemas -/

/-- The schema of a survey has the keys within the folded records for its names, and each of its
shapes is made of keys within one of them. -/
theorem labels_of_survey {options : SurveyOptions} {sources : List Source} {findings : Findings}
    (h : (survey options sources).result = .ok findings) :
    (∀ name, Label.name name ∈ findings.node.labels ↔
      ∃ record ∈ folded options sources, name ∈ record.keys) ∧
    ∀ shape, Label.shape shape ∈ findings.node.labels → ∃ record ∈ folded options sources,
      ∃ names : List String, (∀ name ∈ names, name ∈ record.keys) ∧
        shape = shapeSignature names := by
  obtain ⟨node, hinfer, hiff⟩ := exists_infer_folded h
  obtain ⟨nodes, hnodes, rfl⟩ := infer_eq_ok_iff.mp hinfer
  have hlabelled : List.Forall₂ LabelledBy (folded options sources) nodes :=
    hnodes.imp fun record node hnode => labels_of_classify hnode
  have hlabels (label : Label) :
      label ∈ findings.node.labels ↔ ∃ node ∈ nodes, label ∈ node.labels := by
    have hmerge (a b : Node) :
        label ∉ (a.merge b).labels ↔ label ∉ a.labels ∧ label ∉ b.labels := by
      rw [Node.mem_labels_merge, not_or]
    rw [not_iff_not.mp (hiff (fun node => label ∉ node.labels) List.not_mem_nil hmerge),
      Node.mergeAll, Node.mem_labels_foldl_merge]
    exact or_iff_right List.not_mem_nil
  constructor
  · intro name
    rw [hlabels]
    exact (exists_mem_iff_of_forall₂ hlabelled fun record node hnode =>
      (hnode.name_iff name).symm).symm
  · intro shape hshape
    obtain ⟨node, hnode, hshape⟩ := (hlabels _).mp hshape
    obtain ⟨record, hrecord, hnode⟩ := exists_of_mem_right hlabelled hnode
    exact ⟨record, hrecord, hnode.shape shape hshape⟩

end RecordSchema
