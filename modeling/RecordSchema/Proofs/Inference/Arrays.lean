import RecordSchema.Proofs.Inference.Classified
import RecordSchema.Proofs.Node.Partition

/-!
# Arrays split over records

The elements of an array are merged like the records of a list, except that the merge starts from a
null and not from nothing, and that another location is reported if it fails.  The location makes no
difference to a node (`classify_eq_ok_of_path`), and the nulls from which arrays start do not show
once there is an element.

So it does not matter how values are spread over arrays, as long as there is an array at all: records
that are arrays have the list of the schema of all their elements (`infer_arrays`).
-/

namespace RecordSchema

variable {detection : Detection} {path : String}

/-! ### Locations -/

lemma classifyInteger_eq_ok_of_path {value : ℤ} {node : Node}
    (h : classifyInteger value path = .ok node) (path' : String) :
    classifyInteger value path' = .ok node := by
  unfold classifyInteger at h ⊢
  split at h
  · cases h
  · next hrange => rw [if_neg hrange, h]

lemma classifyDecimal_eq_ok_of_path {value : Decimal} {node : Node}
    (h : classifyDecimal value path = .ok node) (path' : String) :
    classifyDecimal value path' = .ok node := by
  unfold classifyDecimal at h ⊢
  cases value with
  | finite negative coefficient exponent =>
    dsimp only at h ⊢
    split_ifs at h ⊢
    · exact h
    · exact h
    all_goals exact classifyInteger_eq_ok_of_path h path'
  | infinite | quietNaN | signalingNaN => exact h

/-- The location of a value shows in failures only. -/
theorem classify_eq_ok_of_path {value : Value} {node : Node}
    (h : classify detection path value = .ok node) (path' : String) :
    classify detection path' value = .ok node := by
  induction value using Value.induction generalizing path path' node with
  | array items ih =>
    obtain ⟨nodes, hnodes, rfl⟩ := classify_array_eq_ok_iff.mp h
    refine classify_array_eq_ok_iff.mpr ⟨nodes, ?_, rfl⟩
    exact forall₂_of_mem hnodes fun item hitem node hnode => ih item hitem hnode _
  | object members ih =>
    obtain ⟨fields, hfields, rfl⟩ := classify_object_eq_ok_iff.mp h
    refine classify_object_eq_ok_iff.mpr ⟨fields, ?_, rfl⟩
    exact forall₂_of_mem hfields fun member hmember field hfield =>
      ⟨hfield.1, ih member hmember hfield.2 _⟩
  | integer value =>
    rw [classify] at h ⊢
    exact classifyInteger_eq_ok_of_path h path'
  | decimal value =>
    rw [classify] at h ⊢
    exact classifyDecimal_eq_ok_of_path h path'
  | unsupported typeName =>
    rw [classify] at h
    cases h
  | _ =>
    rw [classify] at h ⊢
    exact h

/-! ### What can be inferred -/

/-- Records have a schema if each of them can be classified. -/
lemma exists_infer_iff {records : List Value} :
    (∃ schema, Node.infer detection records = .ok schema) ↔
      ∀ record ∈ records, ∃ node, classify detection recordPath record = .ok node := by
  constructor
  · rintro ⟨schema, h⟩ record hrecord
    obtain ⟨nodes, hnodes, -⟩ := infer_eq_ok_iff.mp h
    obtain ⟨node, -, hnode⟩ := exists_of_mem_left hnodes hrecord
    exact ⟨node, hnode⟩
  · intro h
    obtain ⟨nodes, hnodes⟩ := exists_forall₂ h
    exact ⟨_, infer_eq_ok_iff.mpr ⟨nodes, hnodes, rfl⟩⟩

/-- An array can be classified if its elements can, as records of their own. -/
lemma exists_classify_array_iff {items : List Value} :
    (∃ node, classify detection recordPath (.array items) = .ok node) ↔
      ∀ item ∈ items, ∃ node, classify detection recordPath item = .ok node := by
  constructor
  · rintro ⟨list, h⟩ item hitem
    obtain ⟨nodes, hnodes, -⟩ := classify_array_eq_ok_iff.mp h
    obtain ⟨node, -, hnode⟩ := exists_of_mem_left hnodes hitem
    exact ⟨node, classify_eq_ok_of_path hnode recordPath⟩
  · intro h
    obtain ⟨nodes, hnodes⟩ := exists_forall₂ h
    exact ⟨_, classify_array_eq_ok_iff.mpr ⟨nodes, forall₂_of_mem hnodes
      fun item _ node hnode => classify_eq_ok_of_path hnode _, rfl⟩⟩

/-- The nodes of all elements, array by array. -/
lemma exists_nodes_of_flatten {parts : List (List Value)}
    (h : ∀ item ∈ parts.flatten, ∃ node, classify detection recordPath item = .ok node) :
    ∃ nodes, List.Forall₂ (List.Forall₂ fun item node =>
      classify detection recordPath item = .ok node) parts nodes :=
  exists_forall₂ fun _ hitems =>
    exists_forall₂ fun item hitem => h item (List.mem_flatten.mpr ⟨_, hitems, hitem⟩)

/-- The schema of arrays is the merge of their lists. -/
lemma infer_map_array {parts : List (List Value)} {nodes : List (List Node)}
    (h : List.Forall₂ (List.Forall₂ fun item node =>
      classify detection recordPath item = .ok node) parts nodes) :
    Node.infer detection (parts.map Value.array) =
      .ok (Node.mergeAll (nodes.map fun elements => .list (elements.foldl Node.merge .null))) := by
  refine infer_eq_ok_iff.mpr ⟨_, ?_, rfl⟩
  rw [List.forall₂_map_left_iff, List.forall₂_map_right_iff]
  refine h.imp fun items elements helements => classify_array_eq_ok_iff.mpr ⟨elements, ?_, rfl⟩
  exact helements.imp fun item node hnode => classify_eq_ok_of_path hnode _

/-! ### Arrays and their elements -/

/-- Records that are arrays have a schema if all their elements together have one, and it cannot be
told apart from the list of that schema, or from a list of nulls if there are no elements: how the
elements are spread over arrays does not matter. -/
theorem infer_arrays (detection : Detection) (parts : List (List Value)) :
    ((∃ schema, Node.infer detection (parts.map Value.array) = .ok schema) ↔
      ∃ element, Node.infer detection parts.flatten = .ok element) ∧
    (parts ≠ [] → (∀ item ∈ parts.flatten, item.Clean) →
      ∀ element, Node.infer detection parts.flatten = .ok element →
        ∃ schema, Node.infer detection (parts.map Value.array) = .ok schema ∧
          schema.Indistinguishable
            (.list (if parts.flatten.isEmpty then .null else element))) := by
  constructor
  · rw [exists_infer_iff, exists_infer_iff, List.forall_mem_map, List.forall_mem_flatten]
    exact forall₂_congr fun items _ => exists_classify_array_iff
  · intro hparts hclean element helement
    obtain ⟨nodes, hnodes⟩ := exists_nodes_of_flatten (exists_infer_iff.mp ⟨element, helement⟩)
    have hflatten := List.rel_flatten hnodes
    have hmerge : element = Node.mergeAll nodes.flatten := by
      have hinfer := infer_eq_ok_iff.mpr ⟨nodes.flatten, hflatten, rfl⟩
      exact Except.ok.inj (helement.symm.trans hinfer)
    have hcanonical : ∀ elements ∈ nodes, ∀ node ∈ elements, node.Canonical := by
      intro elements helements node hnode
      obtain ⟨item, hitem, hok⟩ :=
        exists_of_mem_right hflatten (List.mem_flatten.mpr ⟨elements, helements, hnode⟩)
      exact (recorded_of_classify (hclean item hitem) hok).canonical
    have hempty : parts.flatten.isEmpty = nodes.flatten.isEmpty := by
      rw [Bool.eq_iff_iff, List.isEmpty_iff_length_eq_zero, List.isEmpty_iff_length_eq_zero,
        hflatten.length_eq]
    have hne : nodes ≠ [] := by
      rintro rfl
      exact hparts (List.forall₂_nil_right_iff.mp hnodes)
    refine ⟨_, infer_map_array hnodes, ?_⟩
    rw [hmerge, hempty]
    exact Node.mergeAll_lists_indistinguishable hne hcanonical

/-- An empty array, one that holds only a null, and zeros of both signs in different arrays. -/
theorem infer_arrays_of_zeros : ∃ schema element,
    Node.infer {} [.array [], .array [.double (.number true 0), .string "ff"], .array [.null],
      .array [.integer 0, .double (.number false 0)]] = .ok schema ∧
    Node.infer {} [.double (.number true 0), .string "ff", .null, .integer 0,
      .double (.number false 0)] = .ok element ∧
    schema.Indistinguishable (.list element) := by
  obtain ⟨-, harrays⟩ := infer_arrays {} [[], [.double (.number true 0), .string "ff"], [.null],
    [.integer 0, .double (.number false 0)]]
  obtain ⟨element, helement⟩ : ∃ element, Node.infer {} [.double (.number true 0), .string "ff",
    .null, .integer 0, .double (.number false 0)] = .ok element := ⟨_, rfl⟩
  obtain ⟨schema, hschema, hsame⟩ := harrays (by decide) (by decide) element helement
  exact ⟨schema, element, hschema, helement, hsame⟩

end RecordSchema
