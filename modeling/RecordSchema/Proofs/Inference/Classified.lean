import RecordSchema.Classification
import RecordSchema.Proofs.Node.Parts
import RecordSchema.Proofs.Node.Totality
import RecordSchema.Proofs.Inference.Values
import RecordSchema.Proofs.Traversal

/-!
# Values that can be classified

Where classification succeeds it has classified every part.  The node of an array holds the merge
of the nodes of its elements, an object has a field for the node of each member, and a list of
records is inferred as the merge of the nodes of the records.  Where it fails, it fails as the first
part does that cannot be classified.

The node of a clean value is in canonical form and remembers the shapes of its structs
(`recorded_of_classify`).
-/

namespace RecordSchema

variable {detection : Detection} {path : String}

/-! ### What success means for the parts -/

lemma classifyItems_eq_ok_iff {element result : Node} {items : List Value} :
    classifyItems detection path element items = .ok result ↔ ∃ nodes,
      List.Forall₂ (fun item node => classify detection path item = .ok node) items nodes ∧
        nodes.foldl Node.merge element = result := by
  induction items generalizing element with
  | nil =>
    rw [classifyItems, Except.ok.injEq]
    refine ⟨fun h => ⟨[], .nil, h⟩, ?_⟩
    rintro ⟨nodes, hnodes, h⟩
    cases hnodes
    exact h
  | cons item items ih =>
    rw [classifyItems, bind_eq_ok_iff]
    constructor
    · rintro ⟨node, hnode, h⟩
      obtain ⟨nodes, hnodes, hresult⟩ := ih.mp h
      exact ⟨node :: nodes, .cons hnode hnodes, hresult⟩
    · rintro ⟨nodes, hnodes, hresult⟩
      cases hnodes with
      | cons hnode hnodes => exact ⟨_, hnode, ih.mpr ⟨_, hnodes, hresult⟩⟩

lemma classifyMembers_eq_ok_iff {members : List (String × Value)} {fields : List (String × Node)} :
    classifyMembers detection path members = .ok fields ↔ List.Forall₂ (fun member field =>
      member.1 = field.1 ∧ classify detection (path ++ "." ++ member.1) member.2 = .ok field.2)
      members fields := by
  induction members generalizing fields with
  | nil =>
    rw [classifyMembers, Except.ok.injEq, List.forall₂_nil_left_iff, eq_comm]
  | cons member members ih =>
    rw [classifyMembers, bind_eq_ok_iff]
    constructor
    · rintro ⟨node, hnode, h⟩
      obtain ⟨rest, hrest, h⟩ := bind_eq_ok_iff.mp h
      cases h
      exact .cons ⟨rfl, hnode⟩ (ih.mp hrest)
    · intro h
      cases h with
      | cons hfield hrest =>
        obtain ⟨hname, hnode⟩ := hfield
        refine ⟨_, hnode, bind_eq_ok_iff.mpr ⟨_, ih.mpr hrest, ?_⟩⟩
        rw [hname]
        rfl

lemma classify_array_eq_ok_iff {items : List Value} {node : Node} :
    classify detection path (.array items) = .ok node ↔ ∃ nodes,
      List.Forall₂ (fun item node => classify detection (path ++ ".list") item = .ok node)
        items nodes ∧ node = .list (nodes.foldl Node.merge .null) := by
  rw [classify, bind_eq_ok_iff]
  constructor
  · rintro ⟨element, helement, h⟩
    cases h
    obtain ⟨nodes, hnodes, rfl⟩ := classifyItems_eq_ok_iff.mp helement
    exact ⟨nodes, hnodes, rfl⟩
  · rintro ⟨nodes, hnodes, rfl⟩
    exact ⟨_, classifyItems_eq_ok_iff.mpr ⟨nodes, hnodes, rfl⟩, rfl⟩

lemma classify_object_eq_ok_iff {members : List (String × Value)} {node : Node} :
    classify detection path (.object members) = .ok node ↔ ∃ fields,
      List.Forall₂ (fun member field => member.1 = field.1 ∧
        classify detection (path ++ "." ++ member.1) member.2 = .ok field.2) members fields ∧
        node = .ofFields fields (.ofList [shapeSignature (Value.names members)]) := by
  rw [classify, bind_eq_ok_iff]
  constructor
  · rintro ⟨fields, hfields, h⟩
    cases h
    exact ⟨fields, classifyMembers_eq_ok_iff.mp hfields, rfl⟩
  · rintro ⟨fields, hfields, rfl⟩
    exact ⟨fields, classifyMembers_eq_ok_iff.mpr hfields, rfl⟩

lemma fold_eq_ok_iff {start result : Node} {record : Value} :
    Node.fold detection start record = .ok result ↔
      ∃ node, classify detection recordPath record = .ok node ∧ start.merge node = result := by
  unfold Node.fold
  cases classify detection recordPath record with
  | error failure => exact ⟨nofun, nofun⟩
  | ok node =>
    rw [Except.map, Except.ok.injEq]
    exact ⟨fun h => ⟨node, rfl, h⟩, fun ⟨_, rfl, h⟩ => h⟩

lemma foldlM_fold_eq_ok_iff {start result : Node} {records : List Value} :
    records.foldlM (Node.fold detection) start = .ok result ↔ ∃ nodes,
      List.Forall₂ (fun record node => classify detection recordPath record = .ok node)
        records nodes ∧ nodes.foldl Node.merge start = result := by
  induction records generalizing start with
  | nil =>
    constructor
    · intro h
      cases h
      exact ⟨[], .nil, rfl⟩
    · rintro ⟨nodes, hnodes, rfl⟩
      cases hnodes
      rfl
  | cons record records ih =>
    rw [List.foldlM_cons, bind_eq_ok_iff]
    constructor
    · rintro ⟨next, hnext, h⟩
      obtain ⟨node, hnode, rfl⟩ := fold_eq_ok_iff.mp hnext
      obtain ⟨nodes, hnodes, hresult⟩ := ih.mp h
      exact ⟨node :: nodes, .cons hnode hnodes, hresult⟩
    · rintro ⟨nodes, hnodes, hresult⟩
      cases hnodes with
      | cons hnode hnodes =>
        exact ⟨_, fold_eq_ok_iff.mpr ⟨_, hnode, rfl⟩, ih.mpr ⟨_, hnodes, hresult⟩⟩

/-- The schema of records is the merge of their nodes. -/
theorem infer_eq_ok_iff {result : Node} {records : List Value} :
    Node.infer detection records = .ok result ↔ ∃ nodes,
      List.Forall₂ (fun record node => classify detection recordPath record = .ok node)
        records nodes ∧ Node.mergeAll nodes = result :=
  foldlM_fold_eq_ok_iff

/-- Fields have the names of their members. -/
lemma names_eq_of_forall₂ {members : List (String × Value)} {fields : List (String × Node)}
    {R : String × Value → String × Node → Prop}
    (h : List.Forall₂ (fun member field => member.1 = field.1 ∧ R member field) members fields) :
    Node.names fields = Value.names members := by
  induction h with
  | nil => rfl
  | cons hhead _ ih =>
    rw [Node.names_cons, ih, ← hhead.1]
    rfl

/-! ### What failure means for the parts -/

lemma failure?_classifyItems (element : Node) (items : List Value) :
    failure? (classifyItems detection path element items) =
      items.findSome? fun item => failure? (classify detection path item) := by
  induction items generalizing element with
  | nil => rfl
  | cons item items ih =>
    rw [classifyItems, List.findSome?_cons]
    cases classify detection path item with
    | error failure => rfl
    | ok node => exact ih (element.merge node)

lemma failure?_classifyMembers (members : List (String × Value)) :
    failure? (classifyMembers detection path members) = members.findSome? fun member =>
      failure? (classify detection (path ++ "." ++ member.1) member.2) := by
  induction members with
  | nil => rfl
  | cons member members ih =>
    rw [classifyMembers, List.findSome?_cons]
    cases classify detection (path ++ "." ++ member.1) member.2 with
    | error failure => rfl
    | ok node => exact (failure?_bind_pure _ fun fields => (member.1, node) :: fields).trans ih

/-! ### The canonical form of what is classified -/

lemma classifyInteger_eq_ok {n : ℤ} {node : Node}
    (h : classifyInteger n path = .ok node) : node = .integer n n := by
  unfold classifyInteger at h
  split at h
  · cases h
  · cases h
    rfl

lemma recorded_of_classifyInteger {value : ℤ} {node : Node}
    (h : classifyInteger value path = .ok node) : node.Recorded := by
  unfold classifyInteger at h
  split at h
  · cases h
  · next hrange =>
    cases h
    rw [not_or, not_lt, not_lt] at hrange
    exact .integer hrange.1 le_rfl hrange.2

/-- Only NaN becomes NaN. -/
lemma toDouble?_ne_nan {value : Decimal} (h : value ≠ .quietNaN) :
    value.toDouble? ≠ some .nan := by
  cases value with
  | finite negative coefficient exponent =>
    simp only [Decimal.toDouble?, Double.infinity]
    split <;> try split <;> try split
    all_goals simp
  | quietNaN => exact absurd rfl h
  | infinite | signalingNaN => exact nofun

/-- A decimal becomes an integer that fits, or the double nearest to it. -/
lemma classifyDecimal_eq_ok {value : Decimal} {node : Node}
    (h : classifyDecimal value path = .ok node) :
    (∃ n, classifyInteger n path = .ok node) ∨
      ∃ double, value.toDouble? = some double ∧ node = .floating double double := by
  unfold classifyDecimal at h
  -- the branch of fractions is named, since special values and fractions share it
  extract_lets fractional at h
  have hfractional : fractional = .ok node →
      ∃ double, value.toDouble? = some double ∧ node = .floating double double := by
    intro h
    cases hdouble : value.toDouble? with
    | none => simp [fractional, hdouble] at h
    | some double =>
      simp only [fractional, hdouble, Except.ok.injEq] at h
      exact ⟨double, rfl, h.symm⟩
  cases value with
  | finite negative coefficient exponent =>
    dsimp only at h
    split_ifs at h
    · exact Or.inr (hfractional h)
    · exact Or.inl ⟨0, h⟩
    all_goals exact Or.inl ⟨_, h⟩
  | infinite | quietNaN | signalingNaN => exact Or.inr (hfractional h)

lemma recorded_of_classifyDecimal {value : Decimal} (hvalue : value ≠ .quietNaN) {node : Node}
    (h : classifyDecimal value path = .ok node) : node.Recorded := by
  rcases classifyDecimal_eq_ok h with ⟨n, hn⟩ | ⟨double, hdouble, rfl⟩
  · exact recorded_of_classifyInteger hn
  · refine .floating (Double.AtMost.refl ?_)
    rintro rfl
    exact toDouble?_ne_nan hvalue hdouble

lemma recorded_of_classifyString (detection : Detection) (value : String) :
    (classifyString detection value).Recorded := by
  unfold classifyString
  split
  · exact .timestamp
  split
  · exact .binary
  · exact .string

namespace Node

lemma Recorded.foldl_merge {start : Node} (hstart : start.Recorded) {nodes : List Node}
    (hnodes : ∀ node ∈ nodes, node.Recorded) : (nodes.foldl Node.merge start).Recorded := by
  induction nodes generalizing start with
  | nil => exact hstart
  | cons node nodes ih =>
    obtain ⟨hnode, hnodes⟩ := List.forall_mem_cons.mp hnodes
    exact ih (hstart.merge hnode) hnodes

end Node

/-- The node of a clean value is canonical, and its structs remember their shapes. -/
theorem recorded_of_classify {value : Value} (hclean : value.Clean) {node : Node}
    (h : classify detection path value = .ok node) : node.Recorded := by
  -- the location changes on the way down, so it is generalized
  induction hclean generalizing path node with
  | array _ ih =>
    obtain ⟨nodes, hnodes, rfl⟩ := classify_array_eq_ok_iff.mp h
    refine .list (Node.Recorded.foldl_merge .null fun node hnode => ?_)
    obtain ⟨item, hitem, hok⟩ := exists_of_mem_right hnodes hnode
    exact ih item hitem hok
  | @object members distinct _ ih =>
    obtain ⟨fields, hfields, rfl⟩ := classify_object_eq_ok_iff.mp h
    have hnames : Node.names fields = Value.names members := names_eq_of_forall₂ hfields
    refine .struct (Node.pairwise_sortFields (hnames ▸ distinct)) ?_ fun field hfield => ?_
    · exact List.ne_nil_of_mem (ShapeSet.mem_ofList.mpr (List.mem_singleton_self _))
    · obtain ⟨member, hmember, -, hok⟩ := exists_of_mem_right hfields (mem_sortBy.mp hfield)
      exact ih member hmember hok
  | integer => exact recorded_of_classifyInteger (by rwa [classify] at h)
  | decimal quiet => exact recorded_of_classifyDecimal quiet (by rwa [classify] at h)
  | unsupported =>
    rw [classify] at h
    cases h
  | double number =>
    rw [classify] at h
    cases h
    exact .floating (Double.AtMost.refl number)
  | string value =>
    rw [classify] at h
    cases h
    exact recorded_of_classifyString detection value
  | null | boolean =>
    rw [classify] at h
    cases h
    constructor

/-! ### The canonical form of what is inferred -/

namespace Node

lemma eq_void_or_recorded_merge {a b : Node} (ha : a = .void ∨ a.Recorded)
    (hb : b = .void ∨ b.Recorded) : a.merge b = .void ∨ (a.merge b).Recorded := by
  rcases ha with rfl | ha
  · rwa [merge_void_left]
  rcases hb with rfl | hb
  · rw [merge_void_right]
    exact Or.inr ha
  · exact Or.inr (ha.merge hb)

lemma eq_void_or_recorded_mergeAll {nodes : List Node}
    (h : ∀ node ∈ nodes, node = .void ∨ node.Recorded) :
    mergeAll nodes = .void ∨ (mergeAll nodes).Recorded := by
  have hfold : ∀ {start : Node}, (start = .void ∨ start.Recorded) →
      nodes.foldl merge start = .void ∨ (nodes.foldl merge start).Recorded := by
    induction nodes with
    | nil => exact id
    | cons node nodes ih =>
      intro start hstart
      obtain ⟨hnode, hnodes⟩ := List.forall_mem_cons.mp h
      exact ih hnodes (eq_void_or_recorded_merge hstart hnode)
  exact hfold (Or.inl rfl)

/-- The schema of clean records is canonical, and absent at most if there are none. -/
lemma eq_void_or_recorded_infer {detection : Detection} {records : List Value} {node : Node}
    (hclean : ∀ record ∈ records, record.Clean) (h : infer detection records = .ok node) :
    node = .void ∨ node.Recorded := by
  obtain ⟨nodes, hnodes, rfl⟩ := infer_eq_ok_iff.mp h
  refine eq_void_or_recorded_mergeAll fun part hpart => Or.inr ?_
  obtain ⟨record, hrecord, hok⟩ := exists_of_mem_right hnodes hpart
  exact recorded_of_classify (hclean record hrecord) hok

lemma isSchema_of_infer {detection : Detection} {records : List Value} {node : Node}
    (hclean : ∀ record ∈ records, record.Clean) (h : infer detection records = .ok node) :
    node.IsSchema :=
  (eq_void_or_recorded_infer hclean h).imp_right CanonicalWith.canonical

end Node

end RecordSchema
