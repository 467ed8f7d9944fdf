import RecordSchema.Proofs.Node.LeastCover
import RecordSchema.Proofs.Inference.Explanation

/-!
# Values that conform to a schema

A value conforms to a schema if the schema admits it at every depth: numbers lie within the bounds,
strings and booleans have their types, an array has elements that conform, an object has no member
without a field, and a union admits what one of its alternatives does.  `Conforms` says this by
recursion on the value and without any merge.

A value that can be classified conforms to a schema exactly if its node is covered by it
(`conforms_iff_coveredBy`).  As a merge is the least cover, this is the same as that folding the
value into the schema changes nothing, and everything that was folded in conforms from there on
(`conformance_exact`).
-/

namespace RecordSchema

variable {detection : Detection} {path : String}

/-! ### Conformance -/

/-- The schema admits the value. -/
inductive Conforms (detection : Detection) : Value → Node → Prop
  /-- Nulls conform to every schema. -/
  | null (node : Node) : Conforms detection .null node
  | boolean (value : Bool) : Conforms detection (.boolean value) .boolean
  | integer {value : Value} {n min max : ℤ} (whole : value.whole? = some n) (lower : min ≤ n)
      (upper : n ≤ max) : Conforms detection value (.integer min max)
  /-- An integer is compared with floating-point bounds as the double nearest to it. -/
  | rounded {value : Value} {n : ℤ} {min max : Double} (whole : value.whole? = some n)
      (lower : min.AtMost (.ofInt n)) (upper : (Double.ofInt n).AtMost max) :
      Conforms detection value (.floating min max)
  | fraction {value : Value} {x min max : Double} (fraction : value.whole? = none)
      (double : value.double? = some x) (lower : min.AtMost x) (upper : x.AtMost max) :
      Conforms detection value (.floating min max)
  | timestamp {text : String} (timestamp : detection.IsTimestamp text) :
      Conforms detection (.string text) .timestamp
  | binary {text : String} (plain : ¬ detection.IsTimestamp text)
      (binary : detection.IsBinary text) : Conforms detection (.string text) .binary
  | string {text : String} (plain : ¬ detection.IsTimestamp text) :
      Conforms detection (.string text) .string
  | array {items : List Value} {element : Node}
      (admitted : ∀ item ∈ items, Conforms detection item element) :
      Conforms detection (.array items) (.list element)
  /-- Every member has a field of its name, which admits it. -/
  | object {members : List (String × Value)} {fields : List (String × Node)} {shapes : ShapeSet}
      (present : ∀ member ∈ members, member.1 ∈ Node.names fields)
      (admitted : ∀ member ∈ members,
        Conforms detection member.2 (Node.fieldNode member.1 fields)) :
      Conforms detection (.object members) (.struct fields shapes)
  | alternative {value : Value} {child : Node} {children : List Node} (observed : value ≠ .null)
      (mem : child ∈ children) (admitted : Conforms detection value child) :
      Conforms detection value (.union children)

/-! ### Covered merges -/

namespace Node

/-- A schema covers a merge of many nodes if and only if it covers each of them. -/
lemma foldl_merge_coveredBy_iff {nodes : List Node} {start c : Node} (hstart : start.IsSchema)
    (hnodes : ∀ node ∈ nodes, node.IsSchema) (hc : c.IsSchema) :
    CoveredBy (nodes.foldl merge start) c ↔
      CoveredBy start c ∧ ∀ node ∈ nodes, CoveredBy node c := by
  induction nodes generalizing start with
  | nil => simp
  | cons node nodes ih =>
    obtain ⟨hnode, hnodes⟩ := List.forall_mem_cons.mp hnodes
    rw [List.foldl_cons, ih (hstart.merge hnode) hnodes, merge_coveredBy_iff hstart hnode hc,
      List.forall_mem_cons, and_assoc]

/-- A merge of many nodes covers each of them. -/
lemma coveredBy_foldl_merge {nodes : List Node} {start : Node} (hstart : start.IsSchema)
    (hnodes : ∀ node ∈ nodes, node.IsSchema) : CoveredBy start (nodes.foldl merge start) ∧
      ∀ node ∈ nodes, CoveredBy node (nodes.foldl merge start) :=
  have hmerge := isSchema_foldl_merge hstart hnodes
  (foldl_merge_coveredBy_iff hstart hnodes hmerge).mp (.refl hmerge)

/-- The merge is equal to its left side if and only if that covers the right side. -/
lemma merge_equals_left_iff {a b : Node} (ha : a.Canonical) (hb : b.Canonical) :
    (a.merge b).equals a = true ↔ CoveredBy b a := by
  have hleft : CoveredBy a (a.merge b) := (coveredBy_merge (Or.inr ha) (Or.inr hb)).1
  rw [equals, agrees_iff (ha.merge hb) ha, merge_coveredBy_iff (Or.inr ha) (Or.inr hb) (Or.inr ha)]
  constructor
  · rintro ⟨⟨-, hcovered⟩, -⟩
    exact hcovered
  · intro hcovered
    exact ⟨⟨.refl (Or.inr ha), hcovered⟩, hleft⟩

/-- Lists by their elements: the merge of the elements is covered if each of them is. -/
lemma list_foldl_coveredBy_iff {nodes : List Node} {element : Node}
    (hnodes : ∀ node ∈ nodes, node.IsSchema) (helement : element.Canonical) :
    CoveredBy (.list (nodes.foldl merge .null)) (.list element) ↔
      ∀ node ∈ nodes, CoveredBy node element := by
  have hiff := foldl_merge_coveredBy_iff (Or.inr .null) hnodes (Or.inr helement)
  constructor
  · intro h
    cases h with
    | lists covered => exact (hiff.mp covered).2
  · intro h
    exact .lists (hiff.mpr ⟨.null helement.ne_void, h⟩)

/-- Structs by their fields, whatever their order. -/
lemma ofFields_coveredBy_iff {fields others : List (String × Node)}
    {shapes otherShapes : ShapeSet} :
    CoveredBy (.ofFields fields shapes) (.struct others otherShapes) ↔
      ∀ field ∈ fields, field.1 ∈ names others ∧ CoveredBy field.2 (fieldNode field.1 others) := by
  constructor
  · intro h field hfield
    have hmem : field ∈ sortFields fields := mem_sortBy.mpr hfield
    cases h with
    | structs present covered => exact ⟨present field hmem, covered field hmem⟩
  · intro h
    exact .structs (fun field hfield => (h field (mem_sortBy.mp hfield)).1)
      fun field hfield => (h field (mem_sortBy.mp hfield)).2

/-- The node of a field that is there is canonical. -/
lemma canonical_fieldNode {fields : List (String × Node)} {shapes : ShapeSet}
    (h : Canonical (.struct fields shapes)) {name : String} (hname : name ∈ names fields) :
    (fieldNode name fields).Canonical :=
  (isSchema_fieldNode h name).resolve_left ((mem_names_iff_fieldNode_ne_void h name).mp hname)

end Node

/-! ### Conformance as coverage -/

lemma isSchema_of_classified {values : List Value} {nodes : List Node}
    (hclean : ∀ value ∈ values, value.Clean)
    (h : List.Forall₂ (fun value node => classify detection path value = .ok node) values nodes) :
    ∀ node ∈ nodes, node.IsSchema := by
  intro node hnode
  obtain ⟨value, hvalue, hok⟩ := exists_of_mem_right h hnode
  exact Or.inr (recorded_of_classify (hclean value hvalue) hok).canonical

/-- Only null is classified as null, and no value as a union. -/
lemma isAlternative_of_classify {value : Value} (hobserved : value ≠ .null) {node : Node}
    (h : classify detection path value = .ok node) : node.IsAlternative := by
  cases value with
  | null => exact absurd rfl hobserved
  | integer n =>
    rw [classify] at h
    rw [classifyInteger_eq_ok h]
    simp [Node.IsAlternative, Node.IsPresent, Node.kind]
  | decimal value =>
    rw [classify] at h
    rcases classifyDecimal_eq_ok h with ⟨n, hn⟩ | ⟨x, -, rfl⟩
    · rw [classifyInteger_eq_ok hn]
      simp [Node.IsAlternative, Node.IsPresent, Node.kind]
    · simp [Node.IsAlternative, Node.IsPresent, Node.kind]
  | string text =>
    rw [classify, classifyString_eq] at h
    cases h
    split
    · decide
    split <;> decide
  | array items =>
    obtain ⟨nodes, -, rfl⟩ := classify_array_eq_ok_iff.mp h
    simp [Node.IsAlternative, Node.IsPresent, Node.kind]
  | object members =>
    obtain ⟨fields, -, rfl⟩ := classify_object_eq_ok_iff.mp h
    simp [Node.IsAlternative, Node.IsPresent, Node.ofFields, Node.kind]
  | unsupported typeName =>
    rw [classify] at h
    cases h
  | boolean | double =>
    rw [classify] at h
    cases h
    simp [Node.IsAlternative, Node.IsPresent, Node.kind]

/-- The node of a value is covered by the schemas to which the value conforms. -/
lemma coveredBy_of_conforms {value : Value} {schema node : Node}
    (hconforms : Conforms detection value schema) (hclean : value.Clean)
    (hschema : schema.Canonical) (h : classify detection path value = .ok node) :
    Node.CoveredBy node schema := by
  induction hconforms generalizing path node with
  | null =>
    rw [classify] at h
    cases h
    exact .null hschema.ne_void
  | boolean =>
    rw [classify] at h
    cases h
    exact .boolean
  | integer whole lower upper =>
    obtain ⟨rfl, -⟩ := classify_of_whole? whole h
    exact .integers lower upper
  | rounded whole lower upper =>
    obtain ⟨rfl, -⟩ := classify_of_whole? whole h
    exact .integerFloating lower upper
  | fraction fraction double lower upper =>
    obtain ⟨x, hdouble, rfl⟩ := classify_of_isFraction ⟨fraction, _, double⟩ h
    obtain rfl := Option.some.inj (hdouble.symm.trans double)
    exact .floatings lower upper
  | timestamp timestamp =>
    rw [classify, classifyString_eq, if_pos timestamp] at h
    cases h
    exact .timestamp
  | binary plain binary =>
    rw [classify, classifyString_eq, if_neg plain, if_pos binary] at h
    cases h
    exact .binary
  | @string text plain =>
    rw [classify, classifyString_eq, if_neg plain] at h
    by_cases hbinary : detection.IsBinary text
    · rw [if_pos hbinary] at h
      cases h
      exact .binaryString
    · rw [if_neg hbinary] at h
      cases h
      exact .string
  | @array items element _ ih =>
    obtain ⟨nodes, hnodes, rfl⟩ := classify_array_eq_ok_iff.mp h
    cases hclean with
    | array clean =>
      cases hschema with
      | list canonical =>
        refine (Node.list_foldl_coveredBy_iff (isSchema_of_classified clean hnodes)
          canonical).mpr ?_
        intro node hnode
        obtain ⟨item, hitem, hok⟩ := exists_of_mem_right hnodes hnode
        exact ih item hitem (clean item hitem) canonical hok
  | @object members fields shapes present _ ih =>
    obtain ⟨classified, hclassified, rfl⟩ := classify_object_eq_ok_iff.mp h
    cases hclean with
    | object _ clean =>
      refine Node.ofFields_coveredBy_iff.mpr ?_
      intro field hfield
      obtain ⟨member, hmember, hname, hok⟩ := exists_of_mem_right hclassified hfield
      have hpresent := present member hmember
      rw [← hname]
      exact ⟨hpresent, ih member hmember (clean member hmember)
        (Node.canonical_fieldNode hschema hpresent) hok⟩
  | alternative observed mem _ ih =>
    cases hschema with
    | union _ _ canonical =>
      exact .alternative (isAlternative_of_classify observed h).2 mem
        (ih hclean (canonical _ mem) h)

/-- What holds of the alternatives of schemas holds of all schemas: a value conforms to a union if
one of the alternatives admits it. -/
lemma conforms_of_alternatives {value : Value} (hobserved : value ≠ .null) {node : Node}
    (h : classify detection path value = .ok node)
    (hsingle : ∀ {schema : Node}, schema.Canonical → schema.kind ≠ .union →
      Node.CoveredBy node schema → Conforms detection value schema)
    {schema : Node} (hschema : schema.Canonical) (hcovered : Node.CoveredBy node schema) :
    Conforms detection value schema := by
  have hnode : node.IsAlternative := isAlternative_of_classify hobserved h
  by_cases hunion : schema.kind = .union
  · obtain ⟨children, rfl⟩ := Node.eq_union_of_kind hunion
    cases hschema with
    | union _ alternatives canonical =>
      cases hcovered with
      | void => exact absurd rfl hnode.1.1
      | null => exact absurd rfl hnode.1.2
      | union => exact absurd rfl hnode.2
      | alternative _ mem covered =>
        exact .alternative hobserved mem
          (hsingle (canonical _ mem) (alternatives.alternative _ mem).2 covered)
  · exact hsingle hschema hunion hcovered

lemma conforms_of_whole? {value : Value} {n : ℤ} (hwhole : value.whole? = some n) {schema : Node}
    (hsingle : schema.kind ≠ .union) (hcovered : Node.CoveredBy (.integer n n) schema) :
    Conforms detection value schema := by
  cases hcovered with
  | integers lower upper => exact .integer hwhole lower upper
  | integerFloating lower upper => exact .rounded hwhole lower upper
  | alternative => exact absurd rfl hsingle

lemma conforms_of_fraction {value : Value} {x : Double} (hwhole : value.whole? = none)
    (hdouble : value.double? = some x) {schema : Node} (hsingle : schema.kind ≠ .union)
    (hcovered : Node.CoveredBy (.floating x x) schema) : Conforms detection value schema := by
  cases hcovered with
  | floatings lower upper => exact .fraction hwhole hdouble lower upper
  | alternative => exact absurd rfl hsingle

lemma conforms_of_string {text : String} {schema : Node} (hsingle : schema.kind ≠ .union)
    (hcovered : Node.CoveredBy (classifyString detection text) schema) :
    Conforms detection (.string text) schema := by
  rw [classifyString_eq] at hcovered
  split at hcovered
  · next htimestamp =>
    cases hcovered with
    | timestamp => exact .timestamp htimestamp
    | alternative => exact absurd rfl hsingle
  · next hplain =>
    split at hcovered
    · next hbinary =>
      cases hcovered with
      | binary => exact .binary hplain hbinary
      | binaryString => exact .string hplain
      | alternative => exact absurd rfl hsingle
    · cases hcovered with
      | string => exact .string hplain
      | alternative => exact absurd rfl hsingle

/-- A value conforms to the schemas that cover its node. -/
lemma conforms_of_coveredBy {value : Value} (hclean : value.Clean) {schema node : Node}
    (hschema : schema.Canonical) (h : classify detection path value = .ok node)
    (hcovered : Node.CoveredBy node schema) : Conforms detection value schema := by
  induction hclean generalizing path schema node with
  | null => exact .null schema
  | unsupported =>
    rw [classify] at h
    cases h
  | boolean value =>
    refine conforms_of_alternatives (by simp) h ?_ hschema hcovered
    intro schema _ hsingle hcovered
    rw [classify] at h
    cases h
    cases hcovered with
    | boolean => exact .boolean value
    | alternative => exact absurd rfl hsingle
  | integer n =>
    refine conforms_of_alternatives (by simp) h ?_ hschema hcovered
    intro schema _ hsingle hcovered
    obtain ⟨rfl, -⟩ := classify_of_whole? (n := n) rfl h
    exact conforms_of_whole? rfl hsingle hcovered
  | @decimal value _ _ =>
    refine conforms_of_alternatives (by simp) h ?_ hschema hcovered
    intro schema _ hsingle hcovered
    cases hwhole : (Value.decimal value).whole? with
    | some n =>
      obtain ⟨rfl, -⟩ := classify_of_whole? hwhole h
      exact conforms_of_whole? hwhole hsingle hcovered
    | none =>
      rw [classify] at h
      obtain ⟨x, hdouble, rfl⟩ := classifyDecimal_fraction hwhole h
      exact conforms_of_fraction hwhole hdouble hsingle hcovered
  | @double x _ =>
    refine conforms_of_alternatives (by simp) h ?_ hschema hcovered
    intro schema _ hsingle hcovered
    rw [classify] at h
    cases h
    exact conforms_of_fraction rfl rfl hsingle hcovered
  | string text =>
    refine conforms_of_alternatives (by simp) h ?_ hschema hcovered
    intro schema _ hsingle hcovered
    rw [classify] at h
    cases h
    exact conforms_of_string hsingle hcovered
  | @array items clean ih =>
    refine conforms_of_alternatives (by simp) h ?_ hschema hcovered
    intro schema hschema hsingle hcovered
    obtain ⟨nodes, hnodes, rfl⟩ := classify_array_eq_ok_iff.mp h
    cases hschema with
    | list canonical =>
      have hall := (Node.list_foldl_coveredBy_iff (isSchema_of_classified clean hnodes)
        canonical).mp hcovered
      refine .array ?_
      intro item hitem
      obtain ⟨node, hnode, hok⟩ := exists_of_mem_left hnodes hitem
      exact ih item hitem canonical hok (hall node hnode)
    | union => exact absurd rfl hsingle
    | _ => cases hcovered
  | @object members distinct clean ih =>
    refine conforms_of_alternatives (by simp) h ?_ hschema hcovered
    intro schema hschema hsingle hcovered
    obtain ⟨classified, hclassified, rfl⟩ := classify_object_eq_ok_iff.mp h
    cases schema with
    | struct fields shapes =>
      have hall := Node.ofFields_coveredBy_iff.mp hcovered
      have hfield : ∀ member ∈ members, member.1 ∈ Node.names fields ∧ ∃ node,
          classify detection (path ++ "." ++ member.1) member.2 = .ok node ∧
            Node.CoveredBy node (Node.fieldNode member.1 fields) := by
        intro member hmember
        obtain ⟨field, hmem, hname, hok⟩ := exists_of_mem_left hclassified hmember
        rw [hname] at hok ⊢
        exact ⟨(hall field hmem).1, field.2, hok, (hall field hmem).2⟩
      refine .object (fun member hmember => (hfield member hmember).1) ?_
      intro member hmember
      obtain ⟨hpresent, node, hok, hadmits⟩ := hfield member hmember
      exact ih member hmember (Node.canonical_fieldNode hschema hpresent) hok hadmits
    | union => exact absurd rfl hsingle
    | _ => cases hcovered

/-- A value that can be classified conforms to the schemas that cover its node. -/
theorem conforms_iff_coveredBy {value : Value} (hclean : value.Clean) {schema node : Node}
    (hschema : schema.Canonical) (h : classify detection path value = .ok node) :
    Conforms detection value schema ↔ Node.CoveredBy node schema := by
  constructor
  · intro hconforms
    exact coveredBy_of_conforms hconforms hclean hschema h
  · intro hcovered
    exact conforms_of_coveredBy hclean hschema h hcovered

/-- The same where possibly nothing was observed for the schema. -/
lemma conforms_of_isSchema {value : Value} (hclean : value.Clean) {schema node : Node}
    (hschema : schema.IsSchema) (h : classify detection path value = .ok node)
    (hcovered : Node.CoveredBy node schema) : Conforms detection value schema := by
  have hnode : node.Canonical := (recorded_of_classify hclean h).canonical
  rcases hschema with rfl | hcanonical
  · exact absurd (hcovered.eq_void (Or.inr hnode)) hnode.ne_void
  · exact conforms_of_coveredBy hclean hcanonical h hcovered

/-! ### Folding -/

/-- Folding a value into a schema changes nothing if and only if the value conforms to it.  The
records of a list conform to their schema, also after any further records were folded in. -/
theorem conformance_exact (detection : Detection) :
    (∀ {schema : Node} {value : Value} {node : Node}, schema.Canonical → value.Clean →
      classify detection recordPath value = .ok node →
      ∃ next, Node.fold detection schema value = .ok next ∧
        (next.equals schema = true ↔ Conforms detection value schema)) ∧
    ∀ {records further : List Value}, (∀ record ∈ records ++ further, record.Clean) →
      (∀ record ∈ records ++ further, ∃ node, classify detection recordPath record = .ok node) →
      ∃ schema result, Node.infer detection records = .ok schema ∧
        further.foldlM (Node.fold detection) schema = .ok result ∧
        ∀ record ∈ records,
          Conforms detection record schema ∧ Conforms detection record result := by
  refine ⟨?_, ?_⟩
  · intro schema value node hschema hclean hnode
    refine ⟨schema.merge node, fold_eq_ok_iff.mpr ⟨node, hnode, rfl⟩, ?_⟩
    rw [conforms_iff_coveredBy hclean hschema hnode]
    exact Node.merge_equals_left_iff hschema (recorded_of_classify hclean hnode).canonical
  · intro records further hclean hclassifies
    obtain ⟨hcleanRecords, hcleanFurther⟩ := List.forall_mem_append.mp hclean
    obtain ⟨hrecords, hfurther⟩ := List.forall_mem_append.mp hclassifies
    obtain ⟨nodes, hnodes⟩ := exists_forall₂ hrecords
    obtain ⟨others, hothers⟩ := exists_forall₂ hfurther
    have hschemas : ∀ node ∈ nodes, node.IsSchema := isSchema_of_classified hcleanRecords hnodes
    have hothers' : ∀ node ∈ others, node.IsSchema := isSchema_of_classified hcleanFurther hothers
    have hschema : (Node.mergeAll nodes).IsSchema := Node.isSchema_foldl_merge (Or.inl rfl) hschemas
    refine ⟨Node.mergeAll nodes, others.foldl Node.merge (Node.mergeAll nodes),
      infer_eq_ok_iff.mpr ⟨nodes, hnodes, rfl⟩,
      foldlM_fold_eq_ok_iff.mpr ⟨others, hothers, rfl⟩, ?_⟩
    intro record hrecord
    obtain ⟨node, hnode, hok⟩ := exists_of_mem_left hnodes hrecord
    have hcovered : Node.CoveredBy node (Node.mergeAll nodes) :=
      (Node.coveredBy_foldl_merge (Or.inl rfl) hschemas).2 node hnode
    refine ⟨conforms_of_isSchema (hcleanRecords record hrecord) hschema hok hcovered, ?_⟩
    -- what covers the node is covered by what is folded from there
    have hresult : (others.foldl Node.merge (Node.mergeAll nodes)).IsSchema :=
      Node.isSchema_foldl_merge hschema hothers'
    have hgrown := (Node.coveredBy_foldl_merge hschema hothers').1
    exact conforms_of_isSchema (hcleanRecords record hrecord) hresult hok
      (hcovered.trans hgrown (hschemas node hnode) hschema hresult)

/-- An integer that no double holds, a string of hexadecimal digits and a null conform to an array
of floating-point numbers and strings, so folding them in changes nothing.  Inferred by themselves
they conform as well, also after an empty array. -/
theorem conformance_exact_array :
    let value : Value := .array [.integer 9007199254740993, .string "0f", .null]
    let schema : Node := .list (.union
      [.floating (.number true 0) (.number false 0x4340000000000000), .string])
    Conforms {} value schema ∧
      (∃ next, Node.fold {} schema value = .ok next ∧ next.equals schema = true) ∧
      ∃ schema result, Node.infer {} [value] = .ok schema ∧
        [Value.array []].foldlM (Node.fold {}) schema = .ok result ∧
        Conforms {} value schema ∧ Conforms {} value result := by
  intro value schema
  have hclean : value.Clean := by decide
  have hschema : schema.Canonical := by decide
  have hconforms : Conforms {} value schema := by
    refine .array ?_
    intro item hitem
    simp only [List.mem_cons, List.not_mem_nil, or_false] at hitem
    rcases hitem with rfl | rfl | rfl
    · exact .alternative nofun List.mem_cons_self
        (.rounded (n := 9007199254740993) rfl (by decide +kernel) (by decide +kernel))
    · exact .alternative nofun (List.mem_cons_of_mem _ List.mem_cons_self) (.string (by decide))
    · exact .null _
  obtain ⟨hfold, hinfer⟩ := conformance_exact {}
  obtain ⟨node, hnode⟩ : ∃ node, classify {} recordPath value = .ok node := ⟨_, rfl⟩
  refine ⟨hconforms, ?_, ?_⟩
  · obtain ⟨next, hnext, hequals⟩ := hfold hschema hclean hnode
    exact ⟨next, hnext, hequals.mpr hconforms⟩
  · have hclassifies : ∀ record ∈ [value] ++ [.array []],
        ∃ node, classify {} recordPath record = .ok node := by
      intro record hrecord
      simp only [List.cons_append, List.nil_append, List.mem_cons, List.not_mem_nil,
        or_false] at hrecord
      rcases hrecord with rfl | rfl
      · exact ⟨node, hnode⟩
      · exact ⟨_, rfl⟩
    obtain ⟨schema, result, hschema, hresult, hall⟩ := hinfer (by decide) hclassifies
    exact ⟨schema, result, hschema, hresult, hall value List.mem_cons_self⟩

end RecordSchema
