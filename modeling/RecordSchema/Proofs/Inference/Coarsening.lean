import RecordSchema.Proofs.Inference.Explanation
import RecordSchema.Proofs.Node.Collapse
import RecordSchema.Proofs.Node.Indistinguishable
import RecordSchema.Proofs.Text.StringForms

/-!
# Less detection coarsens the schema

Detection only decides which strings are told apart.  So it never decides whether a value can be
classified, and with less detection the node of a value is the collapsed node
(`exists_classify_collapse`).  For strings this holds because a timestamp is never a hexadecimal
string: where timestamps are no longer told apart they become plain strings, not binary data.
Arrays and lists of records are merges, and collapsing goes along with merging.
-/

namespace RecordSchema

/-! ### Strings -/

variable {detection : Detection} {path : String}

/-- The node of a string with less detection is its collapsed node. -/
lemma classifyString_collapse (detection : Detection) (text : String) :
    (classifyString {} text).collapse detection = classifyString detection text := by
  rw [classifyString_eq, classifyString_eq]
  by_cases htimestamp : Timestamp.isTimestamp text = true
  · have hhex : Hex.isHex text = false := by
      by_contra hhex
      rw [Bool.not_eq_false] at hhex
      rw [Hex.isTimestamp_eq_false hhex] at htimestamp
      cases htimestamp
    simp [Detection.IsTimestamp, Detection.IsBinary, htimestamp, hhex, Node.collapse]
  by_cases hhex : Hex.isHex text = true
  · simp [Detection.IsTimestamp, Detection.IsBinary, htimestamp, hhex, Node.collapse]
  · simp [Detection.IsTimestamp, Detection.IsBinary, htimestamp, hhex, Node.collapse]

/-- Not telling timestamps apart makes no string binary. -/
lemma classifyString_eq_binary (detection : Detection) {text : String}
    (h : classifyString { detection with timestamps := false } text = .binary) :
    classifyString { detection with timestamps := true } text = .binary := by
  rw [classifyString_eq] at h ⊢
  by_cases hbinary : ({ detection with timestamps := false } : Detection).IsBinary text
  · have htimestamp : ¬ ({ detection with timestamps := true } : Detection).IsTimestamp text := by
      rintro ⟨-, htimestamp⟩
      rw [Hex.isTimestamp_eq_false hbinary.2] at htimestamp
      cases htimestamp
    have hbinary' : ({ detection with timestamps := true } : Detection).IsBinary text := hbinary
    rw [if_neg htimestamp, if_pos hbinary']
  · simp [Detection.IsTimestamp, hbinary] at h

/-! ### Failures -/

/-- Whether a computation succeeds, and how it fails if it does not. -/
def verdict {α : Type} (result : Except Failure α) : Except Failure Unit := result.map fun _ => ()

lemma verdict_eq_error_iff {α : Type} {result : Except Failure α} {failure : Failure} :
    verdict result = .error failure ↔ result = .error failure := by
  cases result <;> simp [verdict, Except.map]

lemma verdict_eq_iff {α β : Type} {result : Except Failure α} {result' : Except Failure β} :
    verdict result = verdict result' ↔ failure? result = failure? result' := by
  cases result <;> cases result' <;> simp [verdict, Except.map, failure?]

lemma verdict_map {α β : Type} (f : α → β) (result : Except Failure α) :
    verdict (result.map f) = verdict result := by
  cases result <;> rfl

lemma verdict_bind {α β γ : Type} {result : Except Failure α} {result' : Except Failure β}
    (h : verdict result = verdict result') {next : α → Except Failure γ}
    {next' : β → Except Failure γ} (hnext : ∀ a b, verdict (next a) = verdict (next' b)) :
    verdict (result >>= next) = verdict (result' >>= next') := by
  cases result with
  | ok a =>
    cases result' with
    | ok b => exact hnext a b
    | error failure => cases h
  | error failure =>
    cases result' with
    | ok b => cases h
    | error failure' =>
      cases h
      rfl

/-- How classification fails does not depend on the detection. -/
lemma failure?_classify_eq (detection detection' : Detection) (path : String) (value : Value) :
    failure? (classify detection path value) = failure? (classify detection' path value) := by
  induction value using Value.induction generalizing path with
  | array items ih =>
    rw [classify, classify, failure?_bind_pure, failure?_bind_pure, failure?_classifyItems,
      failure?_classifyItems]
    exact findSome?_congr fun item hitem => ih item hitem _
  | object members ih =>
    rw [classify, classify, failure?_bind_pure, failure?_bind_pure, failure?_classifyMembers,
      failure?_classifyMembers]
    exact findSome?_congr fun member hmember => ih member hmember _
  | _ => simp only [classify] <;> rfl

/-- Whether a value can be classified, and how that fails, does not depend on the detection. -/
theorem verdict_classify (detection detection' : Detection) (path : String) (value : Value) :
    verdict (classify detection path value) = verdict (classify detection' path value) :=
  verdict_eq_iff.mpr (failure?_classify_eq detection detection' path value)

lemma verdict_foldlM_fold (detection detection' : Detection) (records : List Value)
    (start start' : Node) : verdict (records.foldlM (Node.fold detection) start) =
      verdict (records.foldlM (Node.fold detection') start') := by
  induction records generalizing start start' with
  | nil => rfl
  | cons record records ih =>
    rw [List.foldlM_cons, List.foldlM_cons]
    refine verdict_bind ?_ fun node node' => ih node node'
    show verdict ((classify detection recordPath record).map start.merge) =
      verdict ((classify detection' recordPath record).map start'.merge)
    rw [verdict_map, verdict_map]
    exact verdict_classify detection detection' recordPath record

/-! ### Successes -/

/-- Partners for what is related to the entries of a list, if there is one for each of them. -/
lemma exists_partners {α β γ : Type} {R S : α → β → Prop} {f g : β → γ} {xs : List α} {ys : List β}
    (h : List.Forall₂ R xs ys)
    (hpartner : ∀ x ∈ xs, ∀ y, R x y → ∃ z, S x z ∧ f z = g y) :
    ∃ zs, List.Forall₂ S xs zs ∧ zs.map f = ys.map g := by
  induction h with
  | nil => exact ⟨[], .nil, rfl⟩
  | cons hhead _ ih =>
    obtain ⟨hx, hxs⟩ := List.forall_mem_cons.mp hpartner
    obtain ⟨z, hz, heq⟩ := hx _ hhead
    obtain ⟨zs, hzs, heqs⟩ := ih hxs
    exact ⟨z :: zs, .cons hz hzs, by rw [List.map_cons, List.map_cons, heq, heqs]⟩

/-- The merge of collapsed nodes is the collapsed merge, up to the signs of zeros. -/
lemma dropZeroSigns_foldl_merge_collapse {start : Node} (hstart : start.IsSchema)
    {nodes partners : List Node} (hnodes : ∀ node ∈ nodes, node.IsSchema)
    (h : partners.map Node.dropZeroSigns =
      nodes.map fun node => (node.collapse detection).dropZeroSigns) :
    (partners.foldl Node.merge (start.collapse detection)).dropZeroSigns =
      ((nodes.foldl Node.merge start).collapse detection).dropZeroSigns := by
  have hplain : ∀ node ∈ nodes.map Node.dropZeroSigns, Node.Plain node := by
    intro node hnode
    obtain ⟨signed, hsigned, rfl⟩ := List.mem_map.mp hnode
    exact .of_isSchema (hnodes signed hsigned)
  have hnodes : partners.map Node.dropZeroSigns =
      (nodes.map Node.dropZeroSigns).map (Node.collapse detection) := by
    rw [h, List.map_map]
    exact List.map_congr_left fun node _ => Node.dropZeroSigns_collapse node
  calc (partners.foldl Node.merge (start.collapse detection)).dropZeroSigns
    _ = (partners.map Node.dropZeroSigns).foldl Node.merge
        (start.dropZeroSigns.collapse detection) := by
      rw [Node.dropZeroSigns_foldl_merge, Node.dropZeroSigns_collapse]
    _ = ((nodes.map Node.dropZeroSigns).foldl Node.merge start.dropZeroSigns).collapse
        detection := by
      rw [hnodes, Node.collapse_foldl_merge (.of_isSchema hstart) hplain]
    _ = ((nodes.foldl Node.merge start).collapse detection).dropZeroSigns := by
      rw [← Node.dropZeroSigns_foldl_merge, ← Node.dropZeroSigns_collapse]

/-- With less detection a clean value is classified as the collapsed node. -/
theorem exists_classify_collapse (detection : Detection) {value : Value} (hclean : value.Clean)
    {node : Node} (h : classify {} path value = .ok node) :
    ∃ partner, classify detection path value = .ok partner ∧
      partner.dropZeroSigns = (node.collapse detection).dropZeroSigns := by
  -- the location changes on the way down, so it is generalized
  induction hclean generalizing path node with
  | @array items clean ih =>
    obtain ⟨nodes, hnodes, rfl⟩ := classify_array_eq_ok_iff.mp h
    obtain ⟨partners, hpartners, heq⟩ := exists_partners hnodes fun item hitem _ => ih item hitem
    have hschema : ∀ node ∈ nodes, node.IsSchema := by
      intro node hnode
      obtain ⟨item, hitem, hok⟩ := exists_of_mem_right hnodes hnode
      exact Or.inr (recorded_of_classify (clean item hitem) hok).canonical
    have hmerge := dropZeroSigns_foldl_merge_collapse
      (Or.inr .null : Node.IsSchema .null) hschema heq
    refine ⟨_, classify_array_eq_ok_iff.mpr ⟨partners, hpartners, rfl⟩, ?_⟩
    rw [Node.dropZeroSigns, Node.collapse, Node.dropZeroSigns]
    exact congrArg Node.list hmerge
  | @object members distinct clean ih =>
    obtain ⟨fields, hfields, rfl⟩ := classify_object_eq_ok_iff.mp h
    obtain ⟨partners, hpartners, heq⟩ : ∃ partners : List (String × Node),
        List.Forall₂ (fun member field => member.1 = field.1 ∧
          classify detection (path ++ "." ++ member.1) member.2 = .ok field.2) members partners ∧
        partners.map (fun field => (field.1, field.2.dropZeroSigns)) =
          fields.map fun field => (field.1, (field.2.collapse detection).dropZeroSigns) := by
      refine exists_partners hfields fun member hmember field hfield => ?_
      obtain ⟨partner, hpartner, heq⟩ := ih member hmember hfield.2
      exact ⟨(member.1, partner), ⟨rfl, hpartner⟩, by rw [hfield.1, heq]⟩
    refine ⟨_, classify_object_eq_ok_iff.mpr ⟨partners, hpartners, rfl⟩, ?_⟩
    simp only [Node.ofFields, Node.dropZeroSigns, Node.collapse, Node.collapseFields_eq_map,
      Node.dropZeroSignsOfFields_eq_map, List.map_map, Node.struct.injEq, and_true]
    rw [Node.map_sortFields, heq]
    exact (Node.map_sortFields (fun node => (node.collapse detection).dropZeroSigns) fields).symm
  | string text =>
    rw [classify] at h
    cases h
    refine ⟨classifyString detection text, by rw [classify], ?_⟩
    rw [classifyString_collapse]
  | integer value =>
    rw [classify] at h
    have hnode := classifyInteger_eq_ok h
    exact ⟨node, by rw [classify, h], by rw [hnode, Node.collapse]⟩
  | decimal =>
    rw [classify] at h
    refine ⟨node, by rw [classify, h], ?_⟩
    rcases classifyDecimal_eq_ok h with ⟨n, hn⟩ | ⟨x, -, rfl⟩
    · rw [classifyInteger_eq_ok hn, Node.collapse]
    · rw [Node.collapse]
  | unsupported =>
    rw [classify] at h
    cases h
  | null | boolean | double =>
    rw [classify] at h
    cases h
    exact ⟨_, by rw [classify], by rw [Node.collapse]⟩

/-! ### Lists of records -/

/-- With less detection the same records fail in the same way, and the schema of clean records is
the collapsed one.  In particular no string becomes binary because timestamps are not told
apart. -/
theorem infer_collapse (detection : Detection) (records : List Value) :
    (∀ failure, Node.infer detection records = .error failure ↔
      Node.infer {} records = .error failure) ∧
    ((∀ record ∈ records, record.Clean) → ∀ full, Node.infer {} records = .ok full →
      ∃ node, Node.infer detection records = .ok node ∧
        Node.Indistinguishable node (full.collapse detection)) ∧
    ∀ text, classifyString { detection with timestamps := false } text = .binary →
      classifyString { detection with timestamps := true } text = .binary := by
  refine ⟨fun failure => ?_, fun hclean full h => ?_, fun text => classifyString_eq_binary detection⟩
  · have hverdict : verdict (Node.infer detection records) = verdict (Node.infer {} records) :=
      verdict_foldlM_fold detection {} records _ _
    rw [← verdict_eq_error_iff, hverdict, verdict_eq_error_iff]
  · have hfull := Node.isSchema_of_infer hclean h
    obtain ⟨nodes, hnodes, rfl⟩ := infer_eq_ok_iff.mp h
    obtain ⟨partners, hpartners, heq⟩ := exists_partners hnodes fun record hrecord _ =>
      exists_classify_collapse detection (hclean record hrecord)
    have hschema : ∀ node ∈ nodes, node.IsSchema := by
      intro node hnode
      obtain ⟨record, hrecord, hok⟩ := exists_of_mem_right hnodes hnode
      exact Or.inr (recorded_of_classify (hclean record hrecord) hok).canonical
    have hinfer : Node.infer detection records = .ok (Node.mergeAll partners) :=
      infer_eq_ok_iff.mpr ⟨partners, hpartners, rfl⟩
    refine ⟨_, hinfer, Node.indistinguishable_of_dropZeroSigns_eq
      (Node.isSchema_of_infer hclean hinfer) hfull.collapse ?_⟩
    exact dropZeroSigns_foldl_merge_collapse (Or.inl rfl : Node.IsSchema .void) hschema heq

/-- Without timestamps the alternatives of `a` become one, and the elements of `b` lose one. -/
theorem infer_collapse_without_timestamps : ∃ full node,
    Node.infer {} [.object [("a", .string "2020-01-01 00:00:00"),
      ("b", .array [.string "ff", .integer 1, .string "2020/01/01T00:00:00Z"])],
      .object [("b", .null), ("a", .string "0a")]] = .ok full ∧
    Node.infer { timestamps := false } [.object [("a", .string "2020-01-01 00:00:00"),
      ("b", .array [.string "ff", .integer 1, .string "2020/01/01T00:00:00Z"])],
      .object [("b", .null), ("a", .string "0a")]] = .ok node ∧
    Node.Indistinguishable node (full.collapse { timestamps := false }) ∧
    classifyString { timestamps := true } "0a" = .binary := by
  obtain ⟨-, hnode, hbinary⟩ := infer_collapse { timestamps := false }
    [.object [("a", .string "2020-01-01 00:00:00"),
      ("b", .array [.string "ff", .integer 1, .string "2020/01/01T00:00:00Z"])],
      .object [("b", .null), ("a", .string "0a")]]
  obtain ⟨full, hfull⟩ : ∃ full, Node.infer {} [.object [("a", .string "2020-01-01 00:00:00"),
      ("b", .array [.string "ff", .integer 1, .string "2020/01/01T00:00:00Z"])],
      .object [("b", .null), ("a", .string "0a")]] = .ok full := ⟨_, rfl⟩
  obtain ⟨node, hok, hsame⟩ := hnode (by decide) full hfull
  exact ⟨full, node, hfull, hok, hsame, hbinary "0a" rfl⟩

end RecordSchema
