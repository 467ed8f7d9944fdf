import RecordSchema.Proofs.Node.Indistinguishable
import RecordSchema.Proofs.Node.Semilattice

/-!
# Merging in parts

Schemas may be merged part by part: the merge of the merges of the parts cannot be told apart from
the merge of everything (`mergeAll_map_mergeAll_indistinguishable`), wherever one part ends and the
next one begins.

The elements of a list are merged from a null on, so that a list without elements has an element
type as well.  Lists are merged by merging their elements, and these nulls do not show up in the
result unless nothing else is there (`mergeAll_lists_indistinguishable`).
-/

namespace RecordSchema

namespace Node

/-! ### Parts -/

/-- What is merged into a node may be merged before. -/
lemma merge_mergeAll {start : Node} (hstart : Plain start) {nodes : List Node}
    (hnodes : ∀ node ∈ nodes, Plain node) :
    start.merge (mergeAll nodes) = nodes.foldl merge start := by
  unfold mergeAll
  induction nodes generalizing start with
  | nil => exact merge_void_right start
  | cons node nodes ih =>
    obtain ⟨hnode, hnodes⟩ := List.forall_mem_cons.mp hnodes
    have hrest : Plain (nodes.foldl merge .void) :=
      List.foldlRecOn nodes merge Plain.void fun _ ha b hb => ha.merge (hnodes b hb)
    calc start.merge ((node :: nodes).foldl merge .void)
      _ = start.merge (nodes.foldl merge node) := by rw [List.foldl_cons, merge_void_left]
      _ = start.merge (node.merge (nodes.foldl merge .void)) := by rw [ih hnode hnodes]
      _ = (start.merge node).merge (nodes.foldl merge .void) :=
        (hstart.merge_assoc hnode hrest).symm
      _ = (node :: nodes).foldl merge start := by
        rw [ih (hstart.merge hnode) hnodes, List.foldl_cons]

lemma foldl_map_mergeAll {start : Node} (hstart : Plain start) {parts : List (List Node)}
    (hparts : ∀ nodes ∈ parts, ∀ node ∈ nodes, Plain node) :
    (parts.map mergeAll).foldl merge start = parts.flatten.foldl merge start := by
  induction parts generalizing start with
  | nil => rfl
  | cons nodes parts ih =>
    obtain ⟨hnodes, hparts⟩ := List.forall_mem_cons.mp hparts
    have hnext : Plain (nodes.foldl merge start) :=
      List.foldlRecOn nodes merge hstart fun _ ha b hb => ha.merge (hnodes b hb)
    rw [List.map_cons, List.foldl_cons, merge_mergeAll hstart hnodes, ih hnext hparts,
      List.flatten_cons, List.foldl_append]

lemma isSchema_mergeAll {nodes : List Node} (h : ∀ node ∈ nodes, node.IsSchema) :
    (mergeAll nodes).IsSchema :=
  isSchema_foldl_merge (Or.inl rfl) h

/-- Schemas may be merged part by part: the merge of the merges cannot be told apart from the merge
of everything. -/
theorem mergeAll_map_mergeAll_indistinguishable {parts : List (List Node)}
    (h : ∀ nodes ∈ parts, ∀ node ∈ nodes, node.IsSchema) :
    Indistinguishable (mergeAll (parts.map mergeAll)) (mergeAll parts.flatten) := by
  have hparts : ∀ node ∈ parts.map mergeAll, node.IsSchema := by
    intro node hnode
    obtain ⟨nodes, hnodes, rfl⟩ := List.mem_map.mp hnode
    exact isSchema_mergeAll (h nodes hnodes)
  have hflatten : ∀ node ∈ parts.flatten, node.IsSchema := by
    intro node hnode
    obtain ⟨nodes, hnodes, hmem⟩ := List.mem_flatten.mp hnode
    exact h nodes hnodes node hmem
  refine indistinguishable_of_dropZeroSigns_eq (isSchema_mergeAll hparts)
    (isSchema_mergeAll hflatten) ?_
  have hplain : ∀ nodes ∈ parts.map (List.map dropZeroSigns), ∀ node ∈ nodes, Plain node := by
    intro nodes hnodes node hnode
    obtain ⟨signed, hsigned, rfl⟩ := List.mem_map.mp hnodes
    obtain ⟨old, hold, rfl⟩ := List.mem_map.mp hnode
    exact Plain.of_isSchema (h signed hsigned old hold)
  have hmerges : (parts.map mergeAll).map dropZeroSigns =
      (parts.map (List.map dropZeroSigns)).map mergeAll := by
    rw [List.map_map, List.map_map]
    refine List.map_congr_left fun nodes _ => ?_
    exact dropZeroSigns_foldl_merge .void nodes
  calc (mergeAll (parts.map mergeAll)).dropZeroSigns
    _ = ((parts.map mergeAll).map dropZeroSigns).foldl merge .void :=
      dropZeroSigns_foldl_merge .void (parts.map mergeAll)
    _ = (parts.map (List.map dropZeroSigns)).flatten.foldl merge .void := by
      rw [hmerges, foldl_map_mergeAll Plain.void hplain]
    _ = (mergeAll parts.flatten).dropZeroSigns := by
      rw [← List.map_flatten]
      exact (dropZeroSigns_foldl_merge .void parts.flatten).symm

/-! ### Lists -/

lemma foldl_merge_map_list (start : Node) (elements : List Node) :
    (elements.map list).foldl merge (list start) = list (elements.foldl merge start) := by
  induction elements generalizing start with
  | nil => rfl
  | cons element elements ih => rw [List.map_cons, List.foldl_cons, merge_lists, ih, List.foldl_cons]

/-- Lists are merged by merging their elements. -/
lemma mergeAll_map_list {elements : List Node} (h : elements ≠ []) :
    mergeAll (elements.map list) = list (mergeAll elements) := by
  obtain ⟨element, elements, rfl⟩ := List.exists_cons_of_ne_nil h
  rw [mergeAll, mergeAll, List.map_cons, List.foldl_cons, List.foldl_cons, merge_void_left,
    merge_void_left, foldl_merge_map_list]

/-- A null at the beginning shows only if nothing comes after it. -/
lemma foldl_merge_null {nodes : List Node} (h : ∀ node ∈ nodes, node ≠ .void) :
    nodes.foldl merge .null = if nodes.isEmpty then .null else mergeAll nodes := by
  cases nodes with
  | nil => rfl
  | cons node nodes =>
    rw [if_neg (by simp), mergeAll, List.foldl_cons, List.foldl_cons,
      merge_null_left (h node List.mem_cons_self), merge_void_left]

/-- A null at the beginning of every part is as good as one at the beginning of all of them. -/
lemma dropZeroSigns_mergeAll_nulls {parts : List (List Node)} (hparts : parts ≠ [])
    (h : ∀ nodes ∈ parts, ∀ node ∈ nodes, node.IsSchema) :
    (mergeAll (parts.map (null :: ·)).flatten).dropZeroSigns =
      (parts.flatten.foldl merge .null).dropZeroSigns := by
  have hmem : ∀ node, node ∈ (parts.map (null :: ·)).flatten ↔ node ∈ null :: parts.flatten := by
    intro node
    obtain ⟨nodes, parts, rfl⟩ := List.exists_cons_of_ne_nil hparts
    simp only [List.mem_flatten, List.mem_map, List.mem_cons]
    constructor
    · rintro ⟨_, ⟨nodes, hnodes, rfl⟩, hnode⟩
      exact (List.mem_cons.mp hnode).imp_right fun hnode => ⟨nodes, hnodes, hnode⟩
    · rintro (rfl | ⟨nodes, hnodes, hnode⟩)
      · exact ⟨_, ⟨nodes, Or.inl rfl, rfl⟩, List.mem_cons_self⟩
      · exact ⟨_, ⟨nodes, hnodes, rfl⟩, List.mem_cons_of_mem _ hnode⟩
  have hschemas : ∀ node ∈ (parts.map (null :: ·)).flatten, node.IsSchema := by
    intro node hnode
    rcases List.mem_cons.mp ((hmem node).mp hnode) with rfl | hnode
    · exact Or.inr .null
    · obtain ⟨nodes, hnodes, hnode⟩ := List.mem_flatten.mp hnode
      exact h nodes hnodes node hnode
  have hfrom : parts.flatten.foldl merge .null = mergeAll (null :: parts.flatten) := by
    rw [mergeAll, List.foldl_cons, merge_void_left]
  rw [hfrom]
  exact dropZeroSigns_foldl_merge_eq (Or.inl rfl) hschemas
    (fun node hnode => ⟨node, (hmem node).mp hnode, rfl⟩)
    (fun node hnode => ⟨node, (hmem node).mpr hnode, rfl⟩)

/-- The merge of lists is the list of everything in them, or of null if they are all empty. -/
theorem mergeAll_lists_indistinguishable {parts : List (List Node)} (hparts : parts ≠ [])
    (h : ∀ nodes ∈ parts, ∀ node ∈ nodes, node.Canonical) :
    Indistinguishable (mergeAll (parts.map fun nodes => list (nodes.foldl merge .null)))
      (list (if parts.flatten.isEmpty then .null else mergeAll parts.flatten)) := by
  have hnulls : ∀ nodes ∈ parts.map (null :: ·), ∀ node ∈ nodes, node.IsSchema := by
    intro nodes hnodes node hnode
    obtain ⟨nodes, hmem, rfl⟩ := List.mem_map.mp hnodes
    rcases List.mem_cons.mp hnode with rfl | hnode
    · exact Or.inr .null
    · exact Or.inr (h nodes hmem node hnode)
  have hflatten : ∀ node ∈ parts.flatten, node.Canonical := by
    intro node hnode
    obtain ⟨nodes, hnodes, hmem⟩ := List.mem_flatten.mp hnode
    exact h nodes hnodes node hmem
  have helements : mergeAll (parts.map fun nodes => list (nodes.foldl merge .null)) =
      list (mergeAll ((parts.map (null :: ·)).map mergeAll)) := by
    have hmap : parts.map (fun nodes => list (nodes.foldl merge .null)) =
        ((parts.map (null :: ·)).map mergeAll).map list := by
      rw [List.map_map, List.map_map]
      refine List.map_congr_left fun nodes _ => ?_
      show _ = list (mergeAll (null :: nodes))
      rw [mergeAll, List.foldl_cons, merge_void_left]
    rw [hmap, mergeAll_map_list (by simpa using hparts)]
  have hfold : ∀ nodes : List Node, (∀ node ∈ nodes, node.Canonical) →
      (list (nodes.foldl merge .null)).IsSchema := by
    intro nodes hnodes
    have hcanonical : (nodes.foldl merge .null).Canonical :=
      List.foldlRecOn nodes merge CanonicalWith.null fun _ ha node hnode =>
        Canonical.merge ha (hnodes node hnode)
    exact Or.inr (.list hcanonical)
  rw [← foldl_merge_null fun node hnode => (hflatten node hnode).ne_void]
  refine indistinguishable_of_dropZeroSigns_eq (isSchema_mergeAll ?_) (hfold _ hflatten) ?_
  · intro node hnode
    obtain ⟨nodes, hnodes, rfl⟩ := List.mem_map.mp hnode
    exact hfold nodes (h nodes hnodes)
  · rw [helements, dropZeroSigns, (mergeAll_map_mergeAll_indistinguishable hnulls).same,
      dropZeroSigns_mergeAll_nulls hparts fun nodes hnodes node hnode =>
        Or.inr (h nodes hnodes node hnode), dropZeroSigns]

end Node

end RecordSchema
