import RecordSchema.Classification
import RecordSchema.Proofs.Node.Semilattice

/-!
# Schemas seen with less detection

`collapse` turns a schema into the one that less detection would have given.  The kinds of strings
that are no longer told apart become plain strings, at every depth, and since two alternatives of a
union may become alike by this, the alternatives of each union are merged again.

Collapsing goes along with merging (`collapse_merge`): a collapsed schema is the join of its
collapsed alternatives, and the alternatives of a merge are merges of alternatives of one family.
-/

namespace RecordSchema

namespace Node

variable (detection : Detection)

/-! ### Definition -/

mutual

/-- The node with every kind of string that the detection does not tell apart as a plain string,
and with the alternatives of each union merged again. -/
def collapse : Node → Node
  | .binary => if detection.binary then .binary else .string
  | .timestamp => if detection.timestamps then .timestamp else .string
  | .struct fields shapes => .struct (collapseFields fields) shapes
  | .list element => .list element.collapse
  | .union children => mergeAll (collapseAll children)
  | .void => .void
  | .null => .null
  | .boolean => .boolean
  | .integer min max => .integer min max
  | .floating min max => .floating min max
  | .string => .string

/-- The same for the node of each field. -/
def collapseFields : List (String × Node) → List (String × Node)
  | [] => []
  | (name, node) :: fields => (name, node.collapse) :: collapseFields fields

/-- The same for each node of a list. -/
def collapseAll : List Node → List Node
  | [] => []
  | node :: nodes => node.collapse :: collapseAll nodes

end

@[simp] lemma collapseFields_eq_map (fields : List (String × Node)) :
    collapseFields detection fields =
      fields.map fun field => (field.1, field.2.collapse detection) := by
  induction fields with
  | nil => rfl
  | cons field fields ih => rw [collapseFields, ih, List.map_cons]

@[simp] lemma collapseAll_eq_map (nodes : List Node) :
    collapseAll detection nodes = nodes.map (collapse detection) := by
  induction nodes with
  | nil => rfl
  | cons node nodes ih => rw [collapseAll, ih, List.map_cons]

/-- Without the timestamps a column of hexadecimal strings and timestamps is one of strings. -/
example : (union [binary, timestamp]).collapse { timestamps := false } = string ∧
    (union [binary, timestamp]).collapse { binary := false } = union [string, timestamp] := by
  constructor <;> rfl

/-! ### Canonical form and signs of zeros -/

variable {detection}

lemma canonical_mergeAll {nodes : List Node} (hne : nodes ≠ [])
    (h : ∀ node ∈ nodes, node.Canonical) : (mergeAll nodes).Canonical := by
  cases nodes with
  | nil => exact absurd rfl hne
  | cons node nodes =>
    obtain ⟨hnode, hnodes⟩ := List.forall_mem_cons.mp h
    rw [mergeAll, List.foldl_cons, merge_void_left]
    exact List.foldlRecOn nodes merge hnode fun _ ha b hb => ha.merge (hnodes b hb)

/-- A schema stays canonical. -/
lemma Canonical.collapse {node : Node} (h : node.Canonical) :
    (node.collapse detection).Canonical := by
  induction h with
  | binary =>
    rw [Node.collapse]
    split
    · exact .binary
    · exact .string
  | timestamp =>
    rw [Node.collapse]
    split
    · exact .timestamp
    · exact .string
  | struct increasing seen _ ih =>
    rw [Node.collapse, collapseFields_eq_map]
    refine .struct (List.pairwise_map.mpr increasing) seen fun field hfield => ?_
    obtain ⟨old, hold, rfl⟩ := List.mem_map.mp hfield
    exact ih old hold
  | list _ ih =>
    rw [Node.collapse]
    exact .list ih
  | @union children two _ _ ih =>
    rw [Node.collapse, collapseAll_eq_map]
    have hne : children.map (Node.collapse detection) ≠ [] := by
      rw [Ne, List.map_eq_nil_iff]
      rintro rfl
      simp at two
    refine canonical_mergeAll hne fun child hchild => ?_
    obtain ⟨old, hold, rfl⟩ := List.mem_map.mp hchild
    exact ih old hold
  | integer lower ordered upper =>
    rw [Node.collapse]
    exact .integer lower ordered upper
  | floating ordered =>
    rw [Node.collapse]
    exact .floating ordered
  | null | boolean | string =>
    rw [Node.collapse]
    constructor

lemma IsSchema.collapse {node : Node} (h : node.IsSchema) :
    (node.collapse detection).IsSchema := by
  rcases h with rfl | h
  · exact Or.inl rfl
  · exact Or.inr h.collapse

/-- The signs of zeros may be dropped before or after. -/
lemma dropZeroSigns_collapse (node : Node) :
    (node.collapse detection).dropZeroSigns = node.dropZeroSigns.collapse detection := by
  induction node using induction with
  | struct fields shapes ih =>
    simp only [collapse, dropZeroSigns, collapseFields_eq_map, dropZeroSignsOfFields_eq_map,
      List.map_map, struct.injEq, and_true]
    refine List.map_congr_left fun field hfield => ?_
    simp only [Function.comp_apply, ih field hfield]
  | list element ih => simp only [collapse, dropZeroSigns, ih]
  | union children ih =>
    have hchildren : (children.map (collapse detection)).map dropZeroSigns =
        (children.map dropZeroSigns).map (collapse detection) := by
      simp only [List.map_map]
      exact List.map_congr_left ih
    simp only [collapse, dropZeroSigns, collapseAll_eq_map, dropZeroSignsOfAll_eq_map]
    rw [mergeAll, dropZeroSigns_foldl_merge, hchildren]
    rfl
  | binary =>
    simp only [collapse, dropZeroSigns]
    split <;> rfl
  | timestamp =>
    simp only [collapse, dropZeroSigns]
    split <;> rfl
  | _ => simp only [collapse, dropZeroSigns]

lemma Plain.collapse {node : Node} (h : Plain node) : Plain (node.collapse detection) :=
  ⟨h.isSchema.collapse, by rw [dropZeroSigns_collapse, h.unsigned]⟩

lemma Plain.collapse_ne_void {node : Node} (h : Plain node) (hvoid : node ≠ .void) :
    node.collapse detection ≠ .void :=
  (h.canonical hvoid).collapse.ne_void

/-! ### A collapsed schema is a join -/

namespace PlainNode

/-- The schema of nulls only. -/
def ofNulls : PlainNode := ⟨.null, Or.inr .null, rfl⟩

/-- Collapsing a schema without signed zeros. -/
def collapse (detection : Detection) (a : PlainNode) : PlainNode :=
  ⟨a.1.collapse detection, a.2.collapse⟩

lemma ofNulls_le {a : PlainNode} (h : a.1 ≠ .void) : ofNulls ≤ a :=
  sup_eq_right.mp (Subtype.ext (merge_null_left h))

/-- The join of collapsed schemas, as a merge of nodes. -/
lemma coe_foldl_sup_collapse (detection : Detection) (nodes : List PlainNode) :
    ((nodes.map (collapse detection)).foldl (· ⊔ ·) ⊥ : PlainNode).1 =
      mergeAll ((nodes.map Subtype.val).map (Node.collapse detection)) := by
  rw [coe_foldl_sup, List.map_map, List.map_map]
  rfl

/-- A collapsed schema is the least one above the schema of nulls and its collapsed
alternatives. -/
lemma isLUB_collapse (detection : Detection) {a : PlainNode} (h : a.1 ≠ .void) :
    IsLUB {y | y = ofNulls ∨ ∃ x : PlainNode, x.1 ∈ a.1.alternatives ∧ y = x.collapse detection}
      (a.collapse detection) := by
  have hnulls : ofNulls ≤ a.collapse detection := ofNulls_le (a.2.collapse_ne_void h)
  by_cases hunion : a.1.kind = .union
  · obtain ⟨children, hchildren⟩ := eq_union_of_kind hunion
    have halternatives : a.1.alternatives = children := by rw [hchildren]; rfl
    have hplain : ∀ child ∈ children, Plain child := fun child hchild =>
      a.2.of_mem_alternatives (halternatives ▸ hchild)
    lift children to List PlainNode using hplain
    have hjoin : a.collapse detection =
        (children.map (collapse detection)).foldl (· ⊔ ·) ⊥ := by
      refine Subtype.ext ?_
      rw [coe_foldl_sup_collapse]
      show a.1.collapse detection = _
      rw [hchildren, Node.collapse, collapseAll_eq_map]
    obtain ⟨hupper, hleast⟩ := isLUB_foldl_sup ⊥ (children.map (collapse detection))
    rw [← hjoin] at hupper hleast
    rw [halternatives]
    constructor
    · rintro y (rfl | ⟨x, hx, rfl⟩)
      · exact hnulls
      · rw [List.mem_map_of_injective Subtype.val_injective] at hx
        exact hupper (Or.inr (List.mem_map_of_mem hx))
    · intro z hz
      refine hleast ?_
      rintro y (rfl | hy)
      · exact bot_le
      · obtain ⟨x, hx, rfl⟩ := List.mem_map.mp hy
        exact hz (Or.inr ⟨x, List.mem_map_of_mem hx, rfl⟩)
  · -- there is one alternative, the schema itself, or none if there are only nulls
    rcases eq_void_or_eq_null_or_isPresent a.1 with hvoid | hnull | hpresent
    · exact absurd hvoid h
    · have hself : a = ofNulls := Subtype.ext hnull
      subst hself
      constructor
      · rintro y (rfl | ⟨x, hx, rfl⟩)
        · exact hnulls
        · cases hx
      · intro z hz
        exact hz (Or.inl rfl)
    · rw [alternatives_of_isAlternative ⟨hpresent, hunion⟩]
      constructor
      · rintro y (rfl | ⟨x, hx, rfl⟩)
        · exact hnulls
        · rw [Subtype.ext (List.mem_singleton.mp hx)]
      · intro z hz
        exact hz (Or.inr ⟨a, List.mem_singleton_self _, rfl⟩)

/-- The alternative of a family. -/
def pick (family : Kind) (a : PlainNode) : PlainNode :=
  ⟨Node.pick family a.1.alternatives, a.2.pick family⟩

lemma pick_sup (family : Kind) (a b : PlainNode) :
    pick family (a ⊔ b) = pick family a ⊔ pick family b :=
  Subtype.ext (a.2.pick_merge b.2 family)

lemma eq_pick_of_mem {a x : PlainNode} (hx : x.1 ∈ a.1.alternatives) :
    x = pick x.1.kind.family a :=
  Subtype.ext (pick_of_mem a.2.isSchema.nodup_families hx).symm

lemma collapse_pick_le (detection : Detection) {a : PlainNode} (h : a.1 ≠ .void) (family : Kind) :
    (pick family a).collapse detection ≤ a.collapse detection := by
  rcases pick_eq_void_or_mem family a.1.alternatives with hvoid | ⟨hmem, -⟩
  · have hpick : pick family a = ⊥ := Subtype.ext hvoid
    rw [hpick]
    exact bot_le
  · exact (isLUB_collapse detection h).1 (Or.inr ⟨pick family a, hmem, rfl⟩)

/-- Collapsing goes along with a join if it does for the alternatives of each family. -/
lemma collapse_sup_of_pick (detection : Detection) {a b : PlainNode} (ha : a.1 ≠ .void)
    (hb : b.1 ≠ .void) (h : ∀ family, (pick family a ⊔ pick family b).collapse detection =
      (pick family a).collapse detection ⊔ (pick family b).collapse detection) :
    (a ⊔ b).collapse detection = a.collapse detection ⊔ b.collapse detection := by
  have hne : (a ⊔ b).1 ≠ .void := ((a.2.canonical ha).merge (b.2.canonical hb)).ne_void
  apply le_antisymm
  · refine (isLUB_collapse detection hne).2 ?_
    rintro y (rfl | ⟨x, hx, rfl⟩)
    · exact (ofNulls_le (a.2.collapse_ne_void ha)).trans le_sup_left
    · rw [eq_pick_of_mem hx, pick_sup, h]
      exact sup_le_sup (collapse_pick_le detection ha _) (collapse_pick_le detection hb _)
  · -- an alternative of one side is below the alternative of its family in the join
    have hle : ∀ family, (pick family a).collapse detection ⊔ (pick family b).collapse detection ≤
        (a ⊔ b).collapse detection := by
      intro family
      rw [← h, ← pick_sup]
      exact collapse_pick_le detection hne family
    refine sup_le ((isLUB_collapse detection ha).2 ?_) ((isLUB_collapse detection hb).2 ?_)
    · rintro y (rfl | ⟨x, hx, rfl⟩)
      · exact ofNulls_le ((a ⊔ b).2.collapse_ne_void hne)
      · rw [eq_pick_of_mem hx]
        exact le_sup_left.trans (hle _)
    · rintro y (rfl | ⟨x, hx, rfl⟩)
      · exact ofNulls_le ((a ⊔ b).2.collapse_ne_void hne)
      · rw [eq_pick_of_mem hx]
        exact le_sup_right.trans (hle _)

end PlainNode

/-! ### Collapsing a merge -/

lemma fieldNode_collapseFields (name : String) (fields : List (String × Node)) :
    fieldNode name (collapseFields detection fields) =
      (fieldNode name fields).collapse detection := by
  induction fields with
  | nil => rfl
  | cons field fields ih =>
    rw [collapseFields, fieldNode_cons, fieldNode_cons, ih]
    split <;> rfl

lemma merge_string_binary : string.merge binary = string := by
  rw [merge_eq_mergeLevel]
  rfl

lemma merge_binary_string : binary.merge string = string := by
  rw [merge_eq_mergeLevel]
  rfl

/-- Within a family: strings become strings, and the parts of structs and lists are collapsed. -/
lemma collapse_merge_of_alike {a b : Node} (hab : Alike a b) (hunion : a.kind ≠ .union)
    (ha : Plain a) (hb : Plain b) (ih : ∀ x y, x.size + y.size < a.size + b.size → Plain x →
      Plain y → (x.merge y).collapse detection =
        (x.collapse detection).merge (y.collapse detection)) :
    (a.merge b).collapse detection = (a.collapse detection).merge (b.collapse detection) := by
  cases hab with
  | structs fields others shapes otherShapes =>
    have hfields := ha.canonical (by simp)
    have hothers := hb.canonical (by simp)
    have hcollapsed : ((struct fields shapes).collapse detection).Canonical := hfields.collapse
    have hcollapsed' : ((struct others otherShapes).collapse detection).Canonical :=
      hothers.collapse
    have hleft : (((struct fields shapes).merge (struct others otherShapes)).collapse
      detection).Canonical := (hfields.merge hothers).collapse
    have hright := hcollapsed.merge hcollapsed'
    simp only [merge_structs, collapse] at hcollapsed hcollapsed' hleft hright ⊢
    -- on both sides the two nodes of a name are merged and collapsed; one may be absent
    refine struct_eq_of_fieldNode_eq hleft hright rfl fun name => ?_
    rw [fieldNode_collapseFields,
      fieldNode_sortFields_mergeFields name hfields.nodup_names hothers.nodup_names,
      fieldNode_sortFields_mergeFields name hcollapsed.nodup_names hcollapsed'.nodup_names,
      fieldNode_collapseFields, fieldNode_collapseFields]
    by_cases hvoid : fieldNode name fields = .void
    · rw [hvoid, merge_void_left, collapse, merge_void_left]
    by_cases hvoid' : fieldNode name others = .void
    · rw [hvoid', merge_void_right, collapse, merge_void_right]
    · have := size_fieldNode_lt hvoid shapes
      have := size_fieldNode_lt hvoid' otherShapes
      exact ih _ _ (by omega) (ha.fieldNode name) (hb.fieldNode name)
  | lists element other =>
    have hlt : element.size + other.size < (list element).size + (list other).size := by
      simp only [size]
      omega
    rw [merge_lists, collapse, ih element other hlt ha.element hb.element, collapse, collapse,
      merge_lists]
  | unions => exact absurd rfl hunion
  | integers => rw [merge_integers, collapse, collapse, collapse, merge_integers]
  | floatings => rw [merge_floatings, collapse, collapse, collapse, merge_floatings]
  | integerFloating =>
    rw [merge_integer_floating, collapse, collapse, collapse, merge_integer_floating]
  | floatingInteger =>
    rw [merge_floating_integer, collapse, collapse, collapse, merge_floating_integer]
  | stringBinary =>
    rw [merge_string_binary, collapse, collapse]
    split
    · rw [merge_string_binary]
    · rw [ha.merge_self]
  | binaryString =>
    rw [merge_binary_string, collapse, collapse]
    split
    · rw [merge_binary_string]
    · rw [hb.merge_self]
  | void | null | boolean | strings | binaries | timestamp =>
    rw [ha.merge_self, ha.collapse.merge_self]

/-- A merge is collapsed by collapsing what is merged. -/
theorem collapse_merge {a b : Node} (ha : Plain a) (hb : Plain b) :
    (a.merge b).collapse detection = (a.collapse detection).merge (b.collapse detection) := by
  -- alternatives are no larger than the nodes they are taken from, and their parts are smaller
  induction hsize : a.size + b.size using Nat.strong_induction_on generalizing a b with
  | _ bound ih =>
    by_cases hvoid : a = .void
    · rw [hvoid, merge_void_left, collapse, merge_void_left]
    by_cases hvoid' : b = .void
    · rw [hvoid', merge_void_right, collapse, merge_void_right]
    suffices hjoin : PlainNode.collapse detection (⟨a, ha⟩ ⊔ ⟨b, hb⟩) =
        PlainNode.collapse detection ⟨a, ha⟩ ⊔ PlainNode.collapse detection ⟨b, hb⟩ from
      congrArg Subtype.val hjoin
    refine PlainNode.collapse_sup_of_pick detection hvoid hvoid' fun family => Subtype.ext ?_
    show ((Node.pick family a.alternatives).merge (Node.pick family b.alternatives)).collapse
        detection = ((Node.pick family a.alternatives).collapse detection).merge
          ((Node.pick family b.alternatives).collapse detection)
    rcases pick_eq_void_or_mem family a.alternatives with h | ⟨hmem, hfamily⟩
    · rw [h, merge_void_left, collapse, merge_void_left]
    rcases pick_eq_void_or_mem family b.alternatives with h | ⟨hmem', hfamily'⟩
    · rw [h, merge_void_right, collapse, merge_void_right]
    have hle := size_le_of_mem_alternatives hmem
    have hle' := size_le_of_mem_alternatives hmem'
    refine collapse_merge_of_alike (alike_of_family_eq (hfamily.trans hfamily'.symm))
      ((ha.canonical hvoid).alternatives.alternative _ hmem).2 (ha.pick family) (hb.pick family)
      fun x y hlt hx hy => ih (x.size + y.size) (by omega) hx hy rfl

/-- What is merged may be collapsed before, one by one. -/
lemma collapse_foldl_merge {start : Node} (hstart : Plain start) {nodes : List Node}
    (hnodes : ∀ node ∈ nodes, Plain node) :
    (nodes.foldl merge start).collapse detection =
      (nodes.map (collapse detection)).foldl merge (start.collapse detection) := by
  induction nodes generalizing start with
  | nil => rfl
  | cons node nodes ih =>
    obtain ⟨hnode, hnodes⟩ := List.forall_mem_cons.mp hnodes
    rw [List.foldl_cons, ih (hstart.merge hnode) hnodes, collapse_merge hstart hnode,
      List.map_cons, List.foldl_cons]

end Node

end RecordSchema
