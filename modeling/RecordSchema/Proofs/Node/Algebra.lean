import RecordSchema.Proofs.Node.Plain

/-!
# The algebra of merging

On schemas without signed zeros merging is commutative, associative and idempotent, as equality of
nodes.  Each law is shown by induction on the joint size.  It is enough to have it for every
family of alternatives; there it is a law of integer bounds, or it holds of the nodes of the fields
or of the element, which are smaller.
-/

namespace RecordSchema

namespace Node

/-! ### Smaller parts -/

lemma size_le_of_mem_alternatives {node child : Node} (h : child ∈ node.alternatives) :
    child.size ≤ node.size := by
  cases node with
  | void | null => cases h
  | union children =>
    have hle : child.size ≤ sizeOfAll children := size_le_of_mem h
    simp only [size]
    omega
  | _ => rw [List.mem_singleton.mp h]

lemma size_fieldNode_lt {name : String} {fields : List (String × Node)}
    (h : fieldNode name fields ≠ .void) (shapes : ShapeSet) :
    (fieldNode name fields).size < (struct fields shapes).size := by
  have hmem := (fieldNode_eq_void_or_mem name fields).resolve_left h
  have := size_lt_of_mem_fields hmem
  simpa only [size] using this

/-! ### Structs by their fields -/

lemma CanonicalWith.nodup_names {Seen : ShapeSet → Prop} {fields : List (String × Node)}
    {shapes : ShapeSet} (h : CanonicalWith Seen (.struct fields shapes)) :
    (names fields).Nodup := by
  cases h with
  | struct increasing _ _ => exact nodup_names_of_pairwise increasing

lemma mem_names_iff_fieldNode_ne_void {fields : List (String × Node)} {shapes : ShapeSet}
    (h : Canonical (.struct fields shapes)) (name : String) :
    name ∈ names fields ↔ fieldNode name fields ≠ .void := by
  constructor
  · intro hname
    obtain ⟨field, hfield, rfl⟩ := List.mem_map.mp hname
    rw [fieldNode_of_mem h.nodup_names hfield]
    cases h with
    | struct _ _ canonical => exact (canonical field hfield).ne_void
  · intro hname
    have hmem := (fieldNode_eq_void_or_mem name fields).resolve_left hname
    exact List.mem_map_of_mem hmem

lemma isSchema_fieldNode {fields : List (String × Node)} {shapes : ShapeSet}
    (h : Canonical (.struct fields shapes)) (name : String) : (fieldNode name fields).IsSchema := by
  rcases fieldNode_eq_void_or_mem name fields with hvoid | hmem
  · exact Or.inl hvoid
  · cases h with
    | struct _ _ canonical => exact Or.inr (canonical _ hmem)

/-- Canonical structs with the same shapes and the same node for every name are equal. -/
lemma struct_eq_of_fieldNode_eq {fields others : List (String × Node)}
    {shapes otherShapes : ShapeSet}
    (h : Canonical (.struct fields shapes)) (h' : Canonical (.struct others otherShapes))
    (hshapes : shapes = otherShapes)
    (heq : ∀ name, fieldNode name fields = fieldNode name others) :
    struct fields shapes = struct others otherShapes := by
  cases h with
  | struct increasing _ canonical =>
    cases h' with
    | struct increasing' _ canonical' =>
      rw [hshapes, eq_of_fieldNode_eq increasing increasing'
        (fun field hfield => (canonical field hfield).ne_void)
        (fun field hfield => (canonical' field hfield).ne_void) heq]

lemma fieldNode_sortFields_mergeFields (name : String) {left right : List (String × Node)}
    (hleft : (names left).Nodup) (hright : (names right).Nodup) :
    fieldNode name (sortFields (mergeFields merge left right)) =
      (fieldNode name left).merge (fieldNode name right) := by
  rw [fieldNode_sortFields (nodup_names_mergeFields hleft right), fieldNode_mergeFields name hright]

/-- A merge is absent only if both sides are. -/
lemma IsSchema.merge_ne_void_iff {a b : Node} (ha : a.IsSchema) (hb : b.IsSchema) :
    a.merge b ≠ .void ↔ a ≠ .void ∨ b ≠ .void := by
  by_cases hvoid : a = .void
  · rw [hvoid, merge_void_left]
    simp
  by_cases hvoid' : b = .void
  · rw [hvoid', merge_void_right]
    simp
  · have hmerge := (ha.resolve_left hvoid).merge (hb.resolve_left hvoid')
    exact ⟨fun _ => Or.inl hvoid, fun _ => hmerge.ne_void⟩

/-- A merged struct has the fields of both sides. -/
lemma mem_names_merge {fields others : List (String × Node)} {shapes otherShapes : ShapeSet}
    (h : Canonical (.struct fields shapes)) (h' : Canonical (.struct others otherShapes))
    (name : String) : name ∈ names (sortFields (mergeFields merge fields others)) ↔
      name ∈ names fields ∨ name ∈ names others := by
  have hmerge := h.merge h'
  rw [merge_structs] at hmerge
  rw [mem_names_iff_fieldNode_ne_void hmerge, mem_names_iff_fieldNode_ne_void h,
    mem_names_iff_fieldNode_ne_void h',
    fieldNode_sortFields_mergeFields name h.nodup_names h'.nodup_names]
  exact (isSchema_fieldNode h name).merge_ne_void_iff (isSchema_fieldNode h' name)

/-! ### Commutativity -/

lemma merge_comm_of_alike {a b : Node} (hab : Alike a b) (hunion : a.kind ≠ .union) (ha : Plain a)
    (hb : Plain b) (ih : ∀ x y, x.size + y.size < a.size + b.size → Plain x → Plain y →
      x.merge y = y.merge x) : a.merge b = b.merge a := by
  cases hab with
  | integers => rw [merge_integers, merge_integers, min_comm, max_comm]
  | floatings =>
    obtain ⟨x, y, rfl, rfl⟩ := ha.floating
    obtain ⟨z, w, rfl, rfl⟩ := hb.floating
    simp only [merge_floatings, Double.min_ofPlace, Double.max_ofPlace, min_comm, max_comm]
  | integerFloating | floatingInteger => rw [merge_integer_floating, merge_floating_integer]
  | stringBinary | binaryString =>
    rw [merge_eq_mergeLevel, merge_eq_mergeLevel]
    rfl
  | structs fields others shapes otherShapes =>
    have hmerge := (ha.canonical (by simp)).merge (hb.canonical (by simp))
    have hmerge' := (hb.canonical (by simp)).merge (ha.canonical (by simp))
    rw [merge_structs] at hmerge hmerge' ⊢
    rw [merge_structs]
    have hnames := (ha.canonical (by simp)).nodup_names
    have hnames' := (hb.canonical (by simp)).nodup_names
    -- a name that one side lacks leaves the node of the other side as it is
    refine struct_eq_of_fieldNode_eq hmerge hmerge' (ShapeSet.union_comm _ _) fun name => ?_
    rw [fieldNode_sortFields_mergeFields name hnames hnames',
      fieldNode_sortFields_mergeFields name hnames' hnames]
    by_cases hvoid : fieldNode name fields = .void
    · rw [hvoid, merge_void_left, merge_void_right]
    by_cases hvoid' : fieldNode name others = .void
    · rw [hvoid', merge_void_left, merge_void_right]
    · have := size_fieldNode_lt hvoid shapes
      have := size_fieldNode_lt hvoid' otherShapes
      exact ih _ _ (by omega) (ha.fieldNode name) (hb.fieldNode name)
  | lists element other =>
    have hlt : element.size + other.size < (list element).size + (list other).size := by
      simp only [size]
      omega
    rw [merge_lists, merge_lists, ih element other hlt ha.element hb.element]
  | unions => exact absurd rfl hunion
  | _ => rfl

/-- Merging schemas without signed zeros is commutative. -/
theorem Plain.merge_comm {a b : Node} (ha : Plain a) (hb : Plain b) : a.merge b = b.merge a := by
  -- alternatives are no larger than the nodes they are taken from, and their parts are smaller
  induction hsize : a.size + b.size using Nat.strong_induction_on generalizing a b with
  | _ bound ih =>
    by_cases hvoid : a = .void
    · rw [hvoid, merge_void_left, merge_void_right]
    by_cases hvoid' : b = .void
    · rw [hvoid', merge_void_left, merge_void_right]
    have hcanonical := (ha.canonical hvoid).merge (hb.canonical hvoid')
    have hcanonical' := (hb.canonical hvoid').merge (ha.canonical hvoid)
    refine eq_of_pick_eq hcanonical hcanonical' fun family => ?_
    -- both sides merge the same two alternatives, in one order or the other
    suffices hcomm : (Node.pick family a.alternatives).merge (Node.pick family b.alternatives) =
        (Node.pick family b.alternatives).merge (Node.pick family a.alternatives) by
      rcases pick_merge ha.isSchema hb.isSchema family with h | h <;>
        rcases pick_merge hb.isSchema ha.isSchema family with h' | h' <;> rw [h, h'] <;>
        simp only [hcomm]
    rcases pick_eq_void_or_mem family a.alternatives with h | ⟨hmem, hfamily⟩
    · rw [h, merge_void_left, merge_void_right]
    rcases pick_eq_void_or_mem family b.alternatives with h | ⟨hmem', hfamily'⟩
    · rw [h, merge_void_left, merge_void_right]
    have hle := size_le_of_mem_alternatives hmem
    have hle' := size_le_of_mem_alternatives hmem'
    refine merge_comm_of_alike (alike_of_family_eq (hfamily.trans hfamily'.symm))
      ((ha.canonical hvoid).alternatives.alternative _ hmem).2 (ha.pick family) (hb.pick family)
      fun x y hlt hx hy => ih (x.size + y.size) (by omega) hx hy rfl

/-- The alternatives of a merge are the merged alternatives, in the order of the two sides. -/
lemma Plain.pick_merge {a b : Node} (ha : Plain a) (hb : Plain b) (family : Kind) :
    Node.pick family (a.merge b).alternatives =
      (Node.pick family a.alternatives).merge (Node.pick family b.alternatives) := by
  rcases Node.pick_merge ha.isSchema hb.isSchema family with h | h
  · exact h
  · rw [h, (ha.pick family).merge_comm (hb.pick family)]

/-! ### Associativity -/

/-- A number has integer bounds, or the doubles of two places. -/
lemma Plain.number {node : Node} (h : Plain node) (hfamily : node.kind.family = .floating) :
    (∃ x y, node = .integer x y) ∨ ∃ x y, node = .floating (.ofPlace x) (.ofPlace y) := by
  cases node with
  | integer min max => exact Or.inl ⟨min, max, rfl⟩
  | floating min max =>
    obtain ⟨x, y, rfl, rfl⟩ := h.floating
    exact Or.inr ⟨x, y, rfl⟩
  | _ => simp [kind, Kind.family] at hfamily

lemma eq_string_or_eq_binary {node : Node} (hfamily : node.kind.family = .string) :
    node = .string ∨ node = .binary := by
  cases node <;> simp_all [kind, Kind.family]

/-- It makes no difference whether bounds are rounded before or after they are widened. -/
lemma merge_assoc_of_numbers {a b c : Node} (ha : Plain a) (hb : Plain b) (hc : Plain c)
    (hfamily : a.kind.family = .floating) (hfamily' : b.kind.family = .floating)
    (hfamily'' : c.kind.family = .floating) : (a.merge b).merge c = a.merge (b.merge c) := by
  rcases ha.number hfamily with ⟨x, y, rfl⟩ | ⟨x, y, rfl⟩ <;>
    rcases hb.number hfamily' with ⟨z, w, rfl⟩ | ⟨z, w, rfl⟩ <;>
    rcases hc.number hfamily'' with ⟨u, v, rfl⟩ | ⟨u, v, rfl⟩ <;>
    simp only [merge_integers, merge_floatings, merge_integer_floating, merge_floating_integer,
      Double.ofInt_eq_ofPlace, Double.min_ofPlace, Double.max_ofPlace,
      Double.placeOfInt_mono.map_min, Double.placeOfInt_mono.map_max, min_assoc, min_comm,
      min_left_comm, max_assoc, max_comm, max_left_comm]

lemma merge_assoc_of_texts {a b c : Node} (hfamily : a.kind.family = .string)
    (hfamily' : b.kind.family = .string) (hfamily'' : c.kind.family = .string) :
    (a.merge b).merge c = a.merge (b.merge c) := by
  rcases eq_string_or_eq_binary hfamily with rfl | rfl <;>
    rcases eq_string_or_eq_binary hfamily' with rfl | rfl <;>
    rcases eq_string_or_eq_binary hfamily'' with rfl | rfl <;>
    simp only [merge_eq_mergeLevel] <;> rfl

lemma merge_assoc_of_alike {a b c : Node} (hab : Alike a b) (hbc : Alike b c)
    (hunion : a.kind ≠ .union) (ha : Plain a) (hb : Plain b) (hc : Plain c)
    (ih : ∀ x y z, x.size + y.size + z.size < a.size + b.size + c.size → Plain x → Plain y →
      Plain z → (x.merge y).merge z = x.merge (y.merge z)) :
    (a.merge b).merge c = a.merge (b.merge c) := by
  cases hab with
  | structs fields others shapes otherShapes =>
    cases hbc with
    | structs _ further _ furtherShapes =>
      have ha' := ha.canonical (by simp)
      have hb' := hb.canonical (by simp)
      have hc' := hc.canonical (by simp)
      have hab := ha'.merge hb'
      have hbc := hb'.merge hc'
      have hleft := hab.merge hc'
      have hright := ha'.merge hbc
      simp only [merge_structs] at hab hbc hleft hright ⊢
      -- both sides merge the three nodes of a name; if one is absent, two are left
      refine struct_eq_of_fieldNode_eq hleft hright (ShapeSet.union_assoc _ _ _) fun name => ?_
      rw [fieldNode_sortFields_mergeFields name hab.nodup_names hc'.nodup_names,
        fieldNode_sortFields_mergeFields name ha'.nodup_names hb'.nodup_names,
        fieldNode_sortFields_mergeFields name ha'.nodup_names hbc.nodup_names,
        fieldNode_sortFields_mergeFields name hb'.nodup_names hc'.nodup_names]
      by_cases hvoid : fieldNode name fields = .void
      · rw [hvoid, merge_void_left, merge_void_left]
      by_cases hvoid' : fieldNode name others = .void
      · rw [hvoid', merge_void_left, merge_void_right]
      by_cases hvoid'' : fieldNode name further = .void
      · rw [hvoid'', merge_void_right, merge_void_right]
      · have := size_fieldNode_lt hvoid shapes
        have := size_fieldNode_lt hvoid' otherShapes
        have := size_fieldNode_lt hvoid'' furtherShapes
        exact ih _ _ _ (by omega) (ha.fieldNode name) (hb.fieldNode name) (hc.fieldNode name)
  | lists element other =>
    cases hbc with
    | lists _ further =>
      simp only [merge_lists]
      rw [ih element other further (by simp only [size]; omega) ha.element hb.element hc.element]
  | unions => exact absurd rfl hunion
  | integers | floatings | integerFloating | floatingInteger =>
    exact merge_assoc_of_numbers ha hb hc rfl rfl hbc.family_eq.symm
  | strings | binaries | stringBinary | binaryString =>
    exact merge_assoc_of_texts rfl rfl hbc.family_eq.symm
  | void | null | boolean | timestamp =>
    cases hbc
    rfl

/-- Merging schemas without signed zeros is associative. -/
theorem Plain.merge_assoc {a b c : Node} (ha : Plain a) (hb : Plain b) (hc : Plain c) :
    (a.merge b).merge c = a.merge (b.merge c) := by
  induction hsize : a.size + b.size + c.size using Nat.strong_induction_on generalizing a b c with
  | _ bound ih =>
    by_cases hvoid : a = .void
    · rw [hvoid, merge_void_left, merge_void_left]
    by_cases hvoid' : b = .void
    · rw [hvoid', merge_void_left, merge_void_right]
    by_cases hvoid'' : c = .void
    · rw [hvoid'', merge_void_right, merge_void_right]
    have ha' := ha.canonical hvoid
    have hb' := hb.canonical hvoid'
    have hc' := hc.canonical hvoid''
    refine eq_of_pick_eq ((ha'.merge hb').merge hc') (ha'.merge (hb'.merge hc')) fun family => ?_
    -- commutativity is what lets the alternatives be taken in the order of the sides
    rw [(ha.merge hb).pick_merge hc, ha.pick_merge hb, ha.pick_merge (hb.merge hc),
      hb.pick_merge hc]
    rcases pick_eq_void_or_mem family a.alternatives with h | ⟨hmem, hfamily⟩
    · rw [h, merge_void_left, merge_void_left]
    rcases pick_eq_void_or_mem family b.alternatives with h | ⟨hmem', hfamily'⟩
    · rw [h, merge_void_left, merge_void_right]
    rcases pick_eq_void_or_mem family c.alternatives with h | ⟨hmem'', hfamily''⟩
    · rw [h, merge_void_right, merge_void_right]
    have hle := size_le_of_mem_alternatives hmem
    have hle' := size_le_of_mem_alternatives hmem'
    have hle'' := size_le_of_mem_alternatives hmem''
    exact merge_assoc_of_alike (alike_of_family_eq (hfamily.trans hfamily'.symm))
      (alike_of_family_eq (hfamily'.trans hfamily''.symm))
      (ha'.alternatives.alternative _ hmem).2 (ha.pick family) (hb.pick family) (hc.pick family)
      fun x y z hlt hx hy hz => ih (x.size + y.size + z.size) (by omega) hx hy hz rfl

/-! ### Idempotence -/

lemma merge_self_of_isAlternative {a : Node} (halternative : a.IsAlternative) (ha : Plain a)
    (ih : ∀ x, x.size < a.size → Plain x → x.merge x = x) : a.merge a = a := by
  have hcanonical := ha.canonical halternative.1.1
  cases a with
  | void => rfl
  | integer => rw [merge_integers, min_self, max_self]
  | floating =>
    obtain ⟨x, y, rfl, rfl⟩ := ha.floating
    rw [merge_floatings, Double.min_ofPlace, Double.max_ofPlace, min_self, max_self]
  | struct fields shapes =>
    have hmerge := hcanonical.merge hcanonical
    have hnames := hcanonical.nodup_names
    rw [merge_structs] at hmerge ⊢
    refine struct_eq_of_fieldNode_eq hmerge hcanonical (ShapeSet.union_self shapes) fun name => ?_
    rw [fieldNode_sortFields_mergeFields name hnames hnames]
    by_cases hvoid : fieldNode name fields = .void
    · rw [hvoid, merge_void_left]
    · exact ih _ (size_fieldNode_lt hvoid shapes) (ha.fieldNode name)
  | list element => rw [merge_lists, ih element (by simp only [size]; omega) ha.element]
  | union => exact absurd rfl halternative.2
  | _ => rfl

/-- Merging a schema without signed zeros with itself changes nothing. -/
theorem Plain.merge_self {a : Node} (ha : Plain a) : a.merge a = a := by
  induction hsize : a.size using Nat.strong_induction_on generalizing a with
  | _ bound ih =>
    by_cases hvoid : a = .void
    · rw [hvoid, merge_void_left]
    have ha' := ha.canonical hvoid
    refine eq_of_pick_eq (ha'.merge ha') ha' fun family => ?_
    rw [ha.pick_merge ha]
    rcases pick_eq_void_or_mem family a.alternatives with h | ⟨hmem, -⟩
    · rw [h, merge_void_left]
    · have hle := size_le_of_mem_alternatives hmem
      exact merge_self_of_isAlternative (ha'.alternatives.alternative _ hmem) (ha.pick family)
        fun x hlt hx => ih x.size (by omega) hx rfl

end Node

end RecordSchema
