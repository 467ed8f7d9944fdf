import RecordSchema.Proofs.Inference.Characterization
import RecordSchema.Proofs.Render.Leaves

/-!
# Observed locations in a listing

The listing of a schema has one line for every location at which a scalar was observed.  The line
stands at this location, or at that of a union on the way there (`infer_leaves_cover`).

Locations are texts, so this needs names without points.  It does not matter that a field may be
called `list`, or have an empty name: the steps to the line are those of the path.
-/

namespace RecordSchema

variable {detection : Detection}

/-! ### Scalars and names -/

namespace Value

/-- A value that is neither null nor made of other values. -/
def IsScalar : Value → Prop
  | .boolean _ | .integer _ | .decimal _ | .double _ | .string _ => True
  | _ => False

lemma IsScalar.exists_family {value : Value} (h : value.IsScalar) (detection : Detection) :
    ∃ family, value.family? detection = some family ∧ family ≠ .struct ∧ family ≠ .list := by
  cases value with
  | boolean | integer | decimal | double => exact ⟨_, rfl, by decide, by decide⟩
  | string text =>
    refine ⟨_, rfl, ?_, ?_⟩
    · split <;> decide
    · split <;> decide
  | _ => cases h

mutual

/-- The names of the members of all objects within a value, at every depth. -/
def keys : Value → List String
  | .array items => keysOfItems items
  | .object members => keysOfMembers members
  | _ => []

/-- The names within the elements of an array. -/
def keysOfItems : List Value → List String
  | [] => []
  | item :: items => item.keys ++ keysOfItems items

/-- The names of members and those within their values. -/
def keysOfMembers : List (String × Value) → List String
  | [] => []
  | (name, value) :: members => name :: (value.keys ++ keysOfMembers members)

end

@[simp] lemma keysOfItems_eq_flatMap (items : List Value) :
    keysOfItems items = items.flatMap keys := by
  induction items with
  | nil => rfl
  | cons item items ih => rw [keysOfItems, ih, List.flatMap_cons]

@[simp] lemma keysOfMembers_eq_flatMap (members : List (String × Value)) :
    keysOfMembers members = members.flatMap fun member => member.1 :: member.2.keys := by
  induction members with
  | nil => rfl
  | cons member members ih => rw [keysOfMembers, ih, List.flatMap_cons, List.cons_append]

lemma mem_keys_of_mem_names {members : List (String × Value)} {name : String}
    (h : name ∈ names members) : name ∈ keys (.object members) := by
  obtain ⟨member, hmember, rfl⟩ := List.mem_map.mp h
  rw [keys, keysOfMembers_eq_flatMap, List.mem_flatMap]
  exact ⟨member, hmember, List.mem_cons_self⟩

end Value

lemma Leads.mem_keys {step : Step} {value part : Value} (h : Leads step value part) {name : String}
    (hname : name ∈ part.keys) : name ∈ value.keys := by
  cases h with
  | member mem =>
    rw [Value.keys, Value.keysOfMembers_eq_flatMap, List.mem_flatMap]
    exact ⟨_, mem, List.mem_cons_of_mem _ hname⟩
  | item mem =>
    rw [Value.keys, Value.keysOfItems_eq_flatMap, List.mem_flatMap]
    exact ⟨_, mem, hname⟩

/-- No name in any of the values has a point. -/
def Pointless (values : Set Value) : Prop := ∀ value ∈ values, ∀ name ∈ value.keys, '.' ∉ name.toList

lemma Pointless.after {values : Set Value} (h : Pointless values) (step : Step) :
    Pointless (after step values) := by
  rintro part ⟨value, hvalue, hleads⟩ name hname
  exact h value hvalue name (hleads.mem_keys hname)

/-! ### Schemas of values -/

/-- What a node explains is explained by its parts where it goes on. -/
lemma Explains.enter {values : Set Value} {node : Node} (h : Explains detection values node)
    (step : Step) : Explains detection (after step values) (node.enter step) :=
  fun path => h (step :: path)

/-- The fields of a schema have names of observed members. -/
lemma Explains.listable {values : Set Value} {node : Node} (h : Explains detection values node)
    (hnode : node.IsSchema) (hnames : Pointless values) : node.Listable := by
  induction node using Node.induction generalizing values with
  | struct fields shapes ih =>
    have hcanonical : Node.Canonical (.struct fields shapes) := hnode.resolve_left (by simp)
    have hmatches : Matches detection values (.struct fields shapes) := h []
    have hparts := (hmatches.struct_parts hnode (List.mem_singleton_self _)).1
    refine .struct hcanonical.nodup_names (fun field hfield => ?_) fun field hfield => ?_
    · obtain ⟨members, hmembers, hname⟩ := (hparts field.1).mp (List.mem_map_of_mem hfield)
      exact hnames _ hmembers _ (Value.mem_keys_of_mem_names hname)
    · have hfieldNode := Node.fieldNode_of_mem hcanonical.nodup_names hfield
      have hschema := Node.isSchema_enter hnode (.field field.1)
      have hexplains := h.enter (.field field.1)
      have henter : Node.enter (.field field.1) (.struct fields shapes) = field.2 := hfieldNode
      rw [henter] at hschema hexplains
      exact ih field hfield hexplains hschema (hnames.after _)
  | list element ih =>
    exact .list (ih (h.enter .element) (Node.isSchema_enter hnode .element) (hnames.after _))
  | _ => exact .leaf fun _ => rfl

/-- The lines of a schema stand at different places, and for every location of an observed scalar
there is exactly one line at it or above it.  A line stands above the location only where the node
on the way there is a union. -/
theorem infer_leaves_cover {records : List Value} (hclean : ∀ record ∈ records, record.Clean)
    (hnames : ∀ record ∈ records, ∀ name ∈ record.keys, '.' ∉ name.toList) {node : Node}
    (h : Node.infer detection records = .ok node) (root : String) :
    ((node.leaves root).map Leaf.path).Nodup ∧
      ∀ path, ∀ value ∈ observed path {record | record ∈ records}, value.IsScalar →
        (∃! leaf, leaf ∈ node.leaves root ∧ Above leaf.path (locate root path)) ∧
          ∀ leaf ∈ node.leaves root, Above leaf.path (locate root path) →
            ∃ before after, path = before ++ after ∧
              leaf = ⟨locate root before, node.descend before⟩ ∧
                (after ≠ [] → leaf.node.kind = .union) := by
  have hexplains := explains_of_infer hclean h
  have hschema := Node.isSchema_of_infer hclean h
  have hlistable := hexplains.listable hschema hnames
  refine ⟨hlistable.nodup_paths root, fun path value hvalue hscalar => ?_⟩
  obtain ⟨family, hfamily, hstruct, hlist⟩ := hscalar.exists_family detection
  obtain ⟨child, hchild, hkind, -⟩ := (hexplains path).exists_of_mem hvalue hfamily
  have hsingle := Node.leaves_of_family_ne (hkind ▸ hstruct) (hkind ▸ hlist)
  obtain ⟨before, after, hpath, hleaf, hunion⟩ :=
    Node.exists_leaf_of_descend hschema hchild hsingle root
  have habove : Above (locate root before) (locate root path) := by
    rw [hpath, locate, locate, List.foldl_append]
    exact .locate _ after
  have hunique : ∀ leaf ∈ node.leaves root, Above leaf.path (locate root path) →
      leaf = ⟨locate root before, node.descend before⟩ :=
    fun leaf hmem h => hlistable.eq_of_above hmem hleaf h habove
  refine ⟨⟨_, ⟨hleaf, habove⟩, fun leaf hmem => hunique leaf hmem.1 hmem.2⟩, ?_⟩
  intro leaf hmem h
  obtain rfl := hunique leaf hmem h
  exact ⟨before, after, hpath, rfl, hunion⟩

/-- The elements of an array and a member with the name `list` are in the line of one union. -/
theorem infer_leaves_cover_element_and_member : ∃ node,
    Node.infer {} [.object [("list", .array [.integer 1, .null]), ("", .string "x")],
      .object [("list", .object [("list", .boolean true)])]] = .ok node ∧
    ((node.leaves "row").map Leaf.path).Nodup ∧
    (∃! leaf, leaf ∈ node.leaves "row" ∧
      Above leaf.path (locate "row" [.field "list", .element])) ∧
    ∃! leaf, leaf ∈ node.leaves "row" ∧
      Above leaf.path (locate "row" [.field "list", .field "list"]) := by
  obtain ⟨node, hnode⟩ : ∃ node, Node.infer {}
      [.object [("list", .array [.integer 1, .null]), ("", .string "x")],
        .object [("list", .object [("list", .boolean true)])]] = .ok node :=
    ⟨_, rfl⟩
  obtain ⟨hpaths, hlines⟩ := infer_leaves_cover (by decide) (by decide) hnode "row"
  have helement := hlines [.field "list", .element] (.integer 1)
    (mem_observed_iff.mpr ⟨_, List.mem_cons_self, mem_observed_cons.mpr
      ⟨_, .member List.mem_cons_self, mem_observed_cons.mpr ⟨_, .item List.mem_cons_self, rfl⟩⟩⟩)
    trivial
  have hmember := hlines [.field "list", .field "list"] (.boolean true)
    (mem_observed_iff.mpr ⟨_, List.mem_cons_of_mem _ List.mem_cons_self, mem_observed_cons.mpr
      ⟨_, .member List.mem_cons_self, mem_observed_cons.mpr ⟨_, .member List.mem_cons_self, rfl⟩⟩⟩)
    trivial
  exact ⟨node, hnode, hpaths, helement.1, hmember.1⟩

/-- There are two lines, one of them for a field without a name. -/
example : (Node.infer {} [.object [("list", .array [.integer 1, .null]), ("", .string "x")],
    .object [("list", .object [("list", .boolean true)])]]).map (Node.listing "row") =
      .ok "row.: string\nrow.list: uniontype<struct<list:boolean>,array<tinyint>>\n" := by
  decide +kernel

end RecordSchema
