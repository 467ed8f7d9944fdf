import RecordSchema.Proofs.Node.Indistinguishable
import RecordSchema.Proofs.Node.Semilattice
import RecordSchema.Proofs.Inference.Classified

/-!
# Inference depends only on what was seen

Equivalent values are classified as the same node, up to the signs of zeros, and so the schemas of
equivalent lists of records cannot be told apart (`infer_indistinguishable`).

The proof is by induction on values.  The elements of equivalent arrays have the same nodes by
induction, and a merge depends only on which nodes there are.  The members of equivalent objects
have the same nodes under the same names; fields are put in the order of their names, and the
shape lists the names in order as well.
-/

namespace RecordSchema

open Value

variable {detection : Detection} {path : String}

/-- The node of a value is also the node of every equivalent one, up to the signs of zeros. -/
def Transfers (detection : Detection) (path : String) (value : Value) : Prop :=
  ∀ other node, Equivalent value other → classify detection path value = .ok node →
    ∃ partner, classify detection path other = .ok partner ∧
      node.dropZeroSigns = partner.dropZeroSigns

/-! ### Lists of values -/

/-- The nodes of equivalent lists of values have the same merge. -/
lemma exists_foldl_merge_of_equivalentLists {values others : List Value}
    (h : EquivalentLists values others) (ih : ∀ value ∈ values, Transfers detection path value)
    {nodes : List Node}
    (hnodes : List.Forall₂ (fun value node => classify detection path value = .ok node) values
      nodes)
    {start : Node} (hstart : start.IsSchema) : ∃ partners,
      List.Forall₂ (fun value node => classify detection path value = .ok node) others partners ∧
        (nodes.foldl Node.merge start).dropZeroSigns =
          (partners.foldl Node.merge start).dropZeroSigns := by
  obtain ⟨forth, back⟩ := h
  have hothers : ∀ other ∈ others, ∃ partner, classify detection path other = .ok partner := by
    intro other hother
    obtain ⟨value, hvalue, hequiv⟩ := back other hother
    obtain ⟨node, -, hok⟩ := exists_of_mem_left hnodes hvalue
    obtain ⟨partner, hpartner, -⟩ := ih value hvalue other node hequiv hok
    exact ⟨partner, hpartner⟩
  obtain ⟨partners, hpartners⟩ := exists_forall₂ hothers
  -- every node has a counterpart on the other side, in both directions
  refine ⟨partners, hpartners, Node.dropZeroSigns_foldl_merge_eq hstart ?_ ?_ ?_⟩
  · intro node hnode
    obtain ⟨value, hvalue, hok⟩ := exists_of_mem_right hnodes hnode
    obtain ⟨other, -, hequiv⟩ := forth value hvalue
    exact Or.inr (recorded_of_classify hequiv.clean_left hok).canonical
  · intro node hnode
    obtain ⟨value, hvalue, hok⟩ := exists_of_mem_right hnodes hnode
    obtain ⟨other, hother, hequiv⟩ := forth value hvalue
    obtain ⟨partner, hpartner, hok'⟩ := exists_of_mem_left hpartners hother
    obtain ⟨partner', hok'', heq⟩ := ih value hvalue other node hequiv hok
    cases hok'.symm.trans hok''
    exact ⟨partner, hpartner, heq⟩
  · intro partner hpartner
    obtain ⟨other, hother, hok'⟩ := exists_of_mem_right hpartners hpartner
    obtain ⟨value, hvalue, hequiv⟩ := back other hother
    obtain ⟨node, hnode, hok⟩ := exists_of_mem_left hnodes hvalue
    obtain ⟨partner', hok'', heq⟩ := ih value hvalue other node hequiv hok
    cases hok'.symm.trans hok''
    exact ⟨node, hnode, heq⟩

/-! ### Members of objects -/

/-- Fields are determined by what they are up to the signs of zeros, whatever their order. -/
lemma map_dropZeroSigns_sortFields_eq {fields others : List (String × Node)}
    (hnames : (Node.names fields).Nodup) (hnames' : (Node.names others).Nodup)
    (forth : ∀ field ∈ fields, ∃ other ∈ others,
      field.1 = other.1 ∧ field.2.dropZeroSigns = other.2.dropZeroSigns)
    (back : ∀ other ∈ others, ∃ field ∈ fields,
      field.1 = other.1 ∧ field.2.dropZeroSigns = other.2.dropZeroSigns) :
    (Node.sortFields fields).map (fun field => (field.1, field.2.dropZeroSigns)) =
      (Node.sortFields others).map fun field => (field.1, field.2.dropZeroSigns) := by
  refine eq_of_pairwise_of_mem_iff (r := fun f g => f.1 < g.1) ?_
    (List.pairwise_map.mpr (Node.pairwise_sortFields hnames))
    (List.pairwise_map.mpr (Node.pairwise_sortFields hnames')) fun field => ?_
  · exact fun f g hfg hgf => String.lt_asymm hfg hgf
  · simp only [List.mem_map, Node.sortFields, mem_sortBy]
    constructor
    · rintro ⟨field, hfield, rfl⟩
      obtain ⟨other, hother, hname, heq⟩ := forth field hfield
      exact ⟨other, hother, by rw [hname, heq]⟩
    · rintro ⟨other, hother, rfl⟩
      obtain ⟨field, hfield, hname, heq⟩ := back other hother
      exact ⟨field, hfield, by rw [hname, heq]⟩

/-- Objects with the same names have the same shape. -/
lemma shapeSignature_names_eq {members others : List (String × Value)}
    (hnames : (names members).Nodup) (hnames' : (names others).Nodup)
    (forth : ∀ member ∈ members, ∃ other ∈ others, member.1 = other.1)
    (back : ∀ other ∈ others, ∃ member ∈ members, member.1 = other.1) :
    shapeSignature (names members) = shapeSignature (names others) := by
  refine shapeSignature_perm ((List.perm_ext_iff_of_nodup hnames hnames').mpr fun name => ?_)
  simp only [names, List.mem_map]
  constructor
  · rintro ⟨member, hmember, rfl⟩
    obtain ⟨other, hother, hname⟩ := forth member hmember
    exact ⟨other, hother, hname.symm⟩
  · rintro ⟨other, hother, rfl⟩
    obtain ⟨member, hmember, hname⟩ := back other hother
    exact ⟨member, hmember, hname⟩

/-! ### Values -/

lemma transfers_array {items : List Value}
    (ih : ∀ item ∈ items, Transfers detection (path ++ ".list") item) :
    Transfers detection path (.array items) := by
  intro other node hequiv hok
  obtain ⟨others, rfl, hlists⟩ := equivalent_array.mp hequiv
  obtain ⟨nodes, hnodes, rfl⟩ := classify_array_eq_ok_iff.mp hok
  obtain ⟨partners, hpartners, heq⟩ :=
    exists_foldl_merge_of_equivalentLists hlists ih hnodes (Or.inr .null)
  refine ⟨_, classify_array_eq_ok_iff.mpr ⟨partners, hpartners, rfl⟩, ?_⟩
  rw [Node.dropZeroSigns, heq, Node.dropZeroSigns]

lemma transfers_object {members : List (String × Value)}
    (ih : ∀ member ∈ members, Transfers detection (path ++ "." ++ member.1) member.2) :
    Transfers detection path (.object members) := by
  intro other node hequiv hok
  obtain ⟨others, rfl, ⟨distinct, distinct'⟩, forth, back⟩ := equivalent_object.mp hequiv
  obtain ⟨fields, hfields, rfl⟩ := classify_object_eq_ok_iff.mp hok
  -- every member of the other object takes the node of its counterpart
  have hothers : ∀ other ∈ others, ∃ field : String × Node, other.1 = field.1 ∧
      classify detection (path ++ "." ++ other.1) other.2 = .ok field.2 := by
    intro other hother
    obtain ⟨member, hmember, hname, hequiv⟩ := back other hother
    obtain ⟨field, -, -, hok⟩ := exists_of_mem_left hfields hmember
    obtain ⟨partner, hpartner, -⟩ := ih member hmember other.2 field.2 hequiv hok
    exact ⟨(other.1, partner), rfl, hname ▸ hpartner⟩
  obtain ⟨partners, hpartners⟩ := exists_forall₂ hothers
  refine ⟨_, classify_object_eq_ok_iff.mpr ⟨partners, hpartners, rfl⟩, ?_⟩
  -- the location of a member depends on its name only, so counterparts share it
  have heq : ∀ {member other : String × Value} {field partner : String × Node},
      member ∈ members → member.1 = other.1 → Equivalent member.2 other.2 →
      classify detection (path ++ "." ++ member.1) member.2 = .ok field.2 →
      classify detection (path ++ "." ++ other.1) other.2 = .ok partner.2 →
      field.2.dropZeroSigns = partner.2.dropZeroSigns := by
    intro member other field partner hmember hname hequiv hok hok'
    obtain ⟨node, hnode, heq⟩ := ih member hmember other.2 field.2 hequiv hok
    rw [hname] at hnode
    cases hok'.symm.trans hnode
    exact heq
  rw [Node.ofFields, Node.ofFields, Node.dropZeroSigns, Node.dropZeroSigns,
    Node.dropZeroSignsOfFields_eq_map, Node.dropZeroSignsOfFields_eq_map,
    shapeSignature_names_eq distinct distinct'
      (fun member hmember => (forth member hmember).imp fun _ h => ⟨h.1, h.2.1⟩)
      (fun other hother => (back other hother).imp fun _ h => ⟨h.1, h.2.1⟩),
    map_dropZeroSigns_sortFields_eq ((names_eq_of_forall₂ hfields) ▸ distinct)
      ((names_eq_of_forall₂ hpartners) ▸ distinct')]
  · intro field hfield
    obtain ⟨member, hmember, hname, hok⟩ := exists_of_mem_right hfields hfield
    obtain ⟨other, hother, hname', hequiv⟩ := forth member hmember
    obtain ⟨partner, hpartner, hname'', hok'⟩ := exists_of_mem_left hpartners hother
    exact ⟨partner, hpartner, hname.symm.trans (hname'.trans hname''),
      heq hmember hname' hequiv hok hok'⟩
  · intro partner hpartner
    obtain ⟨other, hother, hname, hok'⟩ := exists_of_mem_right hpartners hpartner
    obtain ⟨member, hmember, hname', hequiv⟩ := back other hother
    obtain ⟨field, hfield, hname'', hok⟩ := exists_of_mem_left hfields hmember
    exact ⟨field, hfield, hname''.symm.trans (hname'.trans hname),
      heq hmember hname' hequiv hok hok'⟩

/-- Equivalent values are classified as the same node, up to the signs of zeros. -/
theorem transfers (detection : Detection) (path : String) (value : Value) :
    Transfers detection path value := by
  induction value using Value.induction generalizing path with
  | array items ih => exact transfers_array fun item hitem => ih item hitem _
  | object members ih => exact transfers_object fun member hmember => ih member hmember _
  | _ =>
    intro other node hequiv hok
    obtain ⟨rfl, -⟩ := (equivalent_scalar (by simp) (by simp)).mp hequiv
    exact ⟨node, hok, rfl⟩

/-! ### Lists of records -/

/-- The schemas of equivalent lists of records cannot be told apart, if the records can be
classified at all. -/
theorem infer_indistinguishable {records others : List Value} (h : EquivalentLists records others)
    (hok : ∀ record ∈ records, ∃ node, classify detection recordPath record = .ok node) :
    ∃ a b, Node.infer detection records = .ok a ∧ Node.infer detection others = .ok b ∧
      Node.Indistinguishable a b := by
  obtain ⟨nodes, hnodes⟩ := exists_forall₂ hok
  obtain ⟨partners, hpartners, heq⟩ := exists_foldl_merge_of_equivalentLists h
    (fun record _ => transfers detection recordPath record) hnodes (Or.inl rfl)
  have ha := infer_eq_ok_iff.mpr ⟨nodes, hnodes, rfl⟩
  have hb := infer_eq_ok_iff.mpr ⟨partners, hpartners, rfl⟩
  refine ⟨_, _, ha, hb, Node.indistinguishable_of_dropZeroSigns_eq (Node.isSchema_of_infer ?_ ha)
    (Node.isSchema_of_infer ?_ hb) heq⟩
  · intro record hrecord
    obtain ⟨other, -, hequiv⟩ := h.1 record hrecord
    exact hequiv.clean_left
  · intro other hother
    obtain ⟨record, -, hequiv⟩ := h.2 other hother
    exact hequiv.clean_right

/-- A record comes twice and in front of the others, with its members in the other order, and an
element of its array comes twice as well. -/
theorem infer_indistinguishable_of_repeated_record : ∃ a b,
    Node.infer {} [.null, .object [("b", .integer 1), ("a", .array [.integer 1,
      .double (.number true 0)])]] = .ok a ∧
    Node.infer {} [.object [("a", .array [.double (.number true 0), .integer 1, .integer 1]),
      ("b", .integer 1)], .null, .object [("b", .integer 1), ("a", .array [.integer 1,
      .double (.number true 0)])]] = .ok b ∧ Node.Indistinguishable a b := by
  have hitems : EquivalentLists [.integer 1, .double (.number true 0)]
      [.double (.number true 0), .integer 1, .integer 1] :=
    equivalentLists_of_mem_iff (by decide) fun value => by simp [or_comm]
  have harray : Equivalent (.array [.integer 1, .double (.number true 0)])
      (.array [.double (.number true 0), .integer 1, .integer 1]) :=
    equivalent_array.mpr ⟨_, rfl, hitems⟩
  have hinteger : Equivalent (.integer 1) (.integer 1) := (Clean.integer 1).equivalent_self
  have hobject : Equivalent
      (.object [("b", .integer 1), ("a", .array [.integer 1, .double (.number true 0)])])
      (.object [("a", .array [.double (.number true 0), .integer 1, .integer 1]),
        ("b", .integer 1)]) :=
    equivalent_object.mpr ⟨_, rfl, ⟨by decide, by decide⟩,
      by simp [hinteger, harray], by simp [hinteger, harray]⟩
  have hnull : Equivalent .null .null := Clean.null.equivalent_self
  refine infer_indistinguishable ⟨?_, ?_⟩ ?_
  · simp [hnull, hobject]
  · simp [hnull, hobject, hobject.clean_left.equivalent_self]
  · exact List.forall_mem_cons.mpr ⟨⟨_, rfl⟩, List.forall_mem_singleton.mpr ⟨_, rfl⟩⟩

end RecordSchema
