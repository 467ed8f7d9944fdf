import RecordSchema.Proofs.Inference.Range

/-!
# The first refused leaf

Classification goes through the leaves of a value in order, the members of an object as they were
read and the elements of an array one after the other.  It fails if and only if one of the leaves
is refused, and then with what is said about the first of these, at the location of that leaf
(`classify_refuses_first`).  What is said about a leaf, `Value.refusal?`, is told by the leaf alone.

In between, the elements of arrays are merged.  These merges never stop, whatever was classified,
as the nodes of values are solid even where they hold NaN (`solid_of_classify`).
-/

namespace RecordSchema

variable {detection : Detection} {location : String}

/-! ### Leaves -/

namespace Value

mutual

/-- The leaves of a value in the order in which they are met, each with the path that leads to it.
An empty array and an empty object have none. -/
def leaves : Value → List (List Step × Value)
  | .array items => leavesOfItems items
  | .object members => leavesOfMembers members
  | value => [([], value)]

/-- The leaves of the elements of an array. -/
def leavesOfItems : List Value → List (List Step × Value)
  | [] => []
  | item :: items =>
    (leaves item).map (fun leaf => (.element :: leaf.1, leaf.2)) ++ leavesOfItems items

/-- The leaves of the members of an object. -/
def leavesOfMembers : List (String × Value) → List (List Step × Value)
  | [] => []
  | (name, value) :: members =>
    (leaves value).map (fun leaf => (.field name :: leaf.1, leaf.2)) ++ leavesOfMembers members

end

/-- What is said about a leaf at a location, if it is refused: an integer that does not fit 64 bits,
whether it was written as an integer or as a decimal, a signaling NaN, or a value of a type that
records do not hold. -/
def refusal? (location : String) : Value → Option Failure
  | .integer n => if FitsLong n then none else some (.outOfRange (.integer n) location)
  | .decimal .signalingNaN => some .signalingNaN
  | .decimal value =>
    match value.whole? with
    | some n => if FitsLong n then none else some (.outOfRange (value.literal n) location)
    | none => none
  | .unsupported typeName => some (.unsupportedValue typeName location)
  | _ => none

/-- What is said about the first leaf of a value that is refused, if one is. -/
def firstRefusal? (location : String) (value : Value) : Option Failure :=
  value.leaves.findSome? fun leaf => leaf.2.refusal? (locate location leaf.1)

/-- A value that is a leaf itself. -/
lemma firstRefusal?_leaf (location : String) {value : Value} (h : value.leaves = [([], value)]) :
    value.firstRefusal? location = value.refusal? location := by
  have hlocation : locate location [] = location := rfl
  rw [firstRefusal?, h, List.findSome?_cons, hlocation]
  cases value.refusal? location with
  | none => rfl
  | some failure => rfl

lemma firstRefusal?_array (location : String) (items : List Value) :
    (array items).firstRefusal? location =
      items.findSome? (firstRefusal? (location ++ ".list")) := by
  show (leavesOfItems items).findSome? _ = _
  induction items with
  | nil => rfl
  | cons item items ih =>
    rw [leavesOfItems, List.findSome?_append, List.findSome?_map, ih, List.findSome?_cons]
    show (item.firstRefusal? (location ++ ".list")).or _ = _
    cases item.firstRefusal? (location ++ ".list") with
    | none => rfl
    | some failure => rfl

lemma firstRefusal?_object (location : String) (members : List (String × Value)) :
    (object members).firstRefusal? location =
      members.findSome? fun member => member.2.firstRefusal? (location ++ "." ++ member.1) := by
  show (leavesOfMembers members).findSome? _ = _
  induction members with
  | nil => rfl
  | cons member members ih =>
    rw [leavesOfMembers, List.findSome?_append, List.findSome?_map, ih, List.findSome?_cons,
      String.append_assoc]
    show (member.2.firstRefusal? (location ++ ("." ++ member.1))).or _ = _
    cases member.2.firstRefusal? (location ++ ("." ++ member.1)) with
    | none => rfl
    | some failure => rfl

/-- What is said about a leaf tells its location, unless the leaf is a signaling NaN. -/
lemma context?_of_refusal? {location : String} {leaf : Value} {failure : Failure}
    (h : leaf.refusal? location = some failure) :
    failure = .signalingNaN ∨ failure.context? = some location := by
  unfold refusal? at h
  split at h
  · split at h
    · cases h
    · cases h
      exact Or.inr rfl
  · cases h
    exact Or.inl rfl
  · split at h
    · split at h
      · cases h
      · cases h
        exact Or.inr rfl
    · cases h
  · cases h
    exact Or.inr rfl
  · cases h

end Value

/-! ### Failures -/

lemma failure?_classifyDecimal (value : Decimal) :
    failure? (classifyDecimal value location) = (Value.decimal value).refusal? location := by
  cases hwhole : value.whole? with
  | some n =>
    have hrefusal : (Value.decimal value).refusal? location =
        if FitsLong n then none else some (.outOfRange (value.literal n) location) := by
      cases value with
      | signalingNaN => cases hwhole
      | _ => simp only [Value.refusal?, hwhole]
    rw [classifyDecimal_eq_of_whole? location hwhole, hrefusal]
    split <;> rfl
  | none =>
    by_cases hsignaling : value = .signalingNaN
    · rw [hsignaling]
      rfl
    · obtain ⟨node, hnode⟩ := exists_classifyDecimal_of_fraction location hwhole hsignaling
      rw [hnode]
      cases value with
      | signalingNaN => exact absurd rfl hsignaling
      | _ => simp only [Value.refusal?, hwhole, failure?]

/-! ### Whole values -/

/-- Classification fails with what is said about the first refused leaf. -/
theorem failure?_classify (detection : Detection) (location : String) (value : Value) :
    failure? (classify detection location value) = value.firstRefusal? location := by
  -- the location grows on the way down
  induction value using Value.induction generalizing location with
  | array items ih =>
    rw [classify, failure?_bind_pure, failure?_classifyItems, Value.firstRefusal?_array]
    exact findSome?_congr fun item hitem => ih item hitem _
  | object members ih =>
    rw [classify, failure?_bind_pure, failure?_classifyMembers, Value.firstRefusal?_object]
    exact findSome?_congr fun member hmember => ih member hmember _
  | integer n =>
    rw [classify, Value.firstRefusal?_leaf location rfl]
    by_cases hfits : FitsLong n
    · rw [classifyInteger_of_fitsLong hfits, Value.refusal?, if_pos hfits]
      rfl
    · rw [classifyInteger_of_not_fitsLong hfits, Value.refusal?, if_neg hfits]
      rfl
  | decimal value =>
    rw [classify, failure?_classifyDecimal, Value.firstRefusal?_leaf location rfl]
  | _ =>
    rw [classify, Value.firstRefusal?_leaf location rfl]
    rfl

/-- The node of every value that is classified is solid, also if it holds NaN. -/
lemma solid_of_classify {value : Value} {node : Node}
    (h : classify detection location value = .ok node) : node.Solid := by
  induction value using Value.induction generalizing location node with
  | array items ih =>
    obtain ⟨nodes, hnodes, rfl⟩ := classify_array_eq_ok_iff.mp h
    refine .list (List.foldlRecOn nodes Node.merge .null ?_)
    intro element helement node hnode
    obtain ⟨item, hitem, hok⟩ := exists_of_mem_right hnodes hnode
    exact helement.merge (ih item hitem hok)
  | object members ih =>
    obtain ⟨fields, hfields, rfl⟩ := classify_object_eq_ok_iff.mp h
    refine .struct _ ?_
    intro field hfield
    obtain ⟨member, hmember, -, hok⟩ := exists_of_mem_right hfields (mem_sortBy.mp hfield)
    exact ih member hmember hok
  | integer n =>
    rw [classify] at h
    exact (recorded_of_classifyInteger h).solid
  | decimal value =>
    rw [classify] at h
    rcases classifyDecimal_eq_ok h with ⟨n, hn⟩ | ⟨x, -, rfl⟩
    · exact (recorded_of_classifyInteger hn).solid
    · exact .floating x x
  | double x =>
    rw [classify] at h
    cases h
    exact .floating x x
  | string text =>
    rw [classify] at h
    cases h
    exact (recorded_of_classifyString detection text).solid
  | unsupported =>
    rw [classify] at h
    cases h
  | null | boolean =>
    rw [classify] at h
    cases h
    constructor

/-- Classification fails if and only if a leaf is refused, and then with what is said about the
first refused leaf at the location of that leaf.  Decimals without digits after the point are
accepted exactly if they fit 64 bits, and no merge of the elements of an array stops. -/
theorem classify_refuses_first (detection : Detection) :
    (∀ location value failure, classify detection location value = .error failure ↔
      ∃ before path leaf after, Value.leaves value = before ++ (path, leaf) :: after ∧
        (∀ other ∈ before, other.2.refusal? (locate location other.1) = none) ∧
        leaf.refusal? (locate location path) = some failure ∧
        (failure = .signalingNaN ∨ failure.context? = some (locate location path))) ∧
    (∀ location value, (∃ node, classify detection location value = .ok node) ↔
      ∀ leaf ∈ Value.leaves value, leaf.2.refusal? (locate location leaf.1) = none) ∧
    (∀ location (value : Decimal) n, value.whole? = some n →
      classify detection location (.decimal value) =
        if FitsLong n then .ok (.integer n n)
        else .error (.outOfRange (value.literal n) location)) ∧
    ∀ location items nodes,
      List.Forall₂ (fun item node => classify detection location item = .ok node) items nodes →
        nodes.foldlM Node.tryMerge .null = .ok (nodes.foldl Node.merge .null) := by
  refine ⟨?_, ?_, ?_, ?_⟩
  · intro location value failure
    rw [← failure?_eq_some_iff, failure?_classify, Value.firstRefusal?, List.findSome?_eq_some_iff]
    constructor
    · rintro ⟨before, ⟨path, leaf⟩, after, hleaves, hrefusal, hbefore⟩
      exact ⟨before, path, leaf, after, hleaves, hbefore, hrefusal,
        Value.context?_of_refusal? hrefusal⟩
    · rintro ⟨before, path, leaf, after, hleaves, hbefore, hrefusal, -⟩
      exact ⟨before, (path, leaf), after, hleaves, hrefusal, hbefore⟩
  · intro location value
    rw [← failure?_eq_none_iff, failure?_classify, Value.firstRefusal?,
      List.findSome?_eq_none_iff]
  · intro location value n hwhole
    rw [classify, classifyDecimal_eq_of_whole? location hwhole]
  · intro location items nodes hnodes
    refine Node.Solid.foldlM_tryMerge .null ?_
    intro node hnode
    obtain ⟨item, -, hok⟩ := exists_of_mem_right hnodes hnode
    exact solid_of_classify hok

/-- The second element of an array is refused before anything after it, at the location of the
elements.  A decimal that fits is accepted, and NaN is merged with an integer. -/
theorem classify_refuses_first_element :
    classify {} "root" (.object [("a", .array [.integer 1, .decimal (.finite false 1 30),
        .unsupported "set"]), ("b", .decimal .signalingNaN)]) =
      .error (.outOfRange (.decimal (.finite false 1 30)) "root.a.list") ∧
    classify {} "root" (.decimal (.finite true 1 18)) =
      .ok (.integer (-1000000000000000000) (-1000000000000000000)) ∧
    [Node.floating .nan .nan, .integer 1 1].foldlM Node.tryMerge .null =
      .ok ([Node.floating .nan .nan, .integer 1 1].foldl Node.merge .null) := by
  obtain ⟨hrefuses, -, hdecimal, hmerges⟩ := classify_refuses_first {}
  refine ⟨?_, ?_, ?_⟩
  · exact (hrefuses _ _ _).mpr ⟨[([.field "a", .element], .integer 1)], [.field "a", .element],
      .decimal (.finite false 1 30),
      [([.field "a", .element], .unsupported "set"), ([.field "b"], .decimal .signalingNaN)],
      rfl, by decide, by decide, by decide⟩
  · rw [hdecimal "root" (.finite true 1 18) (-1000000000000000000) (by decide)]
    exact if_pos (by decide)
  · exact hmerges "root" [.double .nan, .integer 1] _ (.cons rfl (.cons rfl .nil))

end RecordSchema
