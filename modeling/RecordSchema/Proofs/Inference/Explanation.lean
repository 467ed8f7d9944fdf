import RecordSchema.Proofs.Inference.Observation

/-!
# Schemas that explain records

A node explains values if it matches what is observed at every path.  A single value is explained
by the node that it is classified as, by induction on the value (`explains_of_classify`).  A merge
explains what is observed on either side (`Explains.merge`), so the schema of a list of records
explains all of them (`explains_of_infer`).
-/

namespace RecordSchema

variable {detection : Detection}

/-! ### Nodes that fit at every path -/

/-- At every path, the node matches the values observed there. -/
def Explains (detection : Detection) (values : Set Value) (node : Node) : Prop :=
  ∀ path, Matches detection (observed path values) (node.descend path)

lemma matches_empty {node : Node} (h : node.alternatives = []) : Matches detection ∅ node := by
  intro family
  rw [ofFamily_empty, h, Node.pick_nil]
  exact .void rfl

lemma explains_empty {node : Node} (h : node.alternatives = []) : Explains detection ∅ node := by
  intro path
  rw [observed_empty]
  cases path with
  | nil => exact matches_empty h
  | cons step path =>
    rw [Node.descend, Node.enter_of_alternatives_eq_nil h, Node.descend_void]
    exact matches_empty rfl

/-- A merge explains what either side explains. -/
theorem Explains.merge {values others : Set Value} {a b : Node} (h : Explains detection values a)
    (h' : Explains detection others b) (ha : a.IsSchema) (hb : b.IsSchema) :
    Explains detection (values ∪ others) (a.merge b) := by
  intro path
  have hdescend := Node.isSchema_descend ha path
  have hdescend' := Node.isSchema_descend hb path
  rw [observed_union]
  rcases Node.descend_merge ha hb path with hmerge | hmerge
  · rw [hmerge]
    exact (h path).merge (h' path) hdescend hdescend'
  · rw [hmerge, Set.union_comm]
    exact (h' path).merge (h path) hdescend' hdescend

lemma union_mem_nil (values : Set Value) : values ∪ {item | item ∈ []} = values := by
  ext item
  simp

/-- The values of a list join others from the first to the last. -/
lemma union_mem_cons (values : Set Value) (item : Value) (items : List Value) :
    values ∪ {other | other ∈ item :: items} = values ∪ {item} ∪ {other | other ∈ items} := by
  ext other
  simp only [Set.mem_union, Set.mem_ofPred_eq, List.mem_cons, Set.mem_singleton_iff, or_assoc]

/-- Merging the nodes of single values into a node explains these values as well. -/
lemma Explains.foldl_merge {values : Set Value} {start : Node}
    (h : Explains detection values start) (hstart : start.IsSchema) {items : List Value}
    {nodes : List Node} (hnodes : List.Forall₂ (fun item node =>
      Explains detection {item} node ∧ node.IsSchema) items nodes) :
    Explains detection (values ∪ {item | item ∈ items}) (nodes.foldl Node.merge start) := by
  induction hnodes generalizing values start with
  | nil => rwa [union_mem_nil]
  | @cons item node items nodes hnode _ ih =>
    obtain ⟨hitem, hschema⟩ := hnode
    rw [union_mem_cons, List.foldl_cons]
    exact ih (h.merge hitem hstart hschema) (hstart.merge hschema)

/-! ### Single values -/

/-- A value with an alternative of its own is explained by it if its parts are by the parts of the
alternative. -/
lemma explains_singleton {value : Value} {node : Node} (halternatives : node.alternatives = [node])
    (hfamily : value.family? detection = some node.kind.family) (hfits : Fits detection {value} node)
    (hparts : ∀ step, Explains detection (after step {value}) (Node.part step node)) :
    Explains detection {value} node := by
  intro path
  cases path with
  | nil =>
    show Matches detection {value} node
    intro family
    rw [halternatives, Node.pick_cons, Node.pick_nil]
    split
    · next h =>
      have hgroup : ofFamily detection family {value} = {value} := by
        ext other
        simp only [ofFamily, Set.mem_ofPred_eq, Set.mem_singleton_iff, and_iff_left_iff_imp]
        rintro rfl
        rw [hfamily, h]
      rwa [hgroup]
    · next h =>
      refine .void ?_
      ext other
      simp only [ofFamily, Set.mem_ofPred_eq, Set.mem_singleton_iff, Set.mem_empty_iff_false,
        iff_false, not_and]
      rintro rfl heq
      exact h (Option.some.inj (hfamily.symm.trans heq))
  | cons step path =>
    have henter : node.enter step = Node.part step node := by
      rw [Node.enter, halternatives, Node.pick_cons, Node.pick_nil]
      split
      · rfl
      · next h => rw [Node.part_void, Node.part_of_family_ne h]
    show Matches detection (observed path (after step {value})) ((node.enter step).descend path)
    rw [henter]
    exact hparts step path

/-- A scalar has no parts. -/
lemma explains_scalar {value : Value} {node : Node} {family : Kind}
    (hfamily : value.family? detection = some family) (hscalar : family ≠ .struct ∧ family ≠ .list)
    (halternatives : node.alternatives = [node]) (hnode : node.kind.family = family)
    (hfits : Fits detection {value} node) : Explains detection {value} node := by
  subst hnode
  refine explains_singleton halternatives hfamily hfits fun step => ?_
  have hstep : node.kind.family ≠ step.family := by
    cases step with
    | field name => exact hscalar.1
    | element => exact hscalar.2
  have hafter : after step {value} = ∅ := by
    refine after_singleton_eq_empty detection ?_
    rw [hfamily]
    exact fun h => hstep (Option.some.inj h)
  rw [hafter, Node.part_of_family_ne hstep]
  exact explains_empty rfl

/-! ### Numbers -/

lemma Double.placeOfInt_of_sign (negative : Bool) {n : ℕ} (h : 0 < n) :
    Double.placeOfInt (if negative then -(n : ℤ) else n) =
      if negative then -(Double.magnitudeOfRatio n 1 : ℤ) else Double.magnitudeOfRatio n 1 := by
  cases negative with
  | false =>
    have hneg : ¬ (n : ℤ) < 0 := by omega
    simp only [Bool.false_eq_true, if_false]
    rw [Double.placeOfInt, if_neg hneg, Int.natAbs_natCast]
  | true =>
    have hneg : -(n : ℤ) < 0 := by omega
    simp only [if_true]
    rw [Double.placeOfInt, if_pos hneg, Int.natAbs_neg, Int.natAbs_natCast]

lemma explains_whole {value : Value} {n : ℤ} {x : Double} (hwhole : value.whole? = some n)
    (hdouble : value.double? = some x) (hplace : x.place? = some (Double.placeOfInt n)) :
    Explains detection {value} (.integer n n) := by
  refine explains_scalar (value.family?_eq_of_double? hdouble) (by decide) rfl rfl ?_
  have hfraction : ∀ other ∈ ({value} : Set Value), ¬ other.IsFraction := by
    rintro other rfl hother
    cases hwhole.symm.trans hother.1
  refine .integer hfraction ?_ ?_ ?_ ?_
  · rw [wholes_singleton hwhole]
    exact isLeast_singleton
  · rw [wholes_singleton hwhole]
    exact isGreatest_singleton
  · rw [places_singleton hdouble hplace]
    exact isLeast_singleton
  · rw [places_singleton hdouble hplace]
    exact isGreatest_singleton

lemma explains_fraction {value : Value} {x : Double} (hwhole : value.whole? = none)
    (hdouble : value.double? = some x) (hnumber : x ≠ .nan) :
    Explains detection {value} (.floating x x) := by
  refine explains_scalar (value.family?_eq_of_double? hdouble) (by decide) rfl rfl ?_
  obtain ⟨n, hplace⟩ : ∃ n, x.place? = some n := by
    cases x with
    | nan => exact absurd rfl hnumber
    | number negative magnitude => exact ⟨_, Double.place?_number negative magnitude⟩
  refine .floating ⟨value, rfl, hwhole, x, hdouble⟩ hplace hplace ?_ ?_
  · rw [places_singleton hdouble hplace]
    exact isLeast_singleton
  · rw [places_singleton hdouble hplace]
    exact isGreatest_singleton

/-- A decimal with a point before its last digit, or without digits, is classified as the double
nearest to it. -/
lemma classifyDecimal_fraction {path : String} {value : Decimal} (hwhole : value.whole? = none)
    {node : Node} (h : classifyDecimal value path = .ok node) :
    ∃ x, value.toDouble? = some x ∧ node = .floating x x := by
  unfold classifyDecimal at h
  -- fractions and special values share a branch
  extract_lets fractional at h
  have hfractional : fractional = .ok node → ∃ x, value.toDouble? = some x ∧ node = .floating x x := by
    intro h
    cases hdouble : value.toDouble? with
    | none => simp [fractional, hdouble] at h
    | some x =>
      simp only [fractional, hdouble, Except.ok.injEq] at h
      exact ⟨x, rfl, h.symm⟩
  cases value with
  | finite negative coefficient exponent =>
    have hexponent : exponent < 0 := by
      by_contra hexponent
      simp [Decimal.whole?, hexponent] at hwhole
    dsimp only at h
    rw [if_pos hexponent] at h
    exact hfractional h
  | infinite | quietNaN | signalingNaN => exact hfractional h

/-- A decimal without digits after the point that can be classified is classified as its integer,
and rounds to the same place. -/
lemma classifyDecimal_whole {path : String} {value : Decimal} {n : ℤ} (hwhole : value.whole? = some n)
    {node : Node} (h : classifyDecimal value path = .ok node) : node = .integer n n ∧
      ∃ x, value.toDouble? = some x ∧ x.place? = some (Double.placeOfInt n) := by
  cases value with
  | infinite | quietNaN | signalingNaN => cases hwhole
  | finite negative coefficient exponent =>
    by_cases hexponent : exponent < 0
    · simp [Decimal.whole?, hexponent] at hwhole
    simp only [Decimal.whole?, if_neg hexponent, Option.some.injEq] at hwhole
    unfold classifyDecimal at h
    dsimp only at h
    rw [if_neg hexponent] at h
    by_cases hzero : coefficient = 0
    · subst hzero
      have hn : n = 0 := by
        rw [← hwhole]
        simp
      rw [if_pos rfl] at h
      cases h
      refine ⟨by rw [hn], .number negative 0, by simp [Decimal.toDouble?], ?_⟩
      rw [Double.place?_number, hn]
      have hplace : Double.placeOfInt 0 = 0 := by decide +kernel
      rw [hplace]
      simp
    · rw [if_neg hzero] at h
      by_cases hpower : 18 < Decimal.adjusted coefficient exponent
      · rw [if_pos hpower] at h
        cases h
      rw [if_neg hpower] at h
      have hinteger : classifyInteger n path = .ok node := by
        rw [← hwhole]
        exact h
      refine ⟨classifyInteger_eq_ok hinteger, .number negative
        (Double.magnitudeOfRatio (coefficient * 10 ^ exponent.toNat) 1), ?_, ?_⟩
      · have hlow : ¬ (coefficient = 0 ∨ Decimal.adjusted coefficient exponent < -400) := by
          rintro (h | h)
          · exact hzero h
          · unfold Decimal.adjusted at h
            omega
        simp only [Decimal.toDouble?]
        rw [if_neg hlow, if_neg (by omega), if_pos (by omega)]
        rfl
      · have hpos : 0 < coefficient * 10 ^ exponent.toNat :=
          Nat.mul_pos (Nat.pos_of_ne_zero hzero) (Nat.pow_pos (by decide))
        have hn : n = if negative then -((coefficient * 10 ^ exponent.toNat : ℕ) : ℤ)
            else ((coefficient * 10 ^ exponent.toNat : ℕ) : ℤ) := by
          rw [← hwhole]
          push_cast
          rfl
        rw [Double.place?_number, hn, Double.placeOfInt_of_sign negative hpos]

/-- A number without digits after the point that can be classified is classified as its integer,
and rounds to the same place. -/
lemma classify_of_whole? {path : String} {value : Value} {n : ℤ} (hwhole : value.whole? = some n)
    {node : Node} (h : classify detection path value = .ok node) : node = .integer n n ∧
      ∃ x, value.double? = some x ∧ x.place? = some (Double.placeOfInt n) := by
  cases value with
  | integer value =>
    obtain rfl : value = n := Option.some.inj hwhole
    rw [classify] at h
    exact ⟨classifyInteger_eq_ok h, _, rfl, Node.place?_ofInt value⟩
  | decimal value =>
    rw [classify] at h
    exact classifyDecimal_whole hwhole h
  | _ => cases hwhole

/-- Any other number that can be classified is classified as the double nearest to it. -/
lemma classify_of_isFraction {path : String} {value : Value} (hfraction : value.IsFraction)
    {node : Node} (h : classify detection path value = .ok node) :
    ∃ x, value.double? = some x ∧ node = .floating x x := by
  obtain ⟨hwhole, x, hdouble⟩ := hfraction
  cases value with
  | integer value => cases hwhole
  | decimal value =>
    rw [classify] at h
    exact classifyDecimal_fraction hwhole h
  | double value =>
    rw [classify] at h
    cases h
    exact ⟨value, rfl, rfl⟩
  | _ => cases hdouble

/-! ### Nulls and strings -/

lemma explains_null : Explains detection {.null} .null := by
  intro path
  cases path with
  | nil =>
    intro family
    refine .void ?_
    ext value
    constructor
    · rintro ⟨hvalue, hfamily⟩
      obtain rfl : value = .null := hvalue
      cases hfamily
    · intro hvalue
      cases hvalue
  | cons step path =>
    have hafter : after step {Value.null} = ∅ :=
      after_singleton_eq_empty detection (by simp [Value.family?])
    rw [observed, hafter, observed_empty, Node.descend, Node.enter_of_alternatives_eq_nil rfl,
      Node.descend_void]
    exact matches_empty rfl

lemma explains_string (text : String) :
    Explains detection {.string text} (classifyString detection text) := by
  rw [classifyString_eq]
  by_cases htimestamp : detection.IsTimestamp text
  · rw [if_pos htimestamp]
    have hfamily : (Value.string text).family? detection = some .timestamp := by
      rw [Value.family?, if_pos htimestamp]
    exact explains_scalar hfamily (by decide) rfl rfl (.timestamp (Set.singleton_nonempty _))
  rw [if_neg htimestamp]
  have hfamily : (Value.string text).family? detection = some .string := by
    rw [Value.family?, if_neg htimestamp]
  by_cases hbinary : detection.IsBinary text
  · rw [if_pos hbinary]
    refine explains_scalar hfamily (by decide) rfl rfl (.binary (Set.singleton_nonempty _) ?_)
    intro other hother
    cases hother
    exact hbinary
  · rw [if_neg hbinary]
    exact explains_scalar hfamily (by decide) rfl rfl (.string ⟨text, rfl, hbinary⟩)

/-! ### Arrays and objects -/

variable {path : String}

/-- An array is explained by the merge of the nodes of its elements. -/
lemma explains_array {items : List Value} {nodes : List Node} (h : List.Forall₂ (fun item node =>
      Explains detection {item} node ∧ node.IsSchema) items nodes) :
    Explains detection {.array items} (.list (nodes.foldl Node.merge .null)) := by
  refine explains_singleton rfl rfl (.list (Set.singleton_nonempty _)) fun step => ?_
  cases step with
  | field name =>
    rw [after_singleton_eq_empty detection (by simp [Value.family?, Step.family])]
    exact explains_empty rfl
  | element =>
    have hafter : after .element {Value.array items} = ∅ ∪ {item | item ∈ items} := by
      ext other
      rw [mem_after_singleton, Set.empty_union]
      constructor
      · intro hleads
        cases hleads with
        | item hmem => exact hmem
      · intro hmem
        exact .item hmem
    rw [hafter]
    exact (explains_empty rfl).foldl_merge (Or.inr .null) h

/-- An object is explained by a struct with a field for each of its members. -/
lemma explains_object {members : List (String × Value)} (distinct : (Value.names members).Nodup)
    {fields : List (String × Node)} (h : List.Forall₂ (fun member field => member.1 = field.1 ∧
      Explains detection {member.2} field.2) members fields) :
    Explains detection {.object members}
      (.ofFields fields (.ofList [shapeSignature (Value.names members)])) := by
  have hnames : Node.names fields = Value.names members := names_eq_of_forall₂ h
  refine explains_singleton rfl rfl (.struct (Set.singleton_nonempty _) ?_ ?_) fun step => ?_
  · intro name
    have hperm : (Node.names (Node.sortFields fields)).Perm (Node.names fields) :=
      (perm_sortBy _ _).map _
    rw [hperm.mem_iff, hnames]
    constructor
    · intro hname
      exact ⟨members, rfl, hname⟩
    · rintro ⟨others, hothers, hname⟩
      cases hothers
      exact hname
  · intro shape
    rw [ShapeSet.mem_ofList, List.mem_singleton]
    constructor
    · intro hshape
      exact ⟨members, rfl, hshape⟩
    · rintro ⟨others, hothers, hshape⟩
      cases hothers
      exact hshape
  cases step with
  | element =>
    rw [after_singleton_eq_empty detection (by simp [Value.family?, Step.family])]
    exact explains_empty rfl
  | field name =>
    show Explains detection _ (Node.fieldNode name (Node.sortFields fields))
    rw [Node.fieldNode_sortFields (hnames ▸ distinct)]
    by_cases hname : name ∈ Value.names members
    · -- there is one member of this name, and its node is that of the field
      obtain ⟨member, hmember, rfl⟩ := List.mem_map.mp hname
      obtain ⟨field, hfield, heq, hexplains⟩ := exists_of_mem_left h hmember
      have hafter : after (.field member.1) {Value.object members} = {member.2} := by
        ext other
        rw [mem_after_singleton, Set.mem_singleton_iff]
        constructor
        · intro hleads
          cases hleads with
          | member hmem =>
            have hsame := List.inj_on_of_nodup_map distinct hmem hmember rfl
            rw [← hsame]
        · rintro rfl
          exact .member hmember
      rw [hafter, heq, Node.fieldNode_of_mem (hnames ▸ distinct) hfield]
      exact hexplains
    · have hafter : after (.field name) {Value.object members} = ∅ := by
        ext other
        rw [mem_after_singleton]
        constructor
        · intro hleads
          cases hleads with
          | member hmem => exact absurd (List.mem_map_of_mem hmem) hname
        · intro hmem
          cases hmem
      rw [hafter, Node.fieldNode_eq_void_of_notMem (hnames ▸ hname)]
      exact explains_empty rfl

/-! ### All values -/

/-- A clean value is explained by the node that it is classified as. -/
theorem explains_of_classify {value : Value} (hclean : value.Clean) {node : Node}
    (h : classify detection path value = .ok node) : Explains detection {value} node := by
  -- the location changes on the way down, so it is generalized
  induction hclean generalizing path node with
  | null =>
    rw [classify] at h
    cases h
    exact explains_null
  | unsupported =>
    rw [classify] at h
    cases h
  | boolean value =>
    rw [classify] at h
    cases h
    exact explains_scalar rfl (by decide) rfl rfl (.boolean (Set.singleton_nonempty _))
  | integer value =>
    rw [classify] at h
    rw [classifyInteger_eq_ok h]
    exact explains_whole rfl rfl (Node.place?_ofInt value)
  | @decimal value quiet _ =>
    rw [classify] at h
    cases hwhole : value.whole? with
    | some n =>
      obtain ⟨rfl, x, hdouble, hplace⟩ := classifyDecimal_whole hwhole h
      exact explains_whole hwhole hdouble hplace
    | none =>
      obtain ⟨x, hdouble, rfl⟩ := classifyDecimal_fraction hwhole h
      have hnumber : x ≠ .nan := by
        rintro rfl
        exact toDouble?_ne_nan quiet hdouble
      exact explains_fraction hwhole hdouble hnumber
  | double number =>
    rw [classify] at h
    cases h
    exact explains_fraction rfl rfl number
  | string text =>
    rw [classify] at h
    cases h
    exact explains_string text
  | @array items clean ih =>
    obtain ⟨nodes, hnodes, rfl⟩ := classify_array_eq_ok_iff.mp h
    refine explains_array (forall₂_of_mem hnodes fun item hitem node hok => ?_)
    exact ⟨ih item hitem hok, Or.inr (recorded_of_classify (clean item hitem) hok).canonical⟩
  | @object members distinct clean ih =>
    obtain ⟨fields, hfields, rfl⟩ := classify_object_eq_ok_iff.mp h
    refine explains_object distinct (forall₂_of_mem hfields fun member hmember field hfield => ?_)
    exact ⟨hfield.1, ih member hmember hfield.2⟩

/-! ### Lists of records -/

/-- Clean records are explained by their schema. -/
theorem explains_of_infer {records : List Value} (hclean : ∀ record ∈ records, record.Clean)
    {node : Node} (h : Node.infer detection records = .ok node) :
    Explains detection {record | record ∈ records} node := by
  obtain ⟨nodes, hnodes, rfl⟩ := infer_eq_ok_iff.mp h
  rw [← Set.empty_union {record | record ∈ records}]
  refine (explains_empty rfl).foldl_merge (Or.inl rfl) ?_
  refine forall₂_of_mem hnodes fun record hrecord node hok => ⟨?_, ?_⟩
  · exact explains_of_classify (hclean record hrecord) hok
  · exact Or.inr (recorded_of_classify (hclean record hrecord) hok).canonical

end RecordSchema
