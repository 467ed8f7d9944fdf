import RecordSchema.Proofs.Inference.NumericType

/-!
# NaN among numbers

NaN is neither below nor above any number.  So a bound that is a number is never replaced by NaN,
and a bound that is NaN never gives way.  Which of the two happens to a list of numbers is decided
by the first one that is no integer: before it there are no floating-point bounds, and its double
comes first in the comparison with the bounds of the integers.

If that double is NaN, both bounds stay NaN, and the numbers around it leave no trace.  Otherwise
the bounds are the least and the greatest of all numbers, wherever NaN stands among the rest
(`infer_numbers`).
-/

namespace RecordSchema

variable {detection : Detection} {path : String}

lemma places_empty : places ∅ = ∅ := by
  ext n
  simp [places, doubles]

/-! ### Comparisons with NaN -/

namespace Double

@[simp] lemma lt_nan_left (x : Double) : nan.lt x = false := rfl

@[simp] lemma lt_nan_right (x : Double) : x.lt nan = false := by
  cases x <;> simp [lt, place?]

@[simp] lemma min_nan_left (x : Double) : nan.min x = nan := by
  simp [Double.min]

@[simp] lemma max_nan_left (x : Double) : nan.max x = nan := by
  simp [Double.max]

@[simp] lemma min_nan_right (x : Double) : x.min nan = x := by
  simp [Double.min]

@[simp] lemma max_nan_right (x : Double) : x.max nan = x := by
  simp [Double.max]

end Double

/-! ### Single numbers -/

/-- A number that can be classified has a double. -/
lemma exists_double_of_classify {value : Value} (hnumber : value.IsNumber) {node : Node}
    (h : classify detection path value = .ok node) : ∃ x, value.double? = some x := by
  cases value with
  | integer n => exact ⟨_, rfl⟩
  | double x => exact ⟨x, rfl⟩
  | decimal value =>
    cases hwhole : (Value.decimal value).whole? with
    | some n =>
      obtain ⟨-, x, hdouble, -⟩ := classify_of_whole? hwhole h
      exact ⟨x, hdouble⟩
    | none =>
      rw [classify] at h
      obtain ⟨x, hdouble, -⟩ := classifyDecimal_fraction hwhole h
      exact ⟨x, hdouble⟩
  | _ => cases hnumber

/-- The node of a number spans the place of its double, unless that is NaN. -/
lemma spans_of_classify {value : Value} (hnumber : value.IsNumber) {node : Node}
    (h : classify detection path value = .ok node) :
    (value.double? = some .nan ∧ node = .floating .nan .nan) ∨
      ∃ x n, value.double? = some x ∧ x.place? = some n ∧ Node.Spans node n n := by
  cases hwhole : value.whole? with
  | some n =>
    obtain ⟨rfl, x, hdouble, hplace⟩ := classify_of_whole? hwhole h
    exact Or.inr ⟨x, _, hdouble, hplace, .integer n n⟩
  | none =>
    obtain ⟨x, hdouble, rfl⟩ :=
      classify_of_isFraction ⟨hwhole, exists_double_of_classify hnumber h⟩ h
    cases x with
    | nan => exact Or.inl ⟨hdouble, rfl⟩
    | number negative magnitude =>
      have hplace := Double.place?_number negative magnitude
      exact Or.inr ⟨_, _, hdouble, hplace, .floating hplace hplace⟩

/-- Floating-point bounds stay in front when they are compared with a number. -/
lemma Node.Spans.exists_merge_floating {node : Node} {low high : ℤ} (h : Node.Spans node low high)
    (c d : Double) : ∃ x y, (Node.floating c d).merge node = .floating (c.min x) (d.max y) := by
  cases h with
  | integer => exact ⟨_, _, Node.merge_floating_integer c d _ _⟩
  | floating => exact ⟨_, _, Node.merge_floatings c d _ _⟩

/-! ### Enclosed numbers -/

/-- The node spans the numbers among the values, from the least to the greatest, where NaN does not
count. -/
inductive Encloses (values : Set Value) : Node → Prop
  | nothing (none : places values = ∅) : Encloses values .void
  | numbers {node : Node} {low high : ℤ} (spans : Node.Spans node low high)
      (least : IsLeast (places values) low) (greatest : IsGreatest (places values) high) :
      Encloses values node

namespace Encloses

variable {values : Set Value}

/-- One more number is joined to the span. -/
lemma add {start : Node} (h : Encloses values start) {value : Value} {x : Double} {n : ℤ}
    (hdouble : value.double? = some x) (hplace : x.place? = some n) {node : Node}
    (hspans : Node.Spans node n n) : Encloses (values ∪ {value}) (start.merge node) := by
  cases h with
  | nothing none =>
    have hplaces : places (values ∪ {value}) = {n} := by
      rw [places_union, none, Set.empty_union, places_singleton hdouble hplace]
    rw [Node.merge_void_left]
    refine .numbers hspans ?_ ?_
    · rw [hplaces]
      exact isLeast_singleton
    · rw [hplaces]
      exact isGreatest_singleton
  | numbers spans least greatest =>
    refine .numbers (spans.merge hspans) ?_ ?_
    · rw [places_union, places_singleton hdouble hplace]
      exact least.union isLeast_singleton
    · rw [places_union, places_singleton hdouble hplace]
      exact greatest.union isGreatest_singleton

/-- A NaN more does not change what is enclosed. -/
lemma add_nan {node : Node} (h : Encloses values node) {value : Value}
    (hdouble : value.double? = some .nan) : Encloses (values ∪ {value}) node := by
  have hplaces : places (values ∪ {value}) = places values := by
    rw [places_union]
    refine Set.union_eq_self_of_subset_right ?_
    rintro n ⟨x, ⟨other, rfl, hother⟩, hplace⟩
    rw [hdouble] at hother
    cases hother
    cases hplace
  cases h with
  | nothing none => exact .nothing (hplaces.trans none)
  | numbers spans least greatest =>
    rw [← hplaces] at least greatest
    exact .numbers spans least greatest

/-- Floating-point bounds that are numbers take in all further numbers and pass over NaN. -/
lemma foldl_numbers {c d : Double} (h : Encloses values (.floating c d)) {items : List Value}
    (hnumbers : ∀ item ∈ items, item.IsNumber) {nodes : List Node}
    (hnodes : List.Forall₂ (fun item node => classify detection path item = .ok node) items nodes) :
    ∃ min max, nodes.foldl Node.merge (.floating c d) = .floating min max ∧
      Encloses (values ∪ {item | item ∈ items}) (.floating min max) := by
  induction hnodes generalizing values c d with
  | nil =>
    rw [union_mem_nil]
    exact ⟨c, d, rfl, h⟩
  | @cons item node items nodes hnode _ ih =>
    obtain ⟨hnumber, hnumbers⟩ := List.forall_mem_cons.mp hnumbers
    rw [union_mem_cons, List.foldl_cons]
    rcases spans_of_classify hnumber hnode with ⟨hnan, rfl⟩ | ⟨x, n, hdouble, hplace, hspans⟩
    · rw [Node.merge_floatings, Double.min_nan_right, Double.max_nan_right]
      exact ih (h.add_nan hnan) hnumbers
    · obtain ⟨y, z, hmerge⟩ := hspans.exists_merge_floating c d
      have hnext := h.add hdouble hplace hspans
      rw [hmerge] at hnext ⊢
      exact ih hnext hnumbers

end Encloses

/-- Bounds that are NaN stay NaN. -/
lemma foldl_merge_nan {items : List Value} (hnumbers : ∀ item ∈ items, item.IsNumber)
    {nodes : List Node}
    (hnodes : List.Forall₂ (fun item node => classify detection path item = .ok node) items nodes) :
    nodes.foldl Node.merge (.floating .nan .nan) = .floating .nan .nan := by
  induction hnodes with
  | nil => rfl
  | @cons item node items nodes hnode _ ih =>
    obtain ⟨hnumber, hnumbers⟩ := List.forall_mem_cons.mp hnumbers
    have hmerge : (Node.floating .nan .nan).merge node = .floating .nan .nan := by
      rcases spans_of_classify hnumber hnode with ⟨-, rfl⟩ | ⟨x, n, -, -, hspans⟩
      · rw [Node.merge_floatings, Double.min_nan_left, Double.max_nan_left]
      · obtain ⟨y, z, hmerge⟩ := hspans.exists_merge_floating .nan .nan
        rw [hmerge, Double.min_nan_left, Double.max_nan_left]
    rw [List.foldl_cons, hmerge]
    exact ih hnumbers

/-! ### Lists of numbers -/

/-- The first number of a list that is no integer, if there is one. -/
def firstFraction? (records : List Value) : Option Value :=
  records.find? fun record => record.whole?.isNone

/-- Bounds that enclose the numbers among the values, and the name that they are printed with. -/
structure IsTight (values : Set Value) (min max : Double) : Prop where
  /-- The lower bound is the least of the numbers. -/
  least : ∃ low, min.place? = some low ∧ IsLeast (places values) low
  /-- The upper bound is the greatest of them. -/
  greatest : ∃ high, max.place? = some high ∧ IsGreatest (places values) high
  contains : ∀ x ∈ doubles values, x ≠ .nan → min.AtMost x ∧ x.AtMost max
  name : (Node.floating min max).typeText = "float" ↔
    ∀ x ∈ doubles values, x ≠ .nan → x.FitsSingle

lemma Encloses.isTight {values : Set Value} {min max : Double}
    (h : Encloses values (.floating min max)) : IsTight values min max := by
  cases h with
  | numbers spans least greatest =>
    cases spans with
    | floating lower upper =>
      refine ⟨⟨_, lower, least⟩, ⟨_, upper, greatest⟩, ?_,
        floatingTypeName_eq_float_iff_of_ne_nan lower upper least greatest⟩
      intro x hx hnumber
      cases x with
      | nan => exact absurd rfl hnumber
      | number negative magnitude =>
        have hplace := Double.place?_number negative magnitude
        rw [Double.atMost_iff lower hplace, Double.atMost_iff hplace upper]
        exact ⟨least.2 ⟨_, hx, hplace⟩, greatest.2 ⟨_, hx, hplace⟩⟩

/-- Before the first fraction there are integer bounds at most, so its double comes first. -/
lemma exists_merge_fraction {start : Node} (hstart : start = .void ∨ ∃ a b, start = .integer a b)
    (x : Double) : ∃ c d, start.merge (.floating x x) = .floating c d ∧
      (x = .nan → c = .nan ∧ d = .nan) := by
  rcases hstart with rfl | ⟨a, b, rfl⟩
  · exact ⟨x, x, Node.merge_void_left _, fun h => ⟨h, h⟩⟩
  · refine ⟨_, _, Node.merge_integer_floating a b x x, ?_⟩
    rintro rfl
    exact ⟨Double.min_nan_left _, Double.max_nan_left _⟩

/-- Integers are joined one after the other until the first fraction, whose double decides. -/
lemma Encloses.foldl_of_firstFraction? {values : Set Value} {start : Node}
    (h : Encloses values start) (hstart : start = .void ∨ ∃ a b, start = .integer a b)
    {records : List Value} (hnumbers : ∀ record ∈ records, record.IsNumber) {nodes : List Node}
    (hnodes : List.Forall₂ (fun record node => classify detection path record = .ok node)
      records nodes) {first : Value} (hfirst : firstFraction? records = some first) :
    ∃ min max, nodes.foldl Node.merge start = .floating min max ∧
      (first.double? = some .nan → min = .nan ∧ max = .nan) ∧
      (first.double? ≠ some .nan →
        Encloses (values ∪ {record | record ∈ records}) (.floating min max)) := by
  induction hnodes generalizing values start with
  | nil => cases hfirst
  | @cons record node records nodes hnode hnodes ih =>
    obtain ⟨hnumber, hnumbers⟩ := List.forall_mem_cons.mp hnumbers
    rw [union_mem_cons, List.foldl_cons]
    cases hwhole : record.whole? with
    | some n =>
      obtain ⟨rfl, x, hdouble, hplace⟩ := classify_of_whole? hwhole hnode
      have hrest : firstFraction? records = some first := by
        simpa [firstFraction?, hwhole] using hfirst
      have hnext : start.merge (.integer n n) = .void ∨
          ∃ a b, start.merge (.integer n n) = .integer a b := by
        rcases hstart with rfl | ⟨a, b, rfl⟩
        · exact Or.inr ⟨n, n, Node.merge_void_left _⟩
        · exact Or.inr ⟨_, _, Node.merge_integers a b n n⟩
      exact ih (h.add hdouble hplace (.integer n n)) hnext hnumbers hrest
    | none =>
      obtain rfl : record = first := by
        simpa [firstFraction?, hwhole] using hfirst
      obtain ⟨x, hdouble, rfl⟩ :=
        classify_of_isFraction ⟨hwhole, exists_double_of_classify hnumber hnode⟩ hnode
      obtain ⟨c, d, hmerge, hnan⟩ := exists_merge_fraction hstart x
      rw [hmerge, hdouble]
      cases x with
      | nan =>
        obtain ⟨rfl, rfl⟩ := hnan rfl
        exact ⟨.nan, .nan, foldl_merge_nan hnumbers hnodes, fun _ => ⟨rfl, rfl⟩,
          fun hne => absurd rfl hne⟩
      | number negative magnitude =>
        have hplace := Double.place?_number negative magnitude
        have hjoined := h.add hdouble hplace (.floating hplace hplace)
        rw [hmerge] at hjoined
        obtain ⟨min, max, hresult, hall⟩ := hjoined.foldl_numbers hnumbers hnodes
        exact ⟨min, max, hresult, nofun, fun _ => hall⟩

/-- What is inferred for numbers that are not all integers. -/
lemma exists_infer_of_firstFraction? {records : List Value}
    (hnumbers : ∀ record ∈ records, record.IsNumber)
    (hclassifies : ∀ record ∈ records, ∃ node, classify detection recordPath record = .ok node)
    {first : Value} (hfirst : firstFraction? records = some first) :
    ∃ min max, Node.infer detection records = .ok (.floating min max) ∧
      (first.double? = some .nan → min = .nan ∧ max = .nan) ∧
      (first.double? ≠ some .nan → IsTight {record | record ∈ records} min max) := by
  obtain ⟨nodes, hnodes⟩ := exists_forall₂ hclassifies
  obtain ⟨min, max, hresult, hnan, hencloses⟩ :=
    (Encloses.nothing places_empty).foldl_of_firstFraction? (Or.inl rfl) hnumbers hnodes hfirst
  refine ⟨min, max, infer_eq_ok_iff.mpr ⟨nodes, hnodes, hresult⟩, hnan, ?_⟩
  intro hdouble
  have hall := hencloses hdouble
  rw [Set.empty_union] at hall
  exact hall.isTight

/-- Bounds that enclose the same numbers are printed with the same name. -/
lemma IsTight.typeText_eq {values : Set Value} {min max low high : Double}
    (h : IsTight values min max) (h' : IsTight values low high) :
    (Node.floating min max).typeText = (Node.floating low high).typeText := by
  have hiff : floatingTypeName min max = "float" ↔ floatingTypeName low high = "float" :=
    h.name.trans h'.name.symm
  show floatingTypeName min max = floatingTypeName low high
  rcases floatingTypeName_eq_or low high with hfloat | hdouble
  · rw [hfloat, hiff.mpr hfloat]
  · rcases floatingTypeName_eq_or min max with hfloat' | hdouble'
    · rw [hfloat', hiff.mp hfloat']
    · rw [hdouble, hdouble']

/-- The bounds that are inferred for numbers depend on the first one that is no integer.  If its
double is NaN, both of them are NaN and are printed as `float`, whatever numbers were observed.
Otherwise they are the least and the greatest of all numbers, and are printed with the same name in
every order of the numbers that does not put a NaN in its place. -/
theorem infer_numbers {records : List Value} (hnumbers : ∀ record ∈ records, record.IsNumber)
    (hclassifies : ∀ record ∈ records, ∃ node, classify detection recordPath record = .ok node)
    {first : Value} (hfirst : firstFraction? records = some first) :
    ∃ min max, Node.infer detection records = .ok (.floating min max) ∧
      (first.double? = some .nan →
        min = .nan ∧ max = .nan ∧ (Node.floating min max).typeText = "float") ∧
      (first.double? ≠ some .nan → IsTight {record | record ∈ records} min max ∧
        ∀ {others : List Value} {other : Value}, records.Perm others →
          firstFraction? others = some other → other.double? ≠ some .nan →
          ∃ node, Node.infer detection others = .ok node ∧
            node.typeText = (Node.floating min max).typeText) := by
  obtain ⟨min, max, hinfer, hnan, htight⟩ :=
    exists_infer_of_firstFraction? hnumbers hclassifies hfirst
  refine ⟨min, max, hinfer, ?_, ?_⟩
  · intro hdouble
    obtain ⟨rfl, rfl⟩ := hnan hdouble
    exact ⟨rfl, rfl, by decide⟩
  · intro hdouble
    refine ⟨htight hdouble, ?_⟩
    intro others other hperm hother hdouble'
    obtain ⟨low, high, hinfer', -, htight'⟩ := exists_infer_of_firstFraction?
      (fun record hrecord => hnumbers record (hperm.mem_iff.mpr hrecord))
      (fun record hrecord => hclassifies record (hperm.mem_iff.mpr hrecord)) hother
    have hset : {record | record ∈ others} = {record | record ∈ records} := by
      ext record
      exact hperm.mem_iff.symm
    have hsame := htight' hdouble'
    rw [hset] at hsame
    exact ⟨_, hinfer', hsame.typeText_eq (htight hdouble)⟩

/-- A NaN after a number that exceeds the 32-bit format changes nothing: the bounds contain the
number, and are printed as `double`. -/
theorem infer_numbers_before_nan : ∃ min max,
    Node.infer {} [.integer 1, .double (.number false 0x48078287f49c4a1d), .double .nan] =
      .ok (.floating min max) ∧
    min.AtMost (.number false 0x48078287f49c4a1d) ∧
    (Double.number false 0x48078287f49c4a1d).AtMost max ∧
    ¬ (Node.floating min max).typeText = "float" := by
  have hrecords : ∀ record ∈ [Value.integer 1, .double (.number false 0x48078287f49c4a1d),
      .double .nan], record.IsNumber ∧ ∃ node, classify {} recordPath record = .ok node := by
    intro record hrecord
    simp only [List.mem_cons, List.not_mem_nil, or_false] at hrecord
    rcases hrecord with rfl | rfl | rfl
    · exact ⟨trivial, _, rfl⟩
    · exact ⟨trivial, _, rfl⟩
    · exact ⟨trivial, _, rfl⟩
  have hfirst : firstFraction? [.integer 1, .double (.number false 0x48078287f49c4a1d),
      .double .nan] = some (.double (.number false 0x48078287f49c4a1d)) := rfl
  obtain ⟨min, max, hinfer, -, hnumber⟩ :=
    infer_numbers (fun record hrecord => (hrecords record hrecord).1)
      (fun record hrecord => (hrecords record hrecord).2) hfirst
  obtain ⟨htight, -⟩ := hnumber (by decide)
  have hmem : Double.number false 0x48078287f49c4a1d ∈ doubles {record | record ∈
      [Value.integer 1, .double (.number false 0x48078287f49c4a1d), .double .nan]} :=
    ⟨_, List.mem_cons_of_mem _ List.mem_cons_self, rfl⟩
  obtain ⟨hlower, hupper⟩ := htight.contains _ hmem (by decide)
  refine ⟨min, max, hinfer, hlower, hupper, ?_⟩
  intro hfloat
  exact absurd (htight.name.mp hfloat _ hmem (by decide)) (by decide)

/-- A NaN that comes first hides the number after it: the bounds do not contain it, and the name
differs from that of the same two numbers in the other order. -/
theorem infer_nan_hides_number :
    Node.infer {} [.double .nan, .double (.number false 0x48078287f49c4a1d)] =
      .ok (.floating .nan .nan) ∧
    ¬ Double.AtMost .nan (.number false 0x48078287f49c4a1d) ∧
    (Node.infer {} [.double .nan, .double (.number false 0x48078287f49c4a1d)]).map Node.typeText =
      .ok "float" ∧
    (Node.infer {} [.double (.number false 0x48078287f49c4a1d), .double .nan]).map Node.typeText =
      .ok "double" := by
  refine ⟨rfl, by decide, ?_, ?_⟩
  · decide
  · decide

end RecordSchema
