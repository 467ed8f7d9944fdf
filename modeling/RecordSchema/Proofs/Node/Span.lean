import RecordSchema.Proofs.Node.Parts

/-!
# The span of a number node

A node for numbers, with integer or with floating-point bounds, spans the places from the double
nearest to its lower bound to the double nearest to its upper bound.  Merging two such nodes joins
their spans, whether integers are rounded on the way or not (`Spans.merge`).
-/

namespace RecordSchema

namespace Double

lemma atMost_iff {a b : Double} {x y : ℤ} (ha : a.place? = some x) (hb : b.place? = some y) :
    a.AtMost b ↔ x ≤ y := by
  simp [AtMost, ha, hb]

/-- Doubles are equal if neither is below the other. -/
lemma eqv_iff_atMost {a b : Double} : a.eqv b = true ↔ a.AtMost b ∧ b.AtMost a := by
  cases ha : a.place? with
  | none => simp [eqv, AtMost, ha]
  | some x =>
    cases hb : b.place? with
    | none => simp [eqv, AtMost, ha, hb]
    | some y =>
      rw [atMost_iff ha hb, atMost_iff hb ha, ← le_antisymm_iff]
      simp only [eqv, ha, hb, decide_eq_true_eq]

end Double

namespace Node

/-- The node has numbers from the first place to the second. -/
inductive Spans : Node → ℤ → ℤ → Prop
  | integer (min max : ℤ) :
      Spans (.integer min max) (Double.placeOfInt min) (Double.placeOfInt max)
  | floating {min max : Double} {x y : ℤ} (lower : min.place? = some x)
      (upper : max.place? = some y) : Spans (.floating min max) x y

lemma place?_ofInt (n : ℤ) : (Double.ofInt n).place? = some (Double.placeOfInt n) := by
  rw [Double.ofInt_eq_ofPlace, Double.place?_ofPlace]

/-- A canonical node for numbers has a span. -/
lemma CanonicalWith.exists_spans {Seen : ShapeSet → Prop} {node : Node}
    (h : CanonicalWith Seen node) (hfamily : node.kind.family = .floating) :
    ∃ x y, Spans node x y := by
  cases h with
  | integer => exact ⟨_, _, .integer _ _⟩
  | floating ordered =>
    obtain ⟨x, y, hx, hy, -⟩ := ordered
    exact ⟨x, y, .floating hx hy⟩
  | _ => simp [kind, Kind.family] at hfamily

/-- Merging numbers joins their spans. -/
theorem Spans.merge {a b : Node} {x y z w : ℤ} (h : Spans a x y) (h' : Spans b z w) :
    Spans (a.merge b) (min x z) (max y w) := by
  cases h with
  | integer =>
    cases h' with
    | integer =>
      rw [merge_integers, ← Double.placeOfInt_mono.map_min, ← Double.placeOfInt_mono.map_max]
      exact .integer _ _
    | floating lower upper =>
      -- the floating-point bounds come first
      rw [merge_integer_floating, min_comm, max_comm]
      exact .floating (Double.place?_min lower (place?_ofInt _))
        (Double.place?_max upper (place?_ofInt _))
  | floating lower upper =>
    cases h' with
    | integer =>
      rw [merge_floating_integer]
      exact .floating (Double.place?_min lower (place?_ofInt _))
        (Double.place?_max upper (place?_ofInt _))
    | floating lower' upper' =>
      rw [merge_floatings]
      exact .floating (Double.place?_min lower lower') (Double.place?_max upper upper')

end Node

end RecordSchema
