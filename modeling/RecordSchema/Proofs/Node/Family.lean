import RecordSchema.Proofs.Node.Induction

/-!
# Merging within a family and across families

A level of merging does one of two things.  Two nodes of one family are combined into a node of
that family, by a rule for every pair of their kinds; `Alike` lists these pairs.  Of two nodes of
different families one that stands for nothing or for nulls gives way, and the others are united.
-/

namespace RecordSchema

lemma Kind.rank_injective {k l : Kind} (h : k.rank = l.rank) : k = l := by
  cases k <;> cases l <;> first | rfl | exact absurd h (by decide)

namespace Node

/-- The pairs of nodes of one family. -/
inductive Alike : Node → Node → Prop
  | void : Alike .void .void
  | null : Alike .null .null
  | boolean : Alike .boolean .boolean
  | integers (a b c d : ℤ) : Alike (.integer a b) (.integer c d)
  | floatings (a b c d : Double) : Alike (.floating a b) (.floating c d)
  | integerFloating (a b : ℤ) (c d : Double) : Alike (.integer a b) (.floating c d)
  | floatingInteger (c d : Double) (a b : ℤ) : Alike (.floating c d) (.integer a b)
  | strings : Alike .string .string
  | binaries : Alike .binary .binary
  | stringBinary : Alike .string .binary
  | binaryString : Alike .binary .string
  | timestamp : Alike .timestamp .timestamp
  | structs (fields others : List (String × Node)) (shapes otherShapes : ShapeSet) :
      Alike (.struct fields shapes) (.struct others otherShapes)
  | lists (element other : Node) : Alike (.list element) (.list other)
  | unions (children others : List Node) : Alike (.union children) (.union others)

lemma alike_of_family_eq {a b : Node} (h : a.kind.family = b.kind.family) : Alike a b := by
  cases a <;> cases b <;> first | constructor | exact absurd h (by simp [kind, Kind.family])

lemma Alike.family_eq {a b : Node} (h : Alike a b) : a.kind.family = b.kind.family := by
  cases h <;> rfl

lemma eq_void_of_kind {a : Node} (h : a.kind = .void) : a = .void := by
  cases a <;> simp_all [kind]

lemma eq_union_of_kind {a : Node} (h : a.kind = .union) : ∃ children, a = .union children := by
  cases a <;> simp_all [kind]

variable {combine : Node → Node → Node}

/-! ### Lists of parts, one by one -/

lemma absorb_cons (node child : Node) (children : List Node) :
    absorb combine node (child :: children) =
      if child.kind.family = node.kind.family then combine child node :: children
      else child :: absorb combine node children := rfl

lemma absorbField_cons (name : String) (node : Node) (field : String × Node)
    (fields : List (String × Node)) :
    absorbField combine name node (field :: fields) =
      if field.1 = name then (field.1, combine field.2 node) :: fields
      else field :: absorbField combine name node fields := rfl

@[simp] lemma mergeFields_nil (left : List (String × Node)) : mergeFields combine left [] = left :=
  rfl

lemma mergeFields_cons (left : List (String × Node)) (field : String × Node)
    (right : List (String × Node)) :
    mergeFields combine left (field :: right) =
      mergeFields combine (absorbField combine field.1 field.2 left) right := rfl

/-! ### One level -/

@[simp] lemma mergeLevel_void_left (b : Node) : mergeLevel combine .void b = b := rfl

@[simp] lemma mergeLevel_void_right (a : Node) : mergeLevel combine a .void = a := by
  cases a <;> rfl

lemma mergeLevel_null_left {b : Node} (h : b ≠ .void) : mergeLevel combine .null b = b := by
  cases b <;> first | rfl | exact absurd rfl h

lemma mergeLevel_null_right {a : Node} (h : a ≠ .void) : mergeLevel combine a .null = a := by
  cases a <;> first | rfl | exact absurd rfl h

/-- A node that takes a place among alternatives: something other than null was observed. -/
def IsPresent (node : Node) : Prop := node ≠ .void ∧ node ≠ .null

instance (node : Node) : Decidable node.IsPresent :=
  decidable_of_iff (node.kind ≠ .void ∧ node.kind ≠ .null) (by
    cases node <;> simp [IsPresent, kind])

lemma eq_void_or_eq_null_or_isPresent (node : Node) :
    node = .void ∨ node = .null ∨ node.IsPresent := by
  unfold IsPresent
  tauto

/-- Across families, nodes that are present are united. -/
lemma mergeLevel_of_family_ne {a b : Node} (ha : a.IsPresent) (hb : b.IsPresent)
    (h : a.kind.family ≠ b.kind.family) : mergeLevel combine a b = unite combine a b := by
  obtain ⟨hvoid, hnull⟩ := ha
  obtain ⟨hvoid', hnull'⟩ := hb
  cases a <;> cases b <;> first | rfl | contradiction

lemma unite_union_right {a : Node} (ha : a.kind ≠ .union) (children : List Node) :
    unite combine a (.union children) = .union (insertAlternative combine children a) := by
  cases a <;> first | rfl | exact absurd rfl ha

lemma unite_of_kind_ne_union {a b : Node} (ha : a.kind ≠ .union) (hb : b.kind ≠ .union) :
    unite combine a b = .union (sortAlternatives [a, b]) := by
  cases a <;> cases b <;> first | rfl | exact absurd rfl ha | exact absurd rfl hb

/-- Within a family, merging stays in the family. -/
lemma family_mergeLevel {a b : Node} (h : a.kind.family = b.kind.family) :
    (mergeLevel combine a b).kind.family = a.kind.family := by
  cases alike_of_family_eq h <;> rfl

end Node

end RecordSchema
