import RecordSchema.Sorting

/-!
# Sets of shapes

The shape of an object is its sorted key list, written as one text.  A struct remembers every
shape that went into it.  A set of shapes is kept as its strictly increasing list, so two sets
with the same members are the same value.
-/

namespace RecordSchema

/-- The keys in increasing order, joined by commas.  A repeated key is written repeatedly. -/
def shapeSignature (keys : List String) : String :=
  ",".intercalate (sortBy (fun a b => decide (a ≤ b)) keys)

/-- Add an entry to a strictly increasing list, unless it is there already. -/
def insertDistinct (s : String) : List String → List String
  | [] => [s]
  | t :: ts =>
    if s < t then s :: t :: ts else if t < s then t :: insertDistinct s ts else t :: ts

theorem mem_insertDistinct {s x : String} {ts : List String} :
    x ∈ insertDistinct s ts ↔ x = s ∨ x ∈ ts := by
  induction ts with
  | nil => simp [insertDistinct]
  | cons t ts ih =>
    unfold insertDistinct
    split
    · simp
    · split
      · simp only [List.mem_cons, ih]
        exact or_left_comm
      · -- neither is below the other, so they are the same text
        next h₁ h₂ =>
        have hst : s = t := String.le_antisymm (String.not_lt.mp h₂) (String.not_lt.mp h₁)
        subst hst
        simp

theorem increasing_insertDistinct (s : String) {ts : List String}
    (h : ts.Pairwise (· < ·)) : (insertDistinct s ts).Pairwise (· < ·) := by
  induction ts with
  | nil => simp [insertDistinct]
  | cons t ts ih =>
    obtain ⟨hhead, htail⟩ := List.pairwise_cons.mp h
    unfold insertDistinct
    split
    · next hst =>
      refine List.pairwise_cons.mpr ⟨fun x hx => ?_, h⟩
      rcases List.mem_cons.mp hx with rfl | hx
      · exact hst
      · exact String.lt_trans hst (hhead x hx)
    · split
      · next hts =>
        refine List.pairwise_cons.mpr ⟨fun x hx => ?_, ih htail⟩
        rcases mem_insertDistinct.mp hx with rfl | hx
        · exact hts
        · exact hhead x hx
      · exact h

/-- A set of shapes, as the strictly increasing list of its members. -/
structure ShapeSet where
  /-- The members in increasing order. -/
  toList : List String
  increasing : toList.Pairwise (· < ·)
deriving DecidableEq

namespace ShapeSet

/-- The set without a member. -/
def empty : ShapeSet := ⟨[], List.Pairwise.nil⟩

instance : Inhabited ShapeSet := ⟨empty⟩

/-- The set with one more member. -/
def insert (s : String) (shapes : ShapeSet) : ShapeSet :=
  ⟨insertDistinct s shapes.toList, increasing_insertDistinct s shapes.increasing⟩

/-- The set of the entries of a list. -/
def ofList (shapes : List String) : ShapeSet := shapes.foldr insert empty

/-- The members of either set. -/
def union (left right : ShapeSet) : ShapeSet := right.toList.foldr insert left

@[simp] theorem mem_insert {s x : String} {shapes : ShapeSet} :
    x ∈ (shapes.insert s).toList ↔ x = s ∨ x ∈ shapes.toList :=
  mem_insertDistinct

@[simp] theorem mem_ofList {x : String} {shapes : List String} :
    x ∈ (ofList shapes).toList ↔ x ∈ shapes := by
  induction shapes with
  | nil => simp [ofList, empty]
  | cons s shapes ih =>
    rw [ofList, List.foldr_cons, mem_insert, List.mem_cons]
    exact or_congr_right ih

@[simp] theorem mem_union {x : String} {left right : ShapeSet} :
    x ∈ (left.union right).toList ↔ x ∈ left.toList ∨ x ∈ right.toList := by
  unfold union
  induction right.toList with
  | nil => simp
  | cons s shapes ih =>
    rw [List.foldr_cons, mem_insert, ih, List.mem_cons]
    exact or_left_comm

end ShapeSet

end RecordSchema
