/-!
# Stable insertion sort

Fields, key sets and union alternatives are all kept in a fixed order.  The lists are short and
nearly sorted when they are touched, so they are put in order by insertion.  The sort is stable:
entries that compare equal both ways keep their places, because an entry is inserted in front of
the later entries it does not exceed.
-/

namespace RecordSchema

variable {α : Type}

/-- Insert `x` in front of the first entry that it does not exceed. -/
def insertBy (le : α → α → Bool) (x : α) : List α → List α
  | [] => [x]
  | y :: ys => if le x y then x :: y :: ys else y :: insertBy le x ys

/-- The entries of a list in increasing order, equal ones as they stood. -/
def sortBy (le : α → α → Bool) : List α → List α
  | [] => []
  | x :: xs => insertBy le x (sortBy le xs)

@[simp] theorem sortBy_nil (le : α → α → Bool) : sortBy le [] = [] := rfl

@[simp] theorem sortBy_cons (le : α → α → Bool) (x : α) (xs : List α) :
    sortBy le (x :: xs) = insertBy le x (sortBy le xs) := rfl

/-- Inserting adds exactly the one entry. -/
theorem perm_insertBy (le : α → α → Bool) (x : α) (xs : List α) :
    (insertBy le x xs).Perm (x :: xs) := by
  induction xs with
  | nil => exact List.Perm.refl _
  | cons y ys ih =>
    unfold insertBy
    split
    · exact List.Perm.refl _
    · exact (ih.cons y).trans (List.Perm.swap x y ys)

/-- Sorting neither loses nor invents an entry. -/
theorem perm_sortBy (le : α → α → Bool) (xs : List α) : (sortBy le xs).Perm xs := by
  induction xs with
  | nil => exact List.Perm.refl _
  | cons x xs ih => exact (perm_insertBy le x _).trans (ih.cons x)

@[simp] theorem mem_insertBy {le : α → α → Bool} {x y : α} {xs : List α} :
    y ∈ insertBy le x xs ↔ y = x ∨ y ∈ xs := by
  rw [(perm_insertBy le x xs).mem_iff, List.mem_cons]

@[simp] theorem mem_sortBy {le : α → α → Bool} {y : α} {xs : List α} :
    y ∈ sortBy le xs ↔ y ∈ xs :=
  (perm_sortBy le xs).mem_iff

@[simp] theorem length_sortBy (le : α → α → Bool) (xs : List α) :
    (sortBy le xs).length = xs.length :=
  (perm_sortBy le xs).length_eq

end RecordSchema
