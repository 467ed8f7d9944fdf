import Mathlib.Tactic
import Mathlib.Data.List.Sort
import RecordSchema.ShapeSet

/-!
# Sorted lists

Fields, alternatives and shapes are kept in strictly increasing order.  Such a list is determined
by its members, so two of them are equal as soon as they hold the same entries.  For sets of
shapes this makes the union commutative, associative and idempotent.
-/

namespace RecordSchema

variable {α β : Type}

/-- Lists in strict order with the same members are equal. -/
theorem eq_of_pairwise_of_mem_iff {r : α → α → Prop} (asymm : ∀ x y, r x y → ¬ r y x)
    {xs ys : List α} (hxs : xs.Pairwise r) (hys : ys.Pairwise r) (h : ∀ x, x ∈ xs ↔ x ∈ ys) :
    xs = ys := by
  have nodup : ∀ {zs : List α}, zs.Pairwise r → zs.Nodup := by
    intro zs hzs
    refine hzs.imp ?_
    rintro x y hxy rfl
    exact asymm x x hxy hxy
  have hperm : xs.Perm ys := (List.perm_ext_iff_of_nodup (nodup hxs) (nodup hys)).mpr h
  exact hperm.eq_of_pairwise (fun x y _ _ hxy hyx => absurd hyx (asymm x y hxy)) hxs hys

/-! ### Looking up by a key -/

section Keyed

variable {κ : Type} [DecidableEq κ] (key : α → κ)

lemma find?_key_of_mem {xs : List α} (h : (xs.map key).Nodup) {x : α} (hx : x ∈ xs) :
    xs.find? (fun y => decide (key y = key x)) = some x := by
  induction xs with
  | nil => simp at hx
  | cons y ys ih =>
    obtain ⟨hy, hys⟩ := List.nodup_cons.mp h
    rcases List.mem_cons.mp hx with rfl | hx
    · simp
    · have hne : key y ≠ key x := fun heq => hy (heq ▸ List.mem_map_of_mem hx)
      simpa [List.find?_cons, hne] using ih hys hx

/-- Where keys are distinct, looking one up does not depend on the order. -/
lemma find?_key_perm {xs ys : List α} (h : (xs.map key).Nodup) (hperm : xs.Perm ys) (k : κ) :
    xs.find? (fun y => decide (key y = k)) = ys.find? fun y => decide (key y = k) := by
  cases hfound : xs.find? fun y => decide (key y = k) with
  | none =>
    rw [List.find?_eq_none] at hfound
    exact (List.find?_eq_none.mpr fun y hy => hfound y (hperm.mem_iff.mpr hy)).symm
  | some x =>
    have hkey : key x = k := by simpa using List.find?_some hfound
    have hx : x ∈ ys := hperm.mem_iff.mp (List.mem_of_find?_eq_some hfound)
    rw [← hkey, find?_key_of_mem key ((hperm.map key).nodup_iff.mp h) hx]

end Keyed

/-! ### The insertion sort -/

section Insertion

variable {le : α → α → Bool}

lemma pairwise_insertBy (total : ∀ x y, le x y ∨ le y x) (trans : ∀ x y z, le x y → le y z → le x z)
    (x : α) {xs : List α} (h : xs.Pairwise fun y z => le y z) :
    (insertBy le x xs).Pairwise fun y z => le y z := by
  induction xs with
  | nil => exact List.pairwise_singleton _ _
  | cons y ys ih =>
    obtain ⟨hhead, htail⟩ := List.pairwise_cons.mp h
    unfold insertBy
    split
    · next hxy =>
      refine List.pairwise_cons.mpr ⟨fun z hz => ?_, h⟩
      rcases List.mem_cons.mp hz with rfl | hz
      · exact hxy
      · exact trans x y z hxy (hhead z hz)
    · next hxy =>
      refine List.pairwise_cons.mpr ⟨fun z hz => ?_, ih htail⟩
      rcases mem_insertBy.mp hz with rfl | hz
      · exact (total y z).resolve_right hxy
      · exact hhead z hz

/-- Sorting by a total preorder puts entries in increasing order. -/
theorem pairwise_sortBy (total : ∀ x y, le x y ∨ le y x)
    (trans : ∀ x y z, le x y → le y z → le x z) (xs : List α) :
    (sortBy le xs).Pairwise fun x y => le x y := by
  induction xs with
  | nil => exact List.Pairwise.nil
  | cons x xs ih => exact pairwise_insertBy total trans x ih

/-- A list that is in order already stays as it is. -/
lemma sortBy_of_pairwise {xs : List α} (h : xs.Pairwise fun x y => le x y) : sortBy le xs = xs := by
  induction xs with
  | nil => rfl
  | cons x xs ih =>
    obtain ⟨hhead, htail⟩ := List.pairwise_cons.mp h
    rw [sortBy_cons, ih htail]
    cases xs with
    | nil => rfl
    | cons y ys => rw [insertBy, if_pos (hhead y List.mem_cons_self)]

lemma map_insertBy (f : α → β) {le' : β → β → Bool} (h : ∀ x y, le' (f x) (f y) = le x y) (x : α)
    (xs : List α) : (insertBy le x xs).map f = insertBy le' (f x) (xs.map f) := by
  induction xs with
  | nil => rfl
  | cons y ys ih =>
    simp only [insertBy, List.map_cons, h]
    split
    · rfl
    · rw [List.map_cons, ih]

/-- Entries may be renamed before or after sorting. -/
lemma map_sortBy (f : α → β) {le' : β → β → Bool} (h : ∀ x y, le' (f x) (f y) = le x y)
    (xs : List α) : (sortBy le xs).map f = sortBy le' (xs.map f) := by
  induction xs with
  | nil => rfl
  | cons x xs ih => rw [sortBy_cons, map_insertBy f h, ih, List.map_cons, sortBy_cons]

end Insertion

/-! ### Sets of shapes -/

namespace ShapeSet

@[ext] theorem ext_mem {left right : ShapeSet} (h : ∀ x, x ∈ left.toList ↔ x ∈ right.toList) :
    left = right := by
  have heq : left.toList = right.toList :=
    eq_of_pairwise_of_mem_iff (fun x y hxy hyx => String.lt_asymm hxy hyx) left.increasing
      right.increasing h
  cases left
  cases right
  simpa using heq

lemma union_comm (s t : ShapeSet) : s.union t = t.union s := by
  ext x
  simp only [mem_union, or_comm]

lemma union_assoc (s t u : ShapeSet) : (s.union t).union u = s.union (t.union u) := by
  ext x
  simp only [mem_union, or_assoc]

lemma union_self (s : ShapeSet) : s.union s = s := by
  ext x
  simp only [mem_union, or_self]

lemma union_ne_nil {s : ShapeSet} (t : ShapeSet) (h : s.toList ≠ []) : (s.union t).toList ≠ [] := by
  obtain ⟨x, hx⟩ := List.exists_mem_of_ne_nil _ h
  exact List.ne_nil_of_mem (mem_union.mpr (Or.inl hx))

end ShapeSet

/-- The signature does not depend on the order of the keys. -/
lemma shapeSignature_perm {keys others : List String} (h : keys.Perm others) :
    shapeSignature keys = shapeSignature others := by
  have sorted : ∀ names : List String,
      (sortBy (fun a b => decide (a ≤ b)) names).Pairwise fun a b => decide (a ≤ b) :=
    pairwise_sortBy (fun x y => by simpa using String.le_total x y)
      (fun x y z => by simpa using String.le_trans)
  have hperm : (sortBy (fun a b => decide (a ≤ b)) keys).Perm
      (sortBy (fun a b => decide (a ≤ b)) others) :=
    (perm_sortBy _ keys).trans (h.trans (perm_sortBy _ others).symm)
  have heq := hperm.eq_of_pairwise
    (fun x y _ _ hxy hyx => String.le_antisymm (by simpa using hxy) (by simpa using hyx))
    (sorted keys) (sorted others)
  rw [shapeSignature, shapeSignature, heq]

end RecordSchema
