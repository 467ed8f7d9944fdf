import Mathlib.Tactic
import RecordSchema.Text.Newline

/-!
# Carriage returns

Unifying the line ends of a text leaves no carriage return in it, and changes nothing else.  So the
text stays as it is just when it has none (`unified_eq_iff`).  Whether a text has one is told from
its parts.
-/

namespace RecordSchema.Newline

/-- The text has a carriage return in it. -/
def HasReturn (text : String) : Prop := '\r' ∈ text.toList

instance (text : String) : Decidable (HasReturn text) :=
  inferInstanceAs (Decidable ('\r' ∈ text.toList))

/-! ### Unified texts -/

lemma notMem_unify (cs : List Char) : '\r' ∉ unify cs := by
  fun_induction unify cs with
  | case1 => simp
  | case2 rest ih => simpa using ih
  | case3 c rest h ih =>
    rw [List.mem_cons, not_or]
    refine ⟨?_, ih⟩
    split
    · decide
    · next hc => exact Ne.symm hc

lemma unify_eq_self {cs : List Char} (h : '\r' ∉ cs) : unify cs = cs := by
  fun_induction unify cs with
  | case1 => rfl
  | case2 rest ih => simp at h
  | case3 c rest _ ih =>
    rw [List.mem_cons, not_or] at h
    rw [if_neg (Ne.symm h.1), ih h.2]

/-- A text stays as it is just when it has no carriage return. -/
theorem unified_eq_iff {text : String} : unified text = text ↔ ¬ HasReturn text := by
  constructor
  · intro h hreturn
    rw [HasReturn, ← h, unified, String.toList_ofList] at hreturn
    exact notMem_unify _ hreturn
  · intro h
    rw [unified, unify_eq_self h, String.ofList_toList]

/-! ### Texts put together -/

@[simp] lemma hasReturn_append {first second : String} :
    HasReturn (first ++ second) ↔ HasReturn first ∨ HasReturn second := by
  rw [HasReturn, String.toList_append, List.mem_append]
  rfl

/-- A return in a list of texts with separators is a return in one of them. -/
lemma hasReturn_intercalate {separator : String} (h : ¬ HasReturn separator) (texts : List String) :
    HasReturn (separator.intercalate texts) ↔ ∃ text ∈ texts, HasReturn text := by
  induction texts with
  | nil => simp [HasReturn]
  | cons text texts ih =>
    cases texts with
    | nil => simp
    | cons next texts =>
      rw [String.intercalate_cons_cons, hasReturn_append, hasReturn_append, ih]
      simp only [List.exists_mem_cons_iff, h, or_false]

lemma hasReturn_join {texts : List String} :
    HasReturn (String.join texts) ↔ ∃ text ∈ texts, HasReturn text := by
  rw [HasReturn, String.toList_join, List.mem_flatMap]
  rfl

/-- Numbers are written with digits only. -/
lemma not_hasReturn_toString (n : ℕ) : ¬ HasReturn (toString n) := by
  intro h
  rw [Nat.toString_eq_repr, HasReturn, Nat.toList_repr] at h
  exact absurd (Nat.isDigit_of_mem_toDigits (by decide) (by decide) h) (by decide)

end RecordSchema.Newline
