import RecordSchema.Classification
import RecordSchema.Proofs.Number.Place
import RecordSchema.Proofs.Node.Family
import RecordSchema.Proofs.Sorted

/-!
# Canonical nodes

The nodes that inference builds have a canonical form.  Absent nodes do not occur inside of them,
the fields of a struct are in strictly increasing order of their names, and a union has at least
two alternatives, in strictly increasing order of their kinds, with one for each family and none
that is null or a union.  Bounds are in order, integers fit 64 bits and no bound is NaN.  All of
this can be decided.

What merging does to alternatives is followed by their families: a node that joins alternatives
either stays within a family that is there, or adds its own (`families_absorb`).
-/

namespace RecordSchema

namespace Node

/-! ### Definitions -/

/-- A node that can be an alternative of a union: something was observed, other than nulls, and
it is not a union itself. -/
def IsAlternative (node : Node) : Prop := node.IsPresent ∧ node.kind ≠ .union

/-- The alternatives of a union: in strictly increasing order of their kinds, and of different
families, so that there are not both integers and floating-point numbers or both strings and
binary data. -/
structure Alternatives (children : List Node) : Prop where
  increasing : children.Pairwise fun a b => a.kind.rank < b.kind.rank
  apart : children.Pairwise fun a b => a.kind.family ≠ b.kind.family
  alternative : ∀ child ∈ children, child.IsAlternative

/-- A node in canonical form, at every depth, where the shapes of each struct are `Seen`. -/
inductive CanonicalWith (Seen : ShapeSet → Prop) : Node → Prop
  | null : CanonicalWith Seen .null
  | boolean : CanonicalWith Seen .boolean
  | integer {min max : ℤ} (lower : minLong ≤ min) (ordered : min ≤ max) (upper : max ≤ maxLong) :
      CanonicalWith Seen (.integer min max)
  | floating {min max : Double} (ordered : min.AtMost max) : CanonicalWith Seen (.floating min max)
  | string : CanonicalWith Seen .string
  | binary : CanonicalWith Seen .binary
  | timestamp : CanonicalWith Seen .timestamp
  | struct {fields : List (String × Node)} {shapes : ShapeSet}
      (increasing : fields.Pairwise fun f g => f.1 < g.1) (seen : Seen shapes)
      (canonical : ∀ field ∈ fields, CanonicalWith Seen field.2) :
      CanonicalWith Seen (.struct fields shapes)
  | list {element : Node} (canonical : CanonicalWith Seen element) :
      CanonicalWith Seen (.list element)
  | union {children : List Node} (two : 2 ≤ children.length) (alternatives : Alternatives children)
      (canonical : ∀ child ∈ children, CanonicalWith Seen child) :
      CanonicalWith Seen (.union children)

/-- A node in canonical form, whatever shapes its structs remember. -/
abbrev Canonical : Node → Prop := CanonicalWith fun _ => True

/-- A node in canonical form in which every struct remembers a shape. -/
abbrev Recorded : Node → Prop := CanonicalWith fun shapes => shapes.toList ≠ []

/-- A node in canonical form, or nothing observed at all. -/
def IsSchema (node : Node) : Prop := node = .void ∨ node.Canonical

variable {Seen : ShapeSet → Prop}

lemma CanonicalWith.ne_void {node : Node} (h : CanonicalWith Seen node) : node ≠ .void := by
  rintro rfl
  cases h

lemma CanonicalWith.canonical {node : Node} (h : CanonicalWith Seen node) : node.Canonical := by
  induction h with
  | struct increasing _ _ ih => exact .struct increasing trivial ih
  | list _ ih => exact .list ih
  | union two alternatives _ ih => exact .union two alternatives ih
  | integer lower ordered upper => exact .integer lower ordered upper
  | floating ordered => exact .floating ordered
  | null => exact .null
  | boolean => exact .boolean
  | string => exact .string
  | binary => exact .binary
  | timestamp => exact .timestamp

/-! ### Deciding the form -/

instance (node : Node) : Decidable node.IsAlternative := inferInstanceAs (Decidable (_ ∧ _))

lemma alternatives_iff {children : List Node} : Alternatives children ↔
    children.Pairwise (fun a b => a.kind.rank < b.kind.rank) ∧
      children.Pairwise (fun a b => a.kind.family ≠ b.kind.family) ∧
      ∀ child ∈ children, child.IsAlternative :=
  ⟨fun h => ⟨h.increasing, h.apart, h.alternative⟩, fun ⟨h, h', h''⟩ => ⟨h, h', h''⟩⟩

instance (children : List Node) : Decidable (Alternatives children) :=
  decidable_of_iff _ alternatives_iff.symm

mutual

/-- Whether a node is in canonical form. -/
def decideCanonical [DecidablePred Seen] : (node : Node) → Decidable (CanonicalWith Seen node)
  | .void => .isFalse fun h => h.ne_void rfl
  | .null => .isTrue .null
  | .boolean => .isTrue .boolean
  | .string => .isTrue .string
  | .binary => .isTrue .binary
  | .timestamp => .isTrue .timestamp
  | .integer min max => decidable_of_iff (minLong ≤ min ∧ min ≤ max ∧ max ≤ maxLong)
      ⟨fun ⟨lower, ordered, upper⟩ => .integer lower ordered upper,
        fun | .integer lower ordered upper => ⟨lower, ordered, upper⟩⟩
  | .floating min max => decidable_of_iff (min.AtMost max)
      ⟨.floating, fun | .floating ordered => ordered⟩
  | .struct fields shapes =>
    have := decideFields fields
    decidable_of_iff ((fields.Pairwise fun f g => f.1 < g.1) ∧ Seen shapes ∧
        ∀ field ∈ fields, CanonicalWith Seen field.2)
      ⟨fun ⟨increasing, seen, canonical⟩ => .struct increasing seen canonical,
        fun | .struct increasing seen canonical => ⟨increasing, seen, canonical⟩⟩
  | .list element =>
    have := decideCanonical element
    decidable_of_iff (CanonicalWith Seen element) ⟨.list, fun | .list canonical => canonical⟩
  | .union children =>
    have := decideAll children
    decidable_of_iff (2 ≤ children.length ∧ Alternatives children ∧
        ∀ child ∈ children, CanonicalWith Seen child)
      ⟨fun ⟨two, alternatives, canonical⟩ => .union two alternatives canonical,
        fun | .union two alternatives canonical => ⟨two, alternatives, canonical⟩⟩

/-- The same for the node of each field. -/
def decideFields [DecidablePred Seen] : (fields : List (String × Node)) →
    Decidable (∀ field ∈ fields, CanonicalWith Seen field.2)
  | [] => .isTrue (by simp)
  | (_, node) :: fields =>
    have := decideCanonical node
    have := decideFields fields
    decidable_of_iff (CanonicalWith Seen node ∧ ∀ field ∈ fields, CanonicalWith Seen field.2)
      (by simp only [List.forall_mem_cons])

/-- The same for each node of a list. -/
def decideAll [DecidablePred Seen] : (nodes : List Node) →
    Decidable (∀ node ∈ nodes, CanonicalWith Seen node)
  | [] => .isTrue (by simp)
  | node :: nodes =>
    have := decideCanonical node
    have := decideAll nodes
    decidable_of_iff (CanonicalWith Seen node ∧ ∀ other ∈ nodes, CanonicalWith Seen other)
      (by simp only [List.forall_mem_cons])

end

instance [DecidablePred Seen] : DecidablePred (CanonicalWith Seen) := decideCanonical

instance : DecidablePred IsSchema := fun node =>
  decidable_of_iff (node.kind = .void ∨ node.Canonical)
    (or_congr_left ⟨eq_void_of_kind, fun h => h ▸ rfl⟩)

/-- Integers and strings may stand side by side, but not in the other order. -/
example : (union [integer 0 1, string]).Canonical ∧ ¬ (union [string, integer 0 1]).Canonical := by
  decide

/-! ### Families of alternatives -/

/-- A way to combine nodes that stays in the family. -/
def KeepsFamily (combine : Node → Node → Node) : Prop :=
  ∀ a b, a.kind.family = b.kind.family → (combine a b).kind.family = a.kind.family

lemma keepsFamily_mergeWithin (depth : ℕ) : KeepsFamily (mergeWithin depth) := by
  intro a b h
  cases depth with
  | zero => rfl
  | succ depth => exact family_mergeLevel h

lemma keepsFamily_merge : KeepsFamily merge := fun _ _ => keepsFamily_mergeWithin _ _ _

lemma IsAlternative.of_family_eq {a b : Node} (ha : a.IsAlternative)
    (h : b.kind.family = a.kind.family) : b.IsAlternative := by
  obtain ⟨⟨hvoid, hnull⟩, hunion⟩ := ha
  cases alike_of_family_eq h <;>
    first
    | exact absurd rfl hvoid
    | exact absurd rfl hnull
    | exact absurd rfl hunion
    | exact ⟨⟨nofun, nofun⟩, nofun⟩

/-- The families of the nodes of a list. -/
def families (nodes : List Node) : List Kind := nodes.map fun node => node.kind.family

@[simp] lemma families_nil : families [] = [] := rfl

@[simp] lemma families_cons (node : Node) (nodes : List Node) :
    families (node :: nodes) = node.kind.family :: families nodes := rfl

variable {combine : Node → Node → Node}

lemma families_absorb (h : KeepsFamily combine) (node : Node) (children : List Node) :
    families (absorb combine node children) =
      if node.kind.family ∈ families children then families children
      else families children ++ [node.kind.family] := by
  induction children with
  | nil => simp [absorb]
  | cons child children ih =>
    rw [absorb_cons]
    by_cases hfamily : child.kind.family = node.kind.family
    · simp [hfamily, h child node hfamily]
    · rw [if_neg hfamily, families_cons, ih]
      by_cases hmem : node.kind.family ∈ families children <;> simp [hmem, Ne.symm hfamily]

lemma mem_absorb {node other : Node} {children : List Node}
    (h : other ∈ absorb combine node children) :
    other = node ∨ other ∈ children ∨
      ∃ child ∈ children, child.kind.family = node.kind.family ∧ other = combine child node := by
  induction children with
  | nil => exact Or.inl (by simpa [absorb] using h)
  | cons child children ih =>
    rw [absorb_cons] at h
    split at h
    · next hfamily =>
      rcases List.mem_cons.mp h with rfl | h
      · exact Or.inr (Or.inr ⟨child, List.mem_cons_self, hfamily, rfl⟩)
      · exact Or.inr (Or.inl (List.mem_cons_of_mem _ h))
    · rcases List.mem_cons.mp h with rfl | h
      · exact Or.inr (Or.inl List.mem_cons_self)
      · rcases ih h with rfl | h | ⟨old, hold, hfamily, rfl⟩
        · exact Or.inl rfl
        · exact Or.inr (Or.inl (List.mem_cons_of_mem _ h))
        · exact Or.inr (Or.inr ⟨old, List.mem_cons_of_mem _ hold, hfamily, rfl⟩)

lemma nodup_families_iff {nodes : List Node} :
    (families nodes).Nodup ↔ nodes.Pairwise fun a b => a.kind.family ≠ b.kind.family :=
  List.pairwise_map

lemma nodup_families_absorb (h : KeepsFamily combine) (node : Node) {children : List Node}
    (hchildren : (families children).Nodup) : (families (absorb combine node children)).Nodup := by
  rw [families_absorb h]
  split
  · exact hchildren
  · next hmem =>
    refine List.nodup_append.mpr ⟨hchildren, List.nodup_singleton _, ?_⟩
    rintro family hfamily _ hnode rfl
    exact hmem (List.mem_singleton.mp hnode ▸ hfamily)

/-- Sorting alternatives of different families puts their kinds in strictly increasing order. -/
lemma alternatives_sortAlternatives {children : List Node} (hapart : (families children).Nodup)
    (halternative : ∀ child ∈ children, child.IsAlternative) :
    Alternatives (sortAlternatives children) := by
  -- sorting gives weak order, and the families make it strict
  have hsorted : (sortAlternatives children).Pairwise fun a b =>
      decide (a.kind.rank ≤ b.kind.rank) := by
    exact pairwise_sortBy (fun a b => by simpa using Nat.le_total _ _)
      (fun a b c => by simpa using Nat.le_trans) children
  have hperm : (sortAlternatives children).Perm children := perm_sortBy _ children
  have happart' : (sortAlternatives children).Pairwise fun a b =>
      a.kind.family ≠ b.kind.family :=
    nodup_families_iff.mp ((hperm.map _).nodup_iff.mpr hapart)
  refine ⟨(hsorted.and happart').imp ?_, happart',
    fun child hchild => halternative child (hperm.mem_iff.mp hchild)⟩
  rintro a b ⟨hle, hne⟩
  -- equal ranks would mean equal kinds, and so one family
  refine lt_of_le_of_ne (by simpa using hle) fun heq => hne ?_
  rw [Kind.rank_injective heq]

lemma Alternatives.insertAlternative (h : KeepsFamily combine) {children : List Node}
    (hchildren : Alternatives children) {node : Node} (hnode : node.IsAlternative) :
    Alternatives (insertAlternative combine children node) := by
  refine alternatives_sortAlternatives
    (nodup_families_absorb h node (nodup_families_iff.mpr hchildren.apart)) fun other hother => ?_
  rcases mem_absorb hother with rfl | hother | ⟨child, hchild, hfamily, rfl⟩
  · exact hnode
  · exact hchildren.alternative other hother
  · exact (hchildren.alternative child hchild).of_family_eq (h child node hfamily)

lemma length_le_length_absorb (node : Node) (children : List Node) :
    children.length ≤ (absorb combine node children).length := by
  induction children with
  | nil => exact Nat.zero_le _
  | cons child children ih =>
    rw [absorb_cons]
    split
    · rfl
    · simpa using ih

lemma length_le_length_insertAlternative (children : List Node) (node : Node) :
    children.length ≤ (insertAlternative combine children node).length := by
  rw [insertAlternative, sortAlternatives, length_sortBy]
  exact length_le_length_absorb node children

end Node

end RecordSchema
