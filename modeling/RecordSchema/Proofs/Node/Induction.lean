import Mathlib.Tactic
import RecordSchema.Node.MergeDepth

/-!
# Induction on nodes

A node is reached from the nodes of its fields, its element or its alternatives.  The induction
principle gives the claim for all of these at once, by membership, so that a proof need not follow
the lists of a node itself.
-/

namespace RecordSchema

namespace Node

/-! ### Sizes of parts -/

lemma size_lt_of_mem_fields {fields : List (String × Node)} {field : String × Node}
    (h : field ∈ fields) : field.2.size < 1 + sizeOfFields fields := by
  induction fields with
  | nil => simp at h
  | cons head fields ih =>
    rcases List.mem_cons.mp h with rfl | h
    · simp only [sizeOfFields]
      omega
    · have := ih h
      simp only [sizeOfFields]
      omega

lemma size_le_of_mem {nodes : List Node} {node : Node} (h : node ∈ nodes) :
    node.size ≤ sizeOfAll nodes := by
  induction nodes with
  | nil => simp at h
  | cons head nodes ih =>
    rcases List.mem_cons.mp h with rfl | h
    · simp only [sizeOfAll]
      omega
    · have := ih h
      simp only [sizeOfAll]
      omega

/-! ### The principle -/

/-- Induction on a node, with the claim for every field, for the element and for every
alternative. -/
@[elab_as_elim]
theorem induction {motive : Node → Prop} (void : motive .void) (null : motive .null)
    (boolean : motive .boolean) (integer : ∀ min max, motive (.integer min max))
    (floating : ∀ min max, motive (.floating min max)) (string : motive .string)
    (binary : motive .binary) (timestamp : motive .timestamp)
    (struct : ∀ fields shapes, (∀ field ∈ fields, motive field.2) → motive (.struct fields shapes))
    (list : ∀ element, motive element → motive (.list element))
    (union : ∀ children, (∀ child ∈ children, motive child) → motive (.union children)) :
    ∀ node, motive node
  | .void => void
  | .null => null
  | .boolean => boolean
  | .integer min max => integer min max
  | .floating min max => floating min max
  | .string => string
  | .binary => binary
  | .timestamp => timestamp
  | .struct fields shapes => struct fields shapes fun field _ =>
      induction void null boolean integer floating string binary timestamp struct list union field.2
  | .list element => list element
      (induction void null boolean integer floating string binary timestamp struct list union
        element)
  | .union children => union children fun child _ =>
      induction void null boolean integer floating string binary timestamp struct list union child
termination_by node => node.size
decreasing_by
  · have := size_lt_of_mem_fields ‹_›
    simpa only [size] using this
  · simp only [size]
    omega
  · have := size_le_of_mem ‹_›
    simp only [size]
    omega

end Node

end RecordSchema
