import RecordSchema.Render.TypeText

/-!
# Listings

A type as one line for each leaf, `path: type`.  The path starts at a root and goes down through
the fields of structs and the elements of lists.  A union is a leaf, and so is a struct without
fields.
-/

namespace RecordSchema

/-- One line of a listing. -/
structure Leaf where
  /-- The way from the root to the leaf, its steps parted by points. -/
  path : String
  /-- What is found there. -/
  node : Node

/-- The text of a line. -/
def Leaf.text (leaf : Leaf) : String := leaf.path ++ ": " ++ leaf.node.typeText

namespace Node

mutual

/-- The leaves below a node, in the order of the fields. -/
def leaves (path : String) : Node → List Leaf
  | .struct (field :: fields) _ => leavesOfFields path (field :: fields)
  | .list element => element.leaves (path ++ ".list")
  | node => [⟨path, node⟩]

/-- The leaves below the fields of a struct. -/
def leavesOfFields (path : String) : List (String × Node) → List Leaf
  | [] => []
  | (name, node) :: fields => node.leaves (path ++ "." ++ name) ++ leavesOfFields path fields

end

/-- The lines of all leaves, each with its line end. -/
def listing (root : String) (node : Node) : String :=
  "\n".intercalate ((node.leaves root).map Leaf.text) ++ "\n"

end Node

end RecordSchema
