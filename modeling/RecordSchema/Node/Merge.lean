import RecordSchema.Node
import RecordSchema.Number.Rounding

/-!
# Merging type nodes

`Node.merge` finds the narrowest node that covers two nodes.  Bounds widen, an integer next to a
floating-point number becomes one, a hexadecimal string next to another string becomes a string,
structs merge field by field and lists element by element.  Whatever cannot be reconciled becomes
a union, whose alternatives are merged within their families and kept in the order of their kinds.

`mergeLevel` is one level of this, with the merge of the parts left open.  It is closed by
recursion on a bound for the depth: the parts that a level merges have together a smaller size
than the nodes they are parts of, so the joint size of the two nodes is enough.
-/

namespace RecordSchema

namespace Node

/-- Combine a node with the field of its name, or add it as a new field. -/
def absorbField (combine : Node → Node → Node) (name : String) (node : Node) :
    List (String × Node) → List (String × Node)
  | [] => [(name, node)]
  | (other, old) :: fields =>
    if other = name then (other, combine old node) :: fields
    else (other, old) :: absorbField combine name node fields

/-- The fields of both sides; those that both have are combined. -/
def mergeFields (combine : Node → Node → Node) (left right : List (String × Node)) :
    List (String × Node) :=
  right.foldl (fun fields (name, node) => absorbField combine name node fields) left

/-- Combine a node with the first alternative of its family, or add it as a new alternative. -/
def absorb (combine : Node → Node → Node) (node : Node) : List Node → List Node
  | [] => [node]
  | child :: children =>
    if child.kind.family = node.kind.family then combine child node :: children
    else child :: absorb combine node children

/-- The alternatives of a union once a node has joined them, again in the order of their kinds. -/
def insertAlternative (combine : Node → Node → Node) (children : List Node) (node : Node) :
    List Node :=
  sortAlternatives (absorb combine node children)

/-- The union of two nodes of different families, one of which may be a union already. -/
def unite (combine : Node → Node → Node) : Node → Node → Node
  | .union children, node => .union (insertAlternative combine children node)
  | node, .union children => .union (insertAlternative combine children node)
  | left, right => .union (sortAlternatives [left, right])

/-- One level of the merge, with `combine` for the parts. -/
def mergeLevel (combine : Node → Node → Node) : Node → Node → Node
  | .void, right => right
  | left, .void => left
  | .integer a b, .integer c d => .integer (min a c) (max b d)
  | .floating a b, .floating c d => .floating (a.min c) (b.max d)
  | .integer a b, .floating c d => .floating (c.min (.ofInt a)) (d.max (.ofInt b))
  | .floating c d, .integer a b => .floating (c.min (.ofInt a)) (d.max (.ofInt b))
  | .string, .binary => .string
  | .binary, .string => .string
  | .struct fields shapes, .struct others otherShapes =>
    ofFields (mergeFields combine fields others) (shapes.union otherShapes)
  | .list element, .list other => .list (combine element other)
  | .union children, .union others =>
    .union (others.foldl (insertAlternative combine) children)
  | left, right =>
    if left.kind = right.kind then left
    else if left.kind = .null then right
    else if right.kind = .null then left
    else unite combine left right

/-- The merge down to a given depth. -/
def mergeWithin : Nat → Node → Node → Node
  | 0, left, _ => left
  | depth + 1, left, right => mergeLevel (mergeWithin depth) left right

/-- The narrowest node covering both.  A node that stands for no observation changes nothing. -/
def merge (left right : Node) : Node := mergeWithin (left.size + right.size) left right

/-- The merge of any number of nodes, from the left. -/
def mergeAll (nodes : List Node) : Node := nodes.foldl merge .void

end Node

end RecordSchema
