import RecordSchema.ShapeSet
import RecordSchema.Number.Double

/-!
# Type nodes

The type inferred for a record is a tree.  Its leaves are the scalar kinds, numbers carry the
range observed, and structs, lists and unions hold further nodes.  Nodes are used exactly as they
are given: the order of struct fields and of union alternatives, and that there is one alternative
for each kind, are what inference establishes, not what the type enforces.
-/

namespace RecordSchema

/-- A node of an inferred type. -/
inductive Node where
  /-- Nothing has been observed yet. -/
  | void
  /-- Only nulls have been observed. -/
  | null
  | boolean
  /-- Integers between the two bounds. -/
  | integer (min max : Int)
  /-- Numbers between the two bounds, some of them not integers. -/
  | floating (min max : Double)
  | string
  | binary
  | timestamp
  /-- Objects: a node for each key, and the key sets that were seen. -/
  | struct (fields : List (String × Node)) (shapes : ShapeSet)
  /-- Arrays, with one node for all their elements. -/
  | list (element : Node)
  /-- Alternatives that no single node covers. -/
  | union (children : List Node)
deriving Inhabited

/-- What a node is at its root.  The order of the constructors is the order of the alternatives
of a union. -/
inductive Kind where
  | void
  | null
  | boolean
  | integer
  | floating
  | string
  | binary
  | timestamp
  | struct
  | list
  | union
deriving DecidableEq, Repr, Inhabited

/-- The place of a kind among the alternatives of a union. -/
def Kind.rank (kind : Kind) : Nat := kind.ctorIdx

/-- The most general kind that can take the place of a kind: numbers widen to floating-point and
hexadecimal strings to strings.  Kinds of one family share one alternative of a union. -/
def Kind.family : Kind → Kind
  | .integer => .floating
  | .binary => .string
  | kind => kind

namespace Node

/-- The kind of a node. -/
def kind : Node → Kind
  | .void => .void
  | .null => .null
  | .boolean => .boolean
  | .integer .. => .integer
  | .floating .. => .floating
  | .string => .string
  | .binary => .binary
  | .timestamp => .timestamp
  | .struct .. => .struct
  | .list _ => .list
  | .union _ => .union

/-- Fields in increasing order of their names. -/
def sortFields (fields : List (String × Node)) : List (String × Node) :=
  sortBy (fun f g => decide (f.1 ≤ g.1)) fields

/-- The struct with the given fields, put in increasing order of their names. -/
def ofFields (fields : List (String × Node)) (shapes : ShapeSet) : Node :=
  .struct (sortFields fields) shapes

/-- Alternatives in increasing order of their kinds. -/
def sortAlternatives (children : List Node) : List Node :=
  sortBy (fun a b => decide (a.kind.rank ≤ b.kind.rank)) children

mutual

/-- The size of a node.  Every level counts one, and every field counts one more. -/
def size : Node → Nat
  | .struct fields _ => 1 + sizeOfFields fields
  | .list element => 1 + element.size
  | .union children => 1 + sizeOfAll children
  | .void | .null | .boolean | .integer .. | .floating .. | .string | .binary | .timestamp => 1

/-- The sizes of the field nodes, and one for each field. -/
def sizeOfFields : List (String × Node) → Nat
  | [] => 0
  | (_, node) :: fields => 1 + node.size + sizeOfFields fields

/-- The sizes of all nodes of a list. -/
def sizeOfAll : List Node → Nat
  | [] => 0
  | node :: nodes => node.size + sizeOfAll nodes

end

end Node

end RecordSchema
