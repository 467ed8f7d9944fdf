import RecordSchema.Node.Merge

/-!
# Merging with faults

`Node.merge` is defined for any two nodes.  Two kinds of nodes cannot be merged in earnest: a union
with an absent alternative, which has no kind to be compared or sorted by, and an integer bound
that no double can take up.  `tryMerge` is the merge that stops at the first of these.  It follows
`Node.merge` definition by definition.
-/

namespace RecordSchema

/-- What stops a merge. -/
inductive MergeFault where
  /-- A node among alternatives is absent, so it has no kind. -/
  | absentAlternative
  /-- An integer bound is beyond the range of doubles. -/
  | boundTooLarge (bound : Int)
deriving DecidableEq, Repr

namespace Node

/-- The double nearest to an integer bound, unless it would be infinite. -/
def boundToDouble (bound : Int) : Except MergeFault Double :=
  if Double.magnitudeOfRatio bound.natAbs 1 = Double.infinityMagnitude then
    .error (.boundTooLarge bound)
  else .ok (.ofInt bound)

/-- The checked form of `absorbField`. -/
def tryAbsorbField (combine : Node → Node → Except MergeFault Node) (name : String) (node : Node) :
    List (String × Node) → Except MergeFault (List (String × Node))
  | [] => .ok [(name, node)]
  | (other, old) :: fields =>
    if other = name then do return (other, ← combine old node) :: fields
    else do return (other, old) :: (← tryAbsorbField combine name node fields)

/-- The checked form of `mergeFields`. -/
def tryMergeFields (combine : Node → Node → Except MergeFault Node)
    (left right : List (String × Node)) : Except MergeFault (List (String × Node)) :=
  right.foldlM (fun fields (name, node) => tryAbsorbField combine name node fields) left

/-- The checked form of `absorb`.  Kinds are compared from the first alternative on. -/
def tryAbsorb (combine : Node → Node → Except MergeFault Node) (node : Node) :
    List Node → Except MergeFault (List Node)
  | [] => .ok [node]
  | child :: children =>
    if child.kind = .void ∨ node.kind = .void then .error .absentAlternative
    else if child.kind.family = node.kind.family then do return (← combine child node) :: children
    else do return child :: (← tryAbsorb combine node children)

/-- The checked form of `insertAlternative`.  Sorting needs the kind of every alternative. -/
def tryInsertAlternative (combine : Node → Node → Except MergeFault Node) (children : List Node)
    (node : Node) : Except MergeFault (List Node) := do
  let absorbed ← tryAbsorb combine node children
  if absorbed.any fun child => child.kind = .void then .error .absentAlternative
  else return sortAlternatives absorbed

/-- The checked form of `unite`. -/
def tryUnite (combine : Node → Node → Except MergeFault Node) : Node → Node → Except MergeFault Node
  | .union children, node => do return .union (← tryInsertAlternative combine children node)
  | node, .union children => do return .union (← tryInsertAlternative combine children node)
  | left, right => .ok (.union (sortAlternatives [left, right]))

/-- The floating-point range that also covers a range of integers. -/
def tryWiden (min max : Double) (lower upper : Int) : Except MergeFault Node := do
  let least ← boundToDouble lower
  let greatest ← boundToDouble upper
  return .floating (min.min least) (max.max greatest)

/-- The checked form of `mergeLevel`. -/
def tryMergeLevel (combine : Node → Node → Except MergeFault Node) :
    Node → Node → Except MergeFault Node
  | .void, right => .ok right
  | left, .void => .ok left
  | .integer a b, .integer c d => .ok (.integer (min a c) (max b d))
  | .floating a b, .floating c d => .ok (.floating (a.min c) (b.max d))
  | .integer a b, .floating c d => tryWiden c d a b
  | .floating c d, .integer a b => tryWiden c d a b
  | .string, .binary => .ok .string
  | .binary, .string => .ok .string
  | .struct fields shapes, .struct others otherShapes => do
    return ofFields (← tryMergeFields combine fields others) (shapes.union otherShapes)
  | .list element, .list other => do return .list (← combine element other)
  | .union children, .union others => do
    return .union (← others.foldlM (tryInsertAlternative combine) children)
  | left, right =>
    if left.kind = right.kind then .ok left
    else if left.kind = .null then .ok right
    else if right.kind = .null then .ok left
    else tryUnite combine left right

/-- The checked merge down to a given depth. -/
def tryMergeWithin : Nat → Node → Node → Except MergeFault Node
  | 0, left, _ => .ok left
  | depth + 1, left, right => tryMergeLevel (tryMergeWithin depth) left right

/-- The narrowest node covering both, or what stops the merge. -/
def tryMerge (left right : Node) : Except MergeFault Node :=
  tryMergeWithin (left.size + right.size) left right

end Node

end RecordSchema
