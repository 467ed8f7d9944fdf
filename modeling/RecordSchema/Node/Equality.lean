import RecordSchema.Node

/-!
# Equality of type nodes

Two nodes are equal when they describe the same types.  The shapes of structs and the order of
their fields do not count, bounds are compared as numbers, and the alternatives of unions are
compared as sets: there are equally many, and each alternative on the left is found on the right.

Looking an alternative up puts the one that is looked for on the right-hand side of the inner
comparison.  Since the test for unions is one-sided, the sides matter, and they change places once
for every union on the way down.  `agrees swapped` therefore compares its arguments in the given
order or in the other one.
-/

namespace RecordSchema

namespace Node

mutual

/-- Comparison of the first node with the second or, if `swapped`, of the second with the
first. -/
def agrees (swapped : Bool) : Node → Node → Bool
  | .void, .void | .null, .null | .boolean, .boolean => true
  | .string, .string | .binary, .binary | .timestamp, .timestamp => true
  | .integer a b, .integer c d => decide (a = c) && decide (b = d)
  | .floating a b, .floating c d => a.eqv c && b.eqv d
  | .struct fields _, .struct others _ =>
    decide (fields.length = others.length) && fieldsAgree swapped fields others
  | .list element, .list other => agrees swapped element other
  | .union children, .union others =>
    decide (children.length = others.length) &&
      (if swapped then others.all (fun other => isFound other children)
       else allFound others children)
  | _, _ => false

/-- Each field has a counterpart of the same name that agrees with it. -/
def fieldsAgree (swapped : Bool) : List (String × Node) → List (String × Node) → Bool
  | [], _ => true
  | (name, node) :: fields, others =>
    (match others.lookup name with
      | some other => agrees swapped node other
      | none => false) && fieldsAgree swapped fields others

/-- Each of the nodes is found among the others, as the right-hand side of the comparison. -/
def allFound (others : List Node) : List Node → Bool
  | [] => true
  | node :: nodes => others.any (fun other => agrees true node other) && allFound others nodes

/-- One of the nodes equals the other one, as the left-hand side of the comparison. -/
def isFound (other : Node) : List Node → Bool
  | [] => false
  | node :: nodes => agrees false node other || isFound other nodes

end

/-- Whether the left node equals the right one.  Unions make this depend on the direction. -/
def equals (left right : Node) : Bool := agrees false left right

end Node

end RecordSchema
