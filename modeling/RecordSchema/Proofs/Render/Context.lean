import RecordSchema.Proofs.Node.Descent
import RecordSchema.Proofs.Node.Indistinguishable

/-!
# Texts around a node

A node within another one stands in a context: the layers of structs, lists and unions around it,
from the outermost one to the innermost.  An alternative of the node at a path has a context that
takes the steps of this path (`exists_layers_of_descend`).

A text of the whole node is the text of the inner one with a beginning and an end that depend on
the context only (`typeText_fill`, `indented_fill`).  A listing has a line for the part of the
context below the first union (`exists_leaf_fill`).
-/

namespace RecordSchema

namespace Node

/-! ### Contexts -/

/-- One level of a node with a place left open. -/
inductive Layer where
  /-- A struct without the node of one of its fields. -/
  | member (before : List (String × Node)) (name : String) (after : List (String × Node))
      (shapes : ShapeSet)
  /-- A list without the node of its elements. -/
  | element
  /-- A union without one of its alternatives. -/
  | alternative (before after : List Node)

/-- The level with a node in its open place. -/
def Layer.fill : Layer → Node → Node
  | .member before name after shapes, node => .struct (before ++ (name, node) :: after) shapes
  | .element, node => .list node
  | .alternative before after, node => .union (before ++ node :: after)

/-- The step that leads through a layer.  The alternatives of a union are reached without one. -/
def Layer.step? : Layer → Option Step
  | .member _ name _ _ => some (.field name)
  | .element => some .element
  | .alternative _ _ => none

/-- The whole node around an inner one. -/
def fill (layers : List Layer) (node : Node) : Node := layers.foldr Layer.fill node

/-- The path from the whole node to the inner one. -/
def steps (layers : List Layer) : List Step := layers.filterMap Layer.step?

lemma fill_append (outer inner : List Layer) (node : Node) :
    fill (outer ++ inner) node = fill outer (fill inner node) :=
  List.foldr_append

lemma steps_append (outer inner : List Layer) :
    steps (outer ++ inner) = steps outer ++ steps inner :=
  List.filterMap_append

/-- Alternatives have a context without steps. -/
lemma exists_layers_of_mem_alternatives {node child : Node} (h : child ∈ node.alternatives) :
    ∃ layers, steps layers = [] ∧ fill layers child = node := by
  cases node with
  | void | null => cases h
  | union children =>
    obtain ⟨before, after, rfl⟩ := List.append_of_mem h
    exact ⟨[.alternative before after], rfl, rfl⟩
  | _ =>
    obtain rfl := List.mem_singleton.mp h
    exact ⟨[], rfl, rfl⟩

/-- What a step leads to within an alternative has a context of one layer. -/
lemma exists_layer_of_part {step : Step} {node : Node} (h : part step node ≠ .void) :
    ∃ layer : Layer, layer.step? = some step ∧ layer.fill (part step node) = node := by
  cases step with
  | field name =>
    cases node with
    | struct fields shapes =>
      obtain ⟨before, after, hfields⟩ :=
        List.append_of_mem ((fieldNode_eq_void_or_mem name fields).resolve_left h)
      refine ⟨.member before name after shapes, rfl, ?_⟩
      show Node.struct (before ++ (name, fieldNode name fields) :: after) shapes = _
      rw [← hfields]
    | _ => exact absurd rfl h
  | element =>
    cases node with
    | list element => exact ⟨.element, rfl, rfl⟩
    | _ => exact absurd rfl h

/-- The alternatives of the node at a path have a context that takes the steps of the path. -/
theorem exists_layers_of_descend (path : List Step) {node child : Node}
    (h : child ∈ (node.descend path).alternatives) :
    ∃ layers, steps layers = path ∧ fill layers child = node := by
  induction path generalizing node with
  | nil => exact exists_layers_of_mem_alternatives h
  | cons step path ih =>
    obtain ⟨inner, hinner, hfill⟩ := ih h
    -- nothing is found below an absent node, so the step leads to a field or to a list
    have hpart : part step (pick step.family node.alternatives) ≠ .void := by
      intro hvoid
      rw [descend, enter, hvoid, descend_void] at h
      cases h
    have hpick : pick step.family node.alternatives ≠ .void := by
      intro hvoid
      rw [hvoid, part_void] at hpart
      exact hpart rfl
    obtain ⟨layer, hlayer, hfill'⟩ := exists_layer_of_part hpart
    have hmem := (pick_eq_void_or_mem step.family node.alternatives).resolve_left hpick
    obtain ⟨outer, houter, hfill''⟩ := exists_layers_of_mem_alternatives hmem.1
    refine ⟨outer ++ layer :: inner, ?_, ?_⟩
    · have hsteps : steps (layer :: inner) = step :: path := by
        rw [steps, List.filterMap_cons_some hlayer]
        exact congrArg _ hinner
      rw [steps_append, houter, hsteps, List.nil_append]
    · have hnode : fill (layer :: inner) child = pick step.family node.alternatives := by
        show layer.fill (fill inner child) = _
        rw [hfill]
        exact hfill'
      rw [fill_append, hnode, hfill'']

/-! ### Joined texts -/

/-- Texts that are each followed by a separator. -/
def leading (separator : String) (texts : List String) : String :=
  .join (texts.map fun text => text ++ separator)

/-- Texts that each follow a separator. -/
def trailing (separator : String) (texts : List String) : String :=
  .join (texts.map fun text => separator ++ text)

lemma intercalate_cons (separator text : String) (after : List String) :
    separator.intercalate (text :: after) = text ++ trailing separator after := by
  induction after generalizing text with
  | nil => simp [trailing]
  | cons next after ih =>
    have htrailing : trailing separator (next :: after) =
        separator ++ next ++ trailing separator after := by
      simp [trailing, String.join_cons]
    rw [String.intercalate_cons_cons, ih, htrailing]
    simp only [String.append_assoc]

lemma intercalate_append_cons (separator : String) (before : List String) (text : String)
    (after : List String) : separator.intercalate (before ++ text :: after) =
      leading separator before ++ text ++ trailing separator after := by
  induction before with
  | nil => simp [leading, intercalate_cons]
  | cons first before ih =>
    have hleading : leading separator (first :: before) =
        first ++ separator ++ leading separator before := by
      simp [leading, String.join_cons]
    obtain ⟨next, rest, hrest⟩ : ∃ next rest, before ++ text :: after = next :: rest := by
      cases before with
      | nil => exact ⟨_, _, rfl⟩
      | cons => exact ⟨_, _, rfl⟩
    rw [List.cons_append, hrest, String.intercalate_cons_cons, ← hrest, ih, hleading]
    simp only [String.append_assoc]

lemma toList_trailing (separator : String) (texts : List String) :
    (trailing separator texts).toList =
      texts.flatMap fun text => separator.toList ++ text.toList := by
  simp [trailing, List.flatMap_map]

/-- The text is at its end, or it goes on with a separator. -/
def Stops (separator : Char → Prop) (rest : List Char) : Prop := ∀ c ∈ rest.head?, separator c

/-- A word without separators ends where the first separator stands, so a text that starts with it
determines the word and what follows. -/
lemma word_unique {separator : Char → Prop} {word other rest rest' : List Char}
    (hword : ∀ c ∈ word, ¬ separator c) (hother : ∀ c ∈ other, ¬ separator c)
    (hrest : Stops separator rest) (hrest' : Stops separator rest')
    (h : word ++ rest = other ++ rest') : word = other ∧ rest = rest' := by
  induction word generalizing other with
  | nil =>
    cases other with
    | nil => exact ⟨rfl, h⟩
    | cons c other =>
      -- what follows the empty word would start with a letter of the other one
      rw [List.nil_append] at h
      exact absurd (hrest c (by simp [h])) (hother c (by simp))
  | cons c word ih =>
    cases other with
    | nil =>
      rw [List.nil_append] at h
      exact absurd (hrest' c (by simp [← h])) (hword c (by simp))
    | cons d other =>
      simp only [List.cons_append, List.cons.injEq] at h
      simp only [List.mem_cons, forall_eq_or_imp] at hword hother
      obtain ⟨hwords, hrests⟩ := ih hword.2 hother.2 h.2
      exact ⟨by rw [h.1, hwords], hrests⟩

/-! ### The type on one line -/

/-- What a layer puts before the text of the inner node. -/
def Layer.opening : Layer → String
  | .member before name _ _ => "struct<" ++ leading "," (fieldTexts before) ++ name ++ ":"
  | .element => "array<"
  | .alternative before _ => "uniontype<" ++ leading "," (typeTexts before)

/-- What a layer puts after the text of the inner node. -/
def Layer.closing : Layer → String
  | .member _ _ after _ => trailing "," (fieldTexts after) ++ ">"
  | .element => ">"
  | .alternative _ after => trailing "," (typeTexts after) ++ ">"

lemma typeText_layer (layer : Layer) (node : Node) :
    (layer.fill node).typeText = layer.opening ++ node.typeText ++ layer.closing := by
  cases layer with
  | member before name after shapes =>
    simp only [Layer.fill, Layer.opening, Layer.closing, typeText, fieldTexts_eq_map,
      List.map_append, List.map_cons, intercalate_append_cons, String.append_assoc]
  | element => simp only [Layer.fill, Layer.opening, Layer.closing, typeText]
  | alternative before after =>
    simp only [Layer.fill, Layer.opening, Layer.closing, typeText, typeTexts_eq_map,
      List.map_append, List.map_cons, intercalate_append_cons, String.append_assoc]

/-- What a context puts before the text of the inner node. -/
def openings : List Layer → String
  | [] => ""
  | layer :: layers => layer.opening ++ openings layers

/-- What a context puts after the text of the inner node. -/
def closings : List Layer → String
  | [] => ""
  | layer :: layers => closings layers ++ layer.closing

/-- The type of a node on one line: the inner type with what the context puts around it. -/
theorem typeText_fill (layers : List Layer) (node : Node) :
    (fill layers node).typeText = openings layers ++ node.typeText ++ closings layers := by
  induction layers with
  | nil => simp [fill, openings, closings]
  | cons layer layers ih =>
    have hfill : fill (layer :: layers) node = layer.fill (fill layers node) := rfl
    rw [hfill, typeText_layer, ih]
    simp only [openings, closings, String.append_assoc]

/-! ### The type on several lines -/

/-- What a layer puts before the indented text of the inner node. -/
def Layer.indentedOpening (indent margin : ℤ) : Layer → String
  | .member before name _ _ => "struct <\n" ++ leading ",\n" (indentedFields indent margin before) ++
      blanks margin ++ name ++ ": "
  | .element => "array <"
  | .alternative before _ =>
      "uniontype <" ++ leading "," (indentedAll indent (margin + indent) before)

/-- What a layer puts after the indented text of the inner node. -/
def Layer.indentedClosing (indent margin : ℤ) : Layer → String
  | .member _ _ after _ => trailing ",\n" (indentedFields indent margin after) ++ ">"
  | .element => ">"
  | .alternative _ after => trailing "," (indentedAll indent (margin + indent) after) ++ ">"

lemma indented_layer (indent margin : ℤ) (layer : Layer) (node : Node) :
    (layer.fill node).indented indent margin = layer.indentedOpening indent margin ++
      node.indented indent (margin + indent) ++ layer.indentedClosing indent margin := by
  cases layer with
  | member before name after shapes =>
    simp only [Layer.fill, Layer.indentedOpening, Layer.indentedClosing, indented,
      indentedFields_eq_map, List.map_append, List.map_cons, intercalate_append_cons,
      String.append_assoc]
  | element => simp only [Layer.fill, Layer.indentedOpening, Layer.indentedClosing, indented]
  | alternative before after =>
    simp only [Layer.fill, Layer.indentedOpening, Layer.indentedClosing, indented,
      indentedAll_eq_map, List.map_append, List.map_cons, intercalate_append_cons,
      String.append_assoc]

/-- What a context puts before the indented text of the inner node. -/
def indentedOpenings (indent margin : ℤ) : List Layer → String
  | [] => ""
  | layer :: layers =>
    layer.indentedOpening indent margin ++ indentedOpenings indent (margin + indent) layers

/-- What a context puts after the indented text of the inner node. -/
def indentedClosings (indent margin : ℤ) : List Layer → String
  | [] => ""
  | layer :: layers =>
    indentedClosings indent (margin + indent) layers ++ layer.indentedClosing indent margin

/-- The margin within a context has moved by one indent for each layer. -/
theorem indented_fill (indent margin : ℤ) (layers : List Layer) (node : Node) :
    (fill layers node).indented indent margin = indentedOpenings indent margin layers ++
      node.indented indent (margin + indent * layers.length) ++
        indentedClosings indent margin layers := by
  induction layers generalizing margin with
  | nil => simp [fill, indentedOpenings, indentedClosings]
  | cons layer layers ih =>
    have hfill : fill (layer :: layers) node = layer.fill (fill layers node) := rfl
    have hmargin : margin + indent + indent * layers.length =
        margin + indent * (layer :: layers).length := by
      rw [List.length_cons]
      push_cast
      ring
    rw [hfill, indented_layer, ih, hmargin]
    simp only [indentedOpenings, indentedClosings, String.append_assoc]

/-! ### Listings -/

/-- The leaves below a node are leaves of every context without unions. -/
lemma mem_leaves_fill {layers : List Layer} (hlayers : ∀ layer ∈ layers, layer.step?.isSome)
    {node : Node} {root : String} {leaf : Leaf}
    (h : leaf ∈ node.leaves (locate root (steps layers))) :
    leaf ∈ (fill layers node).leaves root := by
  induction layers generalizing root with
  | nil => exact h
  | cons layer layers ih =>
    obtain ⟨hlayer, hrest⟩ := List.forall_mem_cons.mp hlayers
    cases layer with
    | member before name after shapes =>
      have hinner : leaf ∈ (fill layers node).leaves (root ++ ("." ++ name)) := ih hrest h
      rw [← String.append_assoc] at hinner
      show leaf ∈ leaves root (.struct (before ++ (name, fill layers node) :: after) shapes)
      obtain ⟨field, fields, hfields⟩ :
          ∃ field fields, before ++ (name, fill layers node) :: after = field :: fields := by
        cases before with
        | nil => exact ⟨_, _, rfl⟩
        | cons => exact ⟨_, _, rfl⟩
      rw [hfields, leaves, ← hfields, leavesOfFields_eq_flatMap, List.mem_flatMap]
      exact ⟨_, List.mem_append_right _ List.mem_cons_self, hinner⟩
    | element => exact ih hrest h
    | alternative => cases hlayer

/-- A context falls into the layers above its first union and the others. -/
lemma exists_outer_inner (layers : List Layer) : ∃ outer inner, layers = outer ++ inner ∧
    (∀ layer ∈ outer, layer.step?.isSome) ∧ ∀ layer ∈ inner.head?, layer.step? = none := by
  induction layers with
  | nil => exact ⟨[], [], rfl, by simp, by simp⟩
  | cons layer layers ih =>
    cases hlayer : layer.step? with
    | none => exact ⟨[], layer :: layers, rfl, by simp, by simpa using hlayer⟩
    | some step =>
      obtain ⟨outer, inner, rfl, houter, hinner⟩ := ih
      refine ⟨layer :: outer, inner, rfl, List.forall_mem_cons.mpr ⟨?_, houter⟩, hinner⟩
      rw [hlayer]
      rfl

/-- A listing shows an inner node without parts in the line of the first union around it, or in a
line of its own. -/
theorem exists_leaf_fill (root : String) (layers : List Layer) {node : Node}
    (hnode : ∀ path, node.leaves path = [⟨path, node⟩]) : ∃ outer inner,
      layers = outer ++ inner ∧ (∀ layer ∈ outer, layer.step?.isSome) ∧
        (∀ layer ∈ inner.head?, layer.step? = none) ∧
          ⟨locate root (steps outer), fill inner node⟩ ∈ (fill layers node).leaves root := by
  obtain ⟨outer, inner, hlayers, houter, hinner⟩ := exists_outer_inner layers
  refine ⟨outer, inner, hlayers, houter, hinner, ?_⟩
  rw [hlayers, fill_append]
  refine mem_leaves_fill houter ?_
  cases inner with
  | nil =>
    show _ ∈ node.leaves _
    rw [hnode]
    exact List.mem_cons_self
  | cons layer inner =>
    cases layer with
    | alternative before after => exact List.mem_cons_self
    | member | element => simp [Layer.step?] at hinner

end Node

end RecordSchema
