import RecordSchema.Proofs.Inference.Classified

/-!
# Canonical nodes in every run

Runs classify values, fold records into a node, infer the schema of a list of records and merge
what they have, in any order and any number of times.  `Obtained` are the nodes that such runs
come by.  Each step keeps the canonical form, so every obtained node is canonical, and no merge of
a run ever stops.
-/

namespace RecordSchema

namespace Node

/-- The nodes that runs on clean values come by.  What is detected in strings may change from step
to step. -/
inductive Obtained : Node → Prop
  /-- A run starts with nothing. -/
  | nothing : Obtained .void
  | classified {detection : Detection} {path : String} {value : Value} {node : Node}
      (clean : value.Clean) (success : classify detection path value = .ok node) : Obtained node
  | folded {detection : Detection} {accumulator : Node} {record : Value} {node : Node}
      (before : Obtained accumulator) (clean : record.Clean)
      (success : fold detection accumulator record = .ok node) : Obtained node
  | inferred {detection : Detection} {records : List Value} {node : Node}
      (clean : ∀ record ∈ records, record.Clean) (success : infer detection records = .ok node) :
      Obtained node
  | merged {a b : Node} (left : Obtained a) (right : Obtained b) : Obtained (a.merge b)
  | mergedAll {nodes : List Node} (parts : ∀ node ∈ nodes, Obtained node) :
      Obtained (mergeAll nodes)

lemma Obtained.eq_void_or_recorded {node : Node} (h : Obtained node) :
    node = .void ∨ node.Recorded := by
  induction h with
  | nothing => exact Or.inl rfl
  | classified clean success => exact Or.inr (recorded_of_classify clean success)
  | folded _ clean success ih =>
    obtain ⟨node, hnode, rfl⟩ := fold_eq_ok_iff.mp success
    exact eq_void_or_recorded_merge ih (Or.inr (recorded_of_classify clean hnode))
  | inferred clean success => exact eq_void_or_recorded_infer clean success
  | merged _ _ ih ih' => exact eq_void_or_recorded_merge ih ih'
  | mergedAll _ ih => exact eq_void_or_recorded_mergeAll ih

/-- Every node that a run comes by is canonical at every depth and remembers the shapes of its
structs, unless nothing was observed.  Merging canonical nodes never stops. -/
theorem obtained_canonical_and_tryMerge_eq_ok :
    (∀ node, Obtained node → node = .void ∨ node.Recorded) ∧
      ∀ a b : Node, a.IsSchema → b.IsSchema → a.tryMerge b = .ok (a.merge b) :=
  ⟨fun _ h => h.eq_void_or_recorded, fun _ _ ha hb => IsSchema.tryMerge_eq_ok ha hb⟩

/-- The schema of one record is merged with the node of another one.  A number meets a string, and
a list with a fraction meets a list of integers. -/
theorem obtained_canonical_of_two_records : ∃ a b,
    infer {} [.object [("v", .array [.null, .double (.number false 0x4004000000000000)]),
      ("n", .integer 1)]] = .ok a ∧
    classify {} recordPath (.object [("n", .string "x"), ("v", .array [.integer 7])]) = .ok b ∧
    (a.merge b = .void ∨ (a.merge b).Recorded) ∧ a.tryMerge b = .ok (a.merge b) := by
  obtain ⟨a, ha⟩ : ∃ a, infer {} [.object [("v", .array [.null,
      .double (.number false 0x4004000000000000)]), ("n", .integer 1)]] = .ok a := ⟨_, rfl⟩
  obtain ⟨b, hb⟩ : ∃ b, classify {} recordPath
      (.object [("n", .string "x"), ("v", .array [.integer 7])]) = .ok b := ⟨_, rfl⟩
  have hobtained : Obtained a := .inferred (by decide) ha
  have hobtained' : Obtained b := .classified (by decide) hb
  obtain ⟨hcanonical, hmerge⟩ := obtained_canonical_and_tryMerge_eq_ok
  exact ⟨a, b, ha, hb, hcanonical _ (.merged hobtained hobtained'),
    hmerge a b ((hcanonical a hobtained).imp_right CanonicalWith.canonical)
      ((hcanonical b hobtained').imp_right CanonicalWith.canonical)⟩

end Node

end RecordSchema
