import RecordSchema.Proofs.Inference.RecordKinds
import RecordSchema.Proofs.Survey.Jobs

/-!
# What a survey folds

Whatever its options are, a survey that succeeds folds the records of its sample that can be
classified.  With several jobs it merges their nodes in parts, which makes no difference to a
property that a merge has just when both sides have it (`exists_infer_folded`).  The kind of the
schema is such a property, so it tells what the folded records are (`kind_of_survey`).
-/

namespace RecordSchema

/-- The records of the sample that can be classified. -/
def folded (options : SurveyOptions) (sources : List Source) : List Value :=
  kept options.detection ((RecordStream.ofSources sources).take options.sampleSize).values

variable {options : SurveyOptions} {sources : List Source} {findings : Findings}

/-- A survey merges the nodes of its sample, with several jobs those of each source for themselves
first. -/
lemma exists_parts_of_survey (h : (survey options sources).result = .ok findings) :
    ∃ parts : List (List Node),
      ((RecordStream.ofSources sources).take options.sampleSize).nodes options =
        .ok parts.flatten ∧
      (findings.node = Node.mergeAll parts.flatten ∨
        findings.node = Node.mergeAll (parts.map Node.mergeAll)) := by
  unfold survey at h
  split_ifs at h with hempty hsample hjobs hlarge
  · have hnonpos : options.sampleSize ≤ 0 := not_lt.mp fun hpos => hsample ⟨hjobs.1, hpos⟩
    rw [surveyByWorkers_result] at h
    cases hparts : sources.mapM (Source.nodes options) with
    | error failure =>
      rw [hparts] at h
      cases h
    | ok parts =>
      rw [hparts] at h
      cases h
      refine ⟨parts, ?_, Or.inr rfl⟩
      rw [RecordStream.take_of_nonpos hnonpos, RecordStream.nodes_ofSources, hparts]
      rfl
  · rw [(surveyInOrder_report options sources).1] at h
    cases hnodes : ((RecordStream.ofSources sources).take options.sampleSize).nodes options with
    | error failure =>
      rw [hnodes] at h
      cases h
    | ok nodes =>
      rw [hnodes] at h
      cases h
      refine ⟨[nodes], ?_, Or.inl ?_⟩
      · rw [List.flatten_singleton]
      · rw [List.flatten_singleton]
        rfl

/-- The schema of a survey has what the schema of the folded records has, as far as properties are
concerned that a merge has just when both sides have them. -/
theorem exists_infer_folded (h : (survey options sources).result = .ok findings) :
    ∃ node, Node.infer options.detection (folded options sources) = .ok node ∧
      ∀ P : Node → Prop, P .void → (∀ a b : Node, P (a.merge b) ↔ P a ∧ P b) →
        (P findings.node ↔ P node) := by
  obtain ⟨parts, hparts, hmerge⟩ := exists_parts_of_survey h
  have hnodes : ((RecordStream.ofSources sources).take options.sampleSize).values.mapM
      (recordNode options) = .ok parts.flatten := by
    obtain ⟨nodes, hnodes, hended⟩ := bind_eq_ok_iff.mp hparts
    split at hended
    · cases hended
      exact hnodes
    · cases hended
  refine ⟨_, infer_kept hnodes, fun P hvoid hiff => ?_⟩
  rcases hmerge with hmerge | hmerge
  · rw [hmerge]
  · rw [hmerge]
    exact Node.mergeAll_map_mergeAll_iff hvoid hiff parts

/-- The kind of the schema of a survey tells what the folded records are. -/
theorem kind_of_survey (h : (survey options sources).result = .ok findings) :
    (findings.node.kind = .void ↔ folded options sources = []) ∧
      (findings.node.kind.IsBlank ↔ ∀ record ∈ folded options sources, record = .null) ∧
      (findings.node.kind.IsRow ↔
        ∀ record ∈ folded options sources, record = .null ∨ record.IsObject) := by
  obtain ⟨node, hnode, hiff⟩ := exists_infer_folded h
  obtain ⟨hvoid, hblank, hrow⟩ := kind_of_infer hnode
  have hkind {P : Kind → Prop} (hvoid : P .void)
      (hmerge : ∀ left right : Kind, P (left.merge right) ↔ P left ∧ P right) :
      P findings.node.kind ↔ P node.kind := by
    refine hiff (fun node => P node.kind) hvoid fun a b => ?_
    rw [Node.kind_merge]
    exact hmerge a.kind b.kind
  refine ⟨?_, ?_, ?_⟩
  · exact (hkind (P := fun kind => kind = .void) rfl Kind.merge_eq_void_iff).trans hvoid
  · exact (hkind (Or.inl rfl) Kind.isBlank_merge_iff).trans hblank
  · exact (hkind (Or.inl (Or.inl rfl)) Kind.isRow_merge_iff).trans hrow

end RecordSchema
