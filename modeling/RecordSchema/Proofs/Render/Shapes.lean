import RecordSchema.Proofs.Inference.Characterization
import RecordSchema.Proofs.Inference.RecordKinds
import RecordSchema.Proofs.Render.ReportParts
import RecordSchema.Proofs.Render.Skeleton
import Mathlib.Data.Finset.Sort
import Mathlib.Data.String.Basic

/-!
# Shapes and key sets

The paragraph about shapes stands for the key sets of the objects among the records, with one line
for each signature.  A signature is the keys in order with commas between them.  It tells key sets
apart as long as no key has a comma in it, except that no key and the empty key are written alike
(`signature_injOn_iff`).  So there are as many lines as key sets just when the signatures of these key
sets differ (`report_shapes`), which they need not do (`report_counts_one_shape`).
-/

namespace RecordSchema

/-- The key set of an object. -/
def Value.keySet? : Value → Option (Finset String)
  | .object members => some (Value.names members).toFinset
  | _ => none

/-- The key sets of the objects among records. -/
def keySets (records : List Value) : Finset (Finset String) :=
  (records.filterMap Value.keySet?).toFinset

/-- A key set in writing: its keys in increasing order, with commas between them. -/
def signature (keys : Finset String) : String := ",".intercalate (keys.sort (· ≤ ·))

/-! ### Signatures -/

lemma mem_keySets {records : List Value} {keys : Finset String} :
    keys ∈ keySets records ↔
      ∃ members, .object members ∈ records ∧ (Value.names members).toFinset = keys := by
  rw [keySets, List.mem_toFinset, List.mem_filterMap]
  constructor
  · rintro ⟨record, hrecord, hkeys⟩
    cases record with
    | object members => exact ⟨members, hrecord, Option.some.inj hkeys⟩
    | _ => cases hkeys
  · rintro ⟨members, hmembers, rfl⟩
    exact ⟨_, hmembers, rfl⟩

/-- The shape of an object is the signature of its key set. -/
lemma shapeSignature_eq_signature {names : List String} (distinct : names.Nodup) :
    shapeSignature names = signature names.toFinset := by
  have hperm : names.Perm (names.toFinset.sort (· ≤ ·)) := by
    refine (List.perm_ext_iff_of_nodup distinct (Finset.sort_nodup _ _)).mpr fun name => ?_
    rw [Finset.mem_sort, List.mem_toFinset]
  have hsorted : (names.toFinset.sort (· ≤ ·)).Pairwise fun a b => decide (a ≤ b) := by
    simp
  rw [shapeSignature_perm hperm, shapeSignature, sortBy_of_pairwise hsorted, signature]

lemma signature_empty : signature ∅ = "" := by
  rw [signature, Finset.sort_empty]
  rfl

lemma signature_singleton (key : String) : signature {key} = key := by
  rw [signature, Finset.sort_singleton]
  exact String.intercalate_singleton

/-- Keys without commas can be read back from their signature. -/
lemma splitOn_signature {keys : Finset String} (hcommas : ∀ key ∈ keys, ',' ∉ key.toList)
    (hne : keys ≠ ∅) :
    (signature keys).toList.splitOn ',' = (keys.sort (· ≤ ·)).map String.toList := by
  have hwords : ∀ word ∈ (keys.sort (· ≤ ·)).map String.toList, ',' ∉ word := by
    rw [List.forall_mem_map]
    exact fun key hkey => hcommas key ((Finset.mem_sort _).mp hkey)
  have hsort : (keys.sort (· ≤ ·)).map String.toList ≠ [] := by
    obtain ⟨key, hkey⟩ := Finset.nonempty_iff_ne_empty.mpr hne
    exact List.ne_nil_of_mem (List.mem_map_of_mem ((Finset.mem_sort _).mpr hkey))
  rw [signature, String.toList_intercalate]
  exact List.splitOn_intercalate ',' hwords hsort

lemma eq_of_signature_eq {keys others : Finset String} (hcommas : ∀ key ∈ keys, ',' ∉ key.toList)
    (hcommas' : ∀ key ∈ others, ',' ∉ key.toList) (hne : keys ≠ ∅) (hne' : others ≠ ∅)
    (h : signature keys = signature others) : keys = others := by
  have hwords := splitOn_signature hcommas hne
  rw [h, splitOn_signature hcommas' hne'] at hwords
  have hsort : others.sort (· ≤ ·) = keys.sort (· ≤ ·) :=
    List.map_injective_iff.mpr (fun a b => String.toList_inj.mp) hwords
  rw [← Finset.sort_toFinset keys (· ≤ ·), ← hsort, Finset.sort_toFinset]

/-- Signatures tell key sets without commas apart, unless one of them has no key and another one has
just the empty key. -/
theorem signature_injOn_iff {sets : Finset (Finset String)}
    (hcommas : ∀ keys ∈ sets, ∀ key ∈ keys, ',' ∉ key.toList) :
    Set.InjOn signature sets ↔ ¬ (∅ ∈ sets ∧ {""} ∈ sets) := by
  constructor
  · rintro hinj ⟨hempty, hsingle⟩
    have heq : signature ∅ = signature {""} := by rw [signature_empty, signature_singleton]
    exact Finset.singleton_ne_empty "" (hinj hempty hsingle heq).symm
  · intro hnot
    -- a key set that is written like the one without keys has just the empty key
    have hempty : ∅ ∈ sets → ∀ keys ∈ sets, signature keys = "" → keys = ∅ := by
      intro hmem keys hkeys h
      by_contra hne
      have hsingle : keys = {""} := by
        refine eq_of_signature_eq (hcommas keys hkeys) ?_ hne (Finset.singleton_ne_empty "") ?_
        · simp
        · rw [h, signature_singleton]
      exact hnot ⟨hmem, hsingle ▸ hkeys⟩
    intro keys hkeys others hothers h
    by_cases hne : keys = ∅
    · subst hne
      rw [signature_empty] at h
      exact (hempty hkeys others hothers h.symm).symm
    by_cases hne' : others = ∅
    · subst hne'
      rw [signature_empty] at h
      exact hempty hothers keys hkeys h
    exact eq_of_signature_eq (hcommas keys hkeys) (hcommas others hothers) hne hne' h

/-! ### The paragraph about shapes -/

lemma ShapeSet.card_toFinset (shapes : ShapeSet) :
    shapes.toList.toFinset.card = shapes.toList.length := by
  refine List.toFinset_card_of_nodup (shapes.increasing.imp ?_)
  rintro shape other hlt rfl
  exact String.lt_irrefl shape hlt

variable {detection : Detection} {records : List Value} {node : Node}

/-- Objects and nulls have the schema of a struct, if there is an object among them. -/
lemma exists_struct_of_infer (h : Node.infer detection records = .ok node)
    (hrows : ∀ record ∈ records, record = .null ∨ record.IsObject)
    (hobject : ∃ record ∈ records, record.IsObject) :
    ∃ fields shapes, node = .struct fields shapes := by
  obtain ⟨-, hblank, hrow⟩ := kind_of_infer h
  have hkind : node.kind = .struct := by
    refine (hrow.mpr hrows).resolve_left fun hnode => ?_
    obtain ⟨record, hrecord, members, rfl⟩ := hobject
    cases hblank.mp hnode _ hrecord
  exact Node.eq_struct_of_kind hkind

/-- The shapes of the struct of objects are the signatures of their key sets. -/
lemma toFinset_shapes (hclean : ∀ record ∈ records, record.Clean) {fields : List (String × Node)}
    {shapes : ShapeSet} (h : Node.infer detection records = .ok (.struct fields shapes)) :
    shapes.toList.toFinset = (keySets records).image signature := by
  have hmatches : Matches detection {record | record ∈ records} (.struct fields shapes) :=
    explains_of_infer hclean h []
  obtain ⟨-, hshapes⟩ := hmatches.struct_parts (Node.isSchema_of_infer hclean h)
    (List.mem_singleton_self _)
  ext shape
  rw [List.mem_toFinset, hshapes, Finset.mem_image]
  constructor
  · rintro ⟨members, hmembers, rfl⟩
    refine ⟨_, mem_keySets.mpr ⟨members, hmembers, rfl⟩, ?_⟩
    cases hclean _ hmembers with
    | object distinct _ => exact (shapeSignature_eq_signature distinct).symm
  · rintro ⟨keys, hkeys, rfl⟩
    obtain ⟨members, hmembers, rfl⟩ := mem_keySets.mp hkeys
    refine ⟨members, hmembers, ?_⟩
    cases hclean _ hmembers with
    | object distinct _ => exact (shapeSignature_eq_signature distinct).symm

/-- What a report on a struct says with and without its shapes. -/
lemma report_struct (style : ReportStyle) (count : ℕ) (fields : List (String × Node))
    (shapes : ShapeSet) : ∃ before,
    report { style with shapes := false } count (.struct fields shapes) = .ok before ∧
    report { style with shapes := true } count (.struct fields shapes) =
      .ok (before ++ "\n" ++ shapesText shapes) := by
  obtain ⟨schema, hschema⟩ : ∃ schema, schemaText style (.struct fields shapes) = .ok schema := by
    cases hflat : style.flat with
    | true => exact ⟨_, schemaText_of_flat hflat⟩
    | false => exact ⟨_, schemaText_of_table hflat⟩
  have hschema' (shown : Bool) :
      schemaText { style with shapes := shown } (.struct fields shapes) = .ok schema := hschema
  refine ⟨toString count ++ " records read\n\n" ++ schema, ?_, ?_⟩
  · rw [report_eq, hschema']
    show Except.ok (_ ++ "") = _
    rw [String.append_empty]
  · rw [report_eq, hschema']
    show Except.ok (_ ++ ("\n" ++ shapesText shapes)) = _
    rw [← String.append_assoc]

/-- The report on objects and nulls counts and lists the signatures of the key sets.  There are as
many as there are key sets if and only if these have different signatures.  If no key has a comma in
it, this means that there is not both an object without keys and one with just the empty key. -/
theorem report_shapes (hclean : ∀ record ∈ records, record.Clean)
    (hrows : ∀ record ∈ records, record = .null ∨ record.IsObject)
    (hobject : ∃ record ∈ records, record.IsObject)
    (h : Node.infer detection records = .ok node) (style : ReportStyle) (count : ℕ) :
    ∃ before shapes,
      report { style with shapes := false } count node = .ok before ∧
      report { style with shapes := true } count node =
        .ok (before ++ "\n" ++ shapesText shapes) ∧
      shapes.toList.toFinset = (keySets records).image signature ∧
      (shapes.toList.length = (keySets records).card ↔ Set.InjOn signature (keySets records)) ∧
      ((∀ keys ∈ keySets records, ∀ key ∈ keys, ',' ∉ key.toList) →
        (shapes.toList.length = (keySets records).card ↔
          ¬ (∅ ∈ keySets records ∧ {""} ∈ keySets records))) := by
  obtain ⟨fields, shapes, rfl⟩ := exists_struct_of_infer h hrows hobject
  obtain ⟨before, hplain, hshapes⟩ := report_struct style count fields shapes
  have himage := toFinset_shapes hclean h
  have hcount : shapes.toList.length = (keySets records).card ↔
      Set.InjOn signature (keySets records) := by
    rw [← shapes.card_toFinset, himage, Finset.card_image_iff]
  exact ⟨before, shapes, hplain, hshapes, himage, hcount,
    fun hcommas => hcount.trans (signature_injOn_iff hcommas)⟩

/-- An object without keys, one with the empty key and one with two keys have three key sets, of
which two are written alike. -/
theorem report_shapes_of_empty_key : ∃ node before shapes,
    Node.infer {} [.object [], .null, .object [("", .integer 1)],
      .object [("b", .null), ("a", .null)]] = .ok node ∧
    report { shapes := true } 4 node = .ok (before ++ "\n" ++ shapesText shapes) ∧
    shapes.toList.length ≠ (keySets [.object [], .null, .object [("", .integer 1)],
      .object [("b", .null), ("a", .null)]]).card := by
  obtain ⟨node, hnode⟩ : ∃ node, Node.infer {} [.object [], .null, .object [("", .integer 1)],
      .object [("b", .null), ("a", .null)]] = .ok node := ⟨_, rfl⟩
  obtain ⟨before, shapes, -, hreport, -, -, hcount⟩ := report_shapes (by decide)
    (by simp [Value.IsObject]) (by simp [Value.IsObject]) hnode {} 4
  refine ⟨node, before, shapes, hnode, hreport, fun heq => ?_⟩
  exact (hcount (by decide)).mp heq ⟨by decide, by decide⟩

/-- The key sets of two objects differ, but one line stands for both of them. -/
theorem report_counts_one_shape :
    (keySets [.object [("a,b", .integer 1)],
      .object [("a", .integer 1), ("b", .integer 1)]]).card = 2 ∧
    ∃ node, Node.infer {} [.object [("a,b", .integer 1)],
      .object [("a", .integer 1), ("b", .integer 1)]] = .ok node ∧
    report { shapes := true } 2 node =
      .ok ("2 records read\n\ncreate table tbl (\n   a tinyint,\n   a,b tinyint,\n" ++
        "   b tinyint\n)\n\n1 distinct shapes\n   \x7ba,b\x7d\n") := by
  refine ⟨by decide, _, rfl, ?_⟩
  decide +kernel

end RecordSchema
