import Mathlib.Data.List.TakeWhile
import RecordSchema.Proofs.Files.Writing

/-!
# Names in a path

A path is read by its names, which are its parts without the empty ones.  Slashes at its end add
none, and a directory above a path has the first of its names and starts where the path does
(`Path.isAlong_above`).
-/

namespace RecordSchema.Path

/-- The names in a path: its parts without the empty ones. -/
def names (path : List Char) : List (List Char) := (parts path).filter (· ≠ [])

lemma exists_parts_eq_cons (path : List Char) : ∃ part rest, parts path = part :: rest :=
  List.exists_cons_of_ne_nil (FileStore.parts_ne_nil path)

lemma parts_slash (path : List Char) : parts ('/' :: path) = [] :: parts path := by
  obtain ⟨part, rest, h⟩ := exists_parts_eq_cons path
  unfold parts at h ⊢
  rw [List.foldr_cons, h]
  rfl

lemma parts_cons {c : Char} (hc : c ≠ '/') {path part : List Char} {rest : List (List Char)}
    (h : parts path = part :: rest) : parts (c :: path) = (c :: part) :: rest := by
  unfold parts at h ⊢
  rw [List.foldr_cons, h]
  exact if_neg hc

lemma parts_append_slash (path more : List Char) :
    parts (path ++ '/' :: more) = parts path ++ parts more := by
  induction path with
  | nil => exact parts_slash more
  | cons c path ih =>
    obtain ⟨part, rest, h⟩ := exists_parts_eq_cons path
    by_cases hc : c = '/'
    · rw [hc, List.cons_append, parts_slash, ih, parts_slash, List.cons_append]
    · have happend : parts (path ++ '/' :: more) = part :: (rest ++ parts more) := by
        rw [ih, h, List.cons_append]
      rw [List.cons_append, parts_cons hc happend, parts_cons hc h, List.cons_append]

lemma names_append_slash (path more : List Char) :
    names (path ++ '/' :: more) = names path ++ names more := by
  rw [names, parts_append_slash, List.filter_append]
  rfl

lemma names_nil : names [] = [] := rfl

/-- Slashes at the end add no name. -/
lemma names_append_slashes (path : List Char) {slashes : List Char}
    (h : ∀ c ∈ slashes, c = '/') : names (path ++ slashes) = names path := by
  induction slashes generalizing path with
  | nil => rw [List.append_nil]
  | cons c slashes ih =>
    obtain ⟨rfl, hslashes⟩ := List.forall_mem_cons.mp h
    have hnone : names slashes = [] := by
      rw [← List.nil_append slashes, ih [] hslashes, names_nil]
    rw [names_append_slash, hnone, List.append_nil]

lemma names_trimSlashes (path : List Char) : names (trimSlashes path) = names path := by
  have hsplit : (path.reverse.dropWhile (· == '/')).reverse ++
      (path.reverse.takeWhile (· == '/')).reverse = path := by
    rw [← List.reverse_append, List.takeWhile_append_dropWhile, List.reverse_reverse]
  have hslashes : ∀ c ∈ (path.reverse.takeWhile (· == '/')).reverse, c = '/' := by
    intro c hc
    simpa using List.mem_takeWhile_imp (List.mem_reverse.mp hc)
  unfold trimSlashes
  dsimp only
  split
  · rfl
  · conv_rhs => rw [← hsplit]
    exact (names_append_slashes _ hslashes).symm

/-! ### The directory of a path -/

/-- A path is its text up to the last slash, and what follows. -/
lemma splitLast_append (path : List Char) : (splitLast path).1 ++ (splitLast path).2 = path := by
  have hsuffix : (path.reverse.takeWhile (· != '/')).reverse <:+ path := by
    rw [← List.reverse_prefix, List.reverse_reverse]
    exact List.takeWhile_prefix _
  exact List.suffix_iff_eq_append.mp hsuffix

/-- Up to the last slash means that there is none, or that it is the last character. -/
lemma splitLast_fst (path : List Char) :
    (splitLast path).1 = [] ∨ ∃ front, (splitLast path).1 = front ++ ['/'] := by
  have hfst : (splitLast path).1 = (path.reverse.dropWhile (· != '/')).reverse := by
    have hwhole : (splitLast path).1 ++ (splitLast path).2 =
        (path.reverse.dropWhile (· != '/')).reverse ++ (splitLast path).2 := by
      rw [splitLast_append]
      show path = _ ++ (path.reverse.takeWhile (· != '/')).reverse
      rw [← List.reverse_append, List.takeWhile_append_dropWhile, List.reverse_reverse]
    exact List.append_cancel_right hwhole
  rw [hfst]
  cases hdrop : path.reverse.dropWhile (· != '/') with
  | nil => exact Or.inl rfl
  | cons c rest =>
    have hslash := List.head?_dropWhile_not (· != '/') path.reverse
    rw [hdrop] at hslash
    have hc : c = '/' := by simpa using hslash
    exact Or.inr ⟨rest.reverse, by rw [hc, List.reverse_cons]⟩

/-- The directory of a path has its first names. -/
lemma names_split (path : List Char) : names (split path).1 <+: names path := by
  have hnames : names (splitLast path).1 <+: names path := by
    conv_rhs => rw [← splitLast_append path]
    rcases splitLast_fst path with h | ⟨front, h⟩
    · rw [h]
      exact List.nil_prefix
    · rw [h, List.append_assoc, List.singleton_append, names_append_slash, names_append_slash,
        names_nil, List.append_nil]
      exact List.prefix_append _ _
  show names (trimSlashes (splitLast path).1) <+: _
  rwa [names_trimSlashes]

lemma isPrefix_trimSlashes (path : List Char) : trimSlashes path <+: path := by
  unfold trimSlashes
  dsimp only
  split
  · exact List.prefix_refl _
  · rw [← List.reverse_suffix, List.reverse_reverse]
    exact List.dropWhile_suffix _

/-- The directory of a path starts where the path does, unless it is empty. -/
lemma head?_split {path : List Char} (h : (split path).1 ≠ []) :
    (split path).1.head? = path.head? := by
  have hprefix : (split path).1 <+: path :=
    (isPrefix_trimSlashes _).trans ⟨_, splitLast_append path⟩
  obtain ⟨more, hmore⟩ := hprefix
  have hhead : ((split path).1 ++ more).head? = (split path).1.head? :=
    List.head?_append_of_ne_nil _ h
  rwa [hmore, eq_comm] at hhead

/-- The directory that has to be there before a path is made, and what follows it.  One slash at the
end of the path counts as no part. -/
def above (path : List Char) : List Char × List Char :=
  match split path with
  | (head, []) => split head
  | parts => parts

/-- One path leads along the way to another one. -/
def IsAlong (path whole : List Char) : Prop :=
  names path <+: names whole ∧ path.head? = whole.head?

lemma isAlong_split {path : List Char} (h : (split path).1 ≠ []) : IsAlong (split path).1 path :=
  ⟨names_split path, head?_split h⟩

lemma IsAlong.trans {path middle whole : List Char} (h : IsAlong path middle)
    (h' : IsAlong middle whole) : IsAlong path whole :=
  ⟨h.1.trans h'.1, h.2.trans h'.2⟩

lemma isAlong_above {path : List Char} (h : (above path).1 ≠ []) : IsAlong (above path).1 path := by
  unfold above at h ⊢
  split at h
  · next head hhead =>
    have halong := isAlong_split h
    have hne : (split path).1 ≠ [] := by
      rw [hhead]
      rintro rfl
      exact h rfl
    have hfront := isAlong_split hne
    rw [hhead] at hfront
    exact halong.trans hfront
  · exact isAlong_split h

end RecordSchema.Path
