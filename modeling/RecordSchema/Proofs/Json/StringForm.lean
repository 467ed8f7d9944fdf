import Mathlib.Tactic
import RecordSchema.Json.Reader

/-!
# The form of strings

Between the quotes of a string stand characters in one to four bytes and escapes.  A reader that is
within a string has met whole parts of this kind and the beginning of one more, which its mode tells
(`StringReads`).  Each byte either goes on with that part, ends the string at a quote between two
parts, or breaks the form (`stepString_cases`); the bytes of a whole part bring the reader from
between two parts to between two parts (`run_stringPart`).
-/

namespace RecordSchema.Json

/-! ### Strings in writing -/

/-- The byte opens a character with so many bytes to come. -/
inductive Opens : UInt8 → ℕ → Prop
  | two {b : UInt8} (low : 0xc0 ≤ b) (high : b < 0xe0) : Opens b 1
  | three {b : UInt8} (low : 0xe0 ≤ b) (high : b < 0xf0) : Opens b 2
  | four {b : UInt8} (low : 0xf0 ≤ b) (high : b < 0xf8) : Opens b 3

/-- A character or an escape. -/
inductive StringPart : List UInt8 → Prop
  | ascii {b : UInt8} (printable : 0x20 ≤ b) (ascii : b < 0x80) (quote : b ≠ 0x22)
      (plain : b ≠ backslash) : StringPart [b]
  | character {b : UInt8} {further : List UInt8} (opens : Opens b further.length)
      (continued : ∀ c ∈ further, Utf8.isContinuation c = true) : StringPart (b :: further)
  | letter {b : UInt8} (known : isLetterEscape b = true) : StringPart [backslash, b]
  | unit {digits : List UInt8} (four : digits.length = 4)
      (hex : ∀ d ∈ digits, (hexDigit? d).isSome) : StringPart (backslash :: letterU :: digits)

/-- What may stand between the quotes of a string. -/
inductive StringForm : List UInt8 → Prop
  | nil : StringForm []
  | append {raw part : List UInt8} (form : StringForm raw) (last : StringPart part) :
      StringForm (raw ++ part)

/-- The string in writing, with its quotes. -/
def quoted (raw : List UInt8) : List UInt8 := 0x22 :: (raw ++ [0x22])

/-! ### Strings being read -/

/-- The beginning of a part, as far as a mode has got. -/
inductive Begun : StringMode → List UInt8 → Prop
  | plain : Begun .plain []
  | escape : Begun .escape [backslash]
  | digits {found : List UInt8} {left : ℕ} (four : found.length + left = 4) (some : 0 < left)
      (hex : ∀ d ∈ found, (hexDigit? d).isSome) :
      Begun (.digits left) (backslash :: letterU :: found)
  | continuation {b : UInt8} {further : List UInt8} {left : ℕ}
      (opens : Opens b (further.length + left)) (some : 0 < left)
      (continued : ∀ c ∈ further, Utf8.isContinuation c = true) :
      Begun (.continuation left) (b :: further)

/-- Whole parts and the beginning of one more. -/
def StringReads (mode : StringMode) (raw : List UInt8) : Prop :=
  ∃ form part, StringForm form ∧ Begun mode part ∧ raw = form ++ part

lemma stringReads_nil : StringReads .plain [] := ⟨[], [], .nil, .plain, rfl⟩

lemma StringReads.form {raw : List UInt8} (h : StringReads .plain raw) : StringForm raw := by
  obtain ⟨form, part, hform, hpart, rfl⟩ := h
  cases hpart with
  | plain => rwa [List.append_nil]

/-- A byte that goes on with the part. -/
lemma StringReads.more {mode next : StringMode} {raw : List UInt8} {b : UInt8}
    (h : StringReads mode raw)
    (hmore : ∀ part, Begun mode part → Begun next (part ++ [b])) : StringReads next (raw ++ [b]) := by
  obtain ⟨form, part, hform, hpart, rfl⟩ := h
  exact ⟨form, part ++ [b], hform, hmore part hpart, List.append_assoc _ _ _⟩

/-- A byte that ends the part. -/
lemma StringReads.last {mode : StringMode} {raw : List UInt8} {b : UInt8} (h : StringReads mode raw)
    (hlast : ∀ part, Begun mode part → StringPart (part ++ [b])) :
    StringReads .plain (raw ++ [b]) := by
  obtain ⟨form, part, hform, hpart, rfl⟩ := h
  refine ⟨form ++ (part ++ [b]), [], hform.append (hlast part hpart), .plain, ?_⟩
  rw [List.append_nil, List.append_assoc]

/-- Between two parts, a byte opens the next one or is one. -/
lemma StringReads.begin {next : StringMode} {raw : List UInt8} {b : UInt8}
    (h : StringReads .plain raw) (hnext : Begun next [b]) : StringReads next (raw ++ [b]) := by
  refine h.more fun part hpart => ?_
  cases hpart with
  | plain => exact hnext

/-- A byte within a string goes on with it, or breaks its form. -/
def GoesOn (r : Reader) (mode : StringMode) (met : List UInt8) (b : UInt8) : Prop :=
  (∃ next, r.stepString mode met b = .ok { r with scan := .string next (b :: met) } ∧
    ∀ raw, StringReads mode raw → StringReads next (raw ++ [b])) ∨
  r.stepString mode met b = r.stop .malformed

section Steps

variable (r : Reader) (met : List UInt8) (b : UInt8)

/-- Between two parts, any byte but a quote. -/
lemma goesOn_plain (hquote : b ≠ 0x22) : GoesOn r .plain met b := by
  unfold GoesOn Reader.stepString
  dsimp only
  rw [if_neg hquote]
  split_ifs with hbackslash hcontrol hascii hfree htwo hthree hfour
  · refine Or.inl ⟨_, rfl, fun raw h => h.begin ?_⟩
    rw [hbackslash]
    exact .escape
  · exact Or.inr rfl
  · refine Or.inl ⟨_, rfl, fun raw h => h.last fun part hpart => ?_⟩
    cases hpart with
    | plain => exact .ascii (UInt8.not_lt.mp hcontrol) hascii hquote hbackslash
  · exact Or.inr rfl
  · exact Or.inl ⟨_, rfl, fun raw h => h.begin
      (.continuation (.two (UInt8.not_lt.mp hfree) htwo) (by decide) (by simp))⟩
  · exact Or.inl ⟨_, rfl, fun raw h => h.begin
      (.continuation (.three (UInt8.not_lt.mp htwo) hthree) (by decide) (by simp))⟩
  · exact Or.inl ⟨_, rfl, fun raw h => h.begin
      (.continuation (.four (UInt8.not_lt.mp hthree) hfour) (by decide) (by simp))⟩
  · exact Or.inr rfl

/-- After a backslash. -/
lemma goesOn_escape : GoesOn r .escape met b := by
  unfold GoesOn Reader.stepString
  dsimp only
  split_ifs with hunit hletter
  · refine Or.inl ⟨_, rfl, fun raw h => h.more fun part hpart => ?_⟩
    cases hpart with
    | escape =>
      rw [hunit]
      exact .digits rfl (by decide) (by simp)
  · refine Or.inl ⟨_, rfl, fun raw h => h.last fun part hpart => ?_⟩
    cases hpart with
    | escape => exact .letter hletter
  · exact Or.inr rfl

/-- Within the digits of a unit. -/
lemma goesOn_digits (left : ℕ) : GoesOn r (.digits left) met b := by
  unfold GoesOn Reader.stepString
  dsimp only
  split_ifs with hhex hlast
  · exact Or.inr rfl
  · refine Or.inl ⟨_, rfl, fun raw h => h.last fun part hpart => ?_⟩
    cases hpart with
    | @digits found _ four some hex =>
      have hfour : (found ++ [b]).length = 4 := by
        rw [List.length_append, List.length_singleton]
        omega
      have hmore : ∀ d ∈ found ++ [b], (hexDigit? d).isSome := by
        rw [List.forall_mem_append, List.forall_mem_singleton]
        exact ⟨hex, by simpa [Option.isSome_iff_ne_none] using hhex⟩
      exact .unit hfour hmore
  · refine Or.inl ⟨_, rfl, fun raw h => h.more fun part hpart => ?_⟩
    cases hpart with
    | @digits found _ four some hex =>
      have hfour : (found ++ [b]).length + (left - 1) = 4 := by
        rw [List.length_append, List.length_singleton]
        omega
      have hmore : ∀ d ∈ found ++ [b], (hexDigit? d).isSome := by
        rw [List.forall_mem_append, List.forall_mem_singleton]
        exact ⟨hex, by simpa [Option.isSome_iff_ne_none] using hhex⟩
      exact .digits hfour (by omega) hmore

/-- Within a character of several bytes. -/
lemma goesOn_continuation (left : ℕ) : GoesOn r (.continuation left) met b := by
  unfold GoesOn Reader.stepString
  dsimp only
  split_ifs with hcontinuation hlast
  · exact Or.inr rfl
  · refine Or.inl ⟨_, rfl, fun raw h => h.last fun part hpart => ?_⟩
    cases hpart with
    | @continuation lead further _ opens some continued =>
      have hlength : (further ++ [b]).length = further.length + left := by
        rw [List.length_append, List.length_singleton]
        omega
      have hmore : ∀ c ∈ further ++ [b], Utf8.isContinuation c = true := by
        rw [List.forall_mem_append, List.forall_mem_singleton]
        exact ⟨continued, by simpa using hcontinuation⟩
      rw [← hlength] at opens
      exact .character opens hmore
  · refine Or.inl ⟨_, rfl, fun raw h => h.more fun part hpart => ?_⟩
    cases hpart with
    | @continuation lead further _ opens some continued =>
      have hlength : (further ++ [b]).length + (left - 1) = further.length + left := by
        rw [List.length_append, List.length_singleton]
        omega
      have hmore : ∀ c ∈ further ++ [b], Utf8.isContinuation c = true := by
        rw [List.forall_mem_append, List.forall_mem_singleton]
        exact ⟨continued, by simpa using hcontinuation⟩
      rw [← hlength] at opens
      exact .continuation opens (by omega) hmore

/-- What a byte within a string does: it ends the string, goes on with it, or breaks the form. -/
theorem stepString_cases (mode : StringMode) :
    (mode = .plain ∧ b = 0x22 ∧ r.stepString mode met b = r.take (.string met.reverse)) ∨
      GoesOn r mode met b := by
  cases mode with
  | plain =>
    by_cases hquote : b = 0x22
    · exact Or.inl ⟨rfl, hquote, by simp [Reader.stepString, hquote]⟩
    · exact Or.inr (goesOn_plain r met b hquote)
  | escape => exact Or.inr (goesOn_escape r met b)
  | digits left => exact Or.inr (goesOn_digits r met b left)
  | continuation left => exact Or.inr (goesOn_continuation r met b left)

end Steps

/-! ### Reading whole parts -/

lemma run_append (r : Reader) (bytes more : List UInt8) :
    r.run (bytes ++ more) = (r.run bytes).bind fun next => next.run more :=
  List.foldlM_append

lemma run_cons (r : Reader) (b : UInt8) (bytes : List UInt8) :
    r.run (b :: bytes) = (r.step b).bind fun next => next.run bytes :=
  List.foldlM_cons

/-- The reader within a string, with what it has met. -/
def Reader.within (r : Reader) (mode : StringMode) (raw : List UInt8) : Reader :=
  { r with scan := .string mode raw.reverse }

lemma step_within (r : Reader) (mode : StringMode) (raw : List UInt8) (b : UInt8) :
    (r.within mode raw).step b = (r.within mode raw).stepString mode raw.reverse b := rfl

lemma within_snoc (r : Reader) (mode next : StringMode) (raw : List UInt8) (b : UInt8) :
    ({ r.within mode raw with scan := .string next (b :: raw.reverse) } : Reader) =
      r.within next (raw ++ [b]) := by
  simp [Reader.within]

/-- The bytes of a kind that a mode counts, as many as are left. -/
lemma run_counted (r : Reader) {mode : ℕ → StringMode} {kind : UInt8 → Prop}
    (hstep : ∀ left raw b, kind b → (r.within (mode left) raw).step b =
      .ok (r.within (if left ≤ 1 then .plain else mode (left - 1)) (raw ++ [b])))
    {bytes : List UInt8} (hbytes : bytes ≠ []) (hkind : ∀ b ∈ bytes, kind b) (raw : List UInt8) :
    (r.within (mode bytes.length) raw).run bytes = .ok (r.within .plain (raw ++ bytes)) := by
  induction bytes generalizing raw with
  | nil => exact absurd rfl hbytes
  | cons b bytes ih =>
    obtain ⟨hb, hrest⟩ := List.forall_mem_cons.mp hkind
    rw [run_cons, hstep _ _ _ hb]
    by_cases hlast : bytes = []
    · subst hlast
      rfl
    · have hpos := List.length_pos_iff.mpr hlast
      have hrun := ih hlast hrest (raw ++ [b])
      rw [List.append_assoc] at hrun
      rw [List.length_cons, if_neg (by omega), Nat.add_sub_cancel]
      exact hrun

/-- The digits of a unit, as many as are left. -/
lemma run_digits (r : Reader) {digits : List UInt8} (hdigits : digits ≠ [])
    (hex : ∀ d ∈ digits, (hexDigit? d).isSome) (raw : List UInt8) :
    (r.within (.digits digits.length) raw).run digits = .ok (r.within .plain (raw ++ digits)) := by
  refine run_counted r (fun left raw d hd => ?_) hdigits hex raw
  have hsome : ¬ (hexDigit? d).isNone = true := by
    simpa [Option.isSome_iff_ne_none] using hd
  rw [step_within]
  unfold Reader.stepString
  dsimp only
  rw [if_neg hsome]
  split_ifs <;> rw [within_snoc]

/-- The bytes that continue a character, as many as are left. -/
lemma run_further (r : Reader) {further : List UInt8} (hfurther : further ≠ [])
    (continued : ∀ c ∈ further, Utf8.isContinuation c = true) (raw : List UInt8) :
    (r.within (.continuation further.length) raw).run further =
      .ok (r.within .plain (raw ++ further)) := by
  refine run_counted r (fun left raw c hc => ?_) hfurther continued raw
  have hcontinuation : ¬ (!Utf8.isContinuation c) = true := by simp [hc]
  rw [step_within]
  unfold Reader.stepString
  dsimp only
  rw [if_neg hcontinuation]
  split_ifs <;> rw [within_snoc]

/-- The byte that opens a character. -/
lemma step_opens (r : Reader) {b : UInt8} {n : ℕ} (opens : Opens b n) (raw : List UInt8) :
    (r.within .plain raw).step b = .ok (r.within (.continuation n) (raw ++ [b])) := by
  have hlow : 0xc0 ≤ b := by
    cases opens with
    | two low => exact low
    | three low => exact UInt8.le_trans (by decide) low
    | four low => exact UInt8.le_trans (by decide) low
  have hquote : b ≠ 0x22 := by
    rintro rfl
    exact absurd hlow (by decide)
  have hbackslash : b ≠ backslash := by
    rintro rfl
    exact absurd hlow (by decide)
  rw [step_within]
  unfold Reader.stepString
  dsimp only
  rw [if_neg hquote, if_neg hbackslash,
    if_neg (UInt8.not_lt.mpr (UInt8.le_trans (by decide : (0x20 : UInt8) ≤ 0xc0) hlow)),
    if_neg (UInt8.not_lt.mpr (UInt8.le_trans (by decide : (0x80 : UInt8) ≤ 0xc0) hlow)),
    if_neg (UInt8.not_lt.mpr hlow)]
  cases opens with
  | two low high => rw [if_pos high, within_snoc]
  | three low high => rw [if_neg (UInt8.not_lt.mpr low), if_pos high, within_snoc]
  | four low high =>
    rw [if_neg (UInt8.not_lt.mpr (UInt8.le_trans (by decide : (0xe0 : UInt8) ≤ 0xf0) low)),
      if_neg (UInt8.not_lt.mpr low), if_pos high, within_snoc]

lemma Opens.pos {b : UInt8} {n : ℕ} (opens : Opens b n) : 0 < n := by
  cases opens <;> decide

/-- The backslash that opens an escape. -/
lemma step_backslash (r : Reader) (raw : List UInt8) :
    (r.within .plain raw).step backslash = .ok (r.within .escape (raw ++ [backslash])) := by
  rw [step_within]
  unfold Reader.stepString
  dsimp only
  rw [if_neg (by decide), if_pos rfl, within_snoc]

/-- The letter that opens a unit. -/
lemma step_letterU (r : Reader) (raw : List UInt8) :
    (r.within .escape raw).step letterU = .ok (r.within (.digits 4) (raw ++ [letterU])) := by
  rw [step_within]
  unfold Reader.stepString
  dsimp only
  rw [if_pos rfl, within_snoc]

/-- A whole part leads from between two parts to between two parts. -/
theorem run_stringPart (r : Reader) {part : List UInt8} (h : StringPart part) (raw : List UInt8) :
    (r.within .plain raw).run part = .ok (r.within .plain (raw ++ part)) := by
  cases h with
  | @ascii b printable ascii quote plain =>
    rw [run_cons, step_within]
    unfold Reader.stepString
    dsimp only
    rw [if_neg quote, if_neg plain, if_neg (UInt8.not_lt.mpr printable), if_pos ascii, within_snoc]
    rfl
  | @character b further opens continued =>
    have hfurther : further ≠ [] := List.length_pos_iff.mp opens.pos
    rw [run_cons, step_opens r opens]
    have hrun := run_further r hfurther continued (raw ++ [b])
    rwa [List.append_assoc] at hrun
  | @letter b known =>
    have hunit : b ≠ letterU := by
      rintro rfl
      exact absurd known (by decide)
    rw [run_cons, step_backslash]
    show (r.within .escape (raw ++ [backslash])).run [b] = _
    rw [run_cons, step_within]
    unfold Reader.stepString
    dsimp only
    rw [if_neg hunit, if_pos known, within_snoc, List.append_assoc]
    rfl
  | @unit digits four hex =>
    have hdigits : digits ≠ [] := List.length_pos_iff.mp (by omega)
    have hrun := run_digits r hdigits hex (raw ++ [backslash] ++ [letterU])
    rw [four] at hrun
    rw [run_cons, step_backslash]
    show (r.within .escape (raw ++ [backslash])).run (letterU :: digits) = _
    rw [run_cons, step_letterU]
    show (r.within (.digits 4) (raw ++ [backslash] ++ [letterU])).run digits = _
    rw [hrun]
    simp

/-- What may stand between quotes is read without a stop. -/
theorem run_stringForm (r : Reader) {raw : List UInt8} (h : StringForm raw) :
    (r.within .plain []).run raw = .ok (r.within .plain raw) := by
  induction h with
  | nil => rfl
  | @append raw part _ last ih =>
    rw [run_append, ih]
    exact run_stringPart r last raw

end RecordSchema.Json
