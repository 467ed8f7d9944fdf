import Mathlib.Algebra.Ring.Parity
import Mathlib.Computability.Language
import RecordSchema.Classification

/-!
# The forms of strings

Timestamps and hexadecimal strings as languages: what their parts are, which of them may be missing,
and in which order they stand.  Strings are told apart by these languages and by nothing else
(`classifyString_forms`).

A recogniser takes one part after the other off the beginning of a text.  No part can be taken off
in two ways, and where a part may be missing the next one begins with another character, so nothing
is ever tried again.
-/

namespace RecordSchema

namespace Timestamp

/-! ### The language of timestamps -/

/-- The words of one character of a class. -/
def one (p : Char → Prop) : Language Char := {word | ∃ c, p c ∧ word = [c]}

/-- The words of a language, or nothing. -/
def optional (l : Language Char) : Language Char := 1 + l

/-- An ASCII digit. -/
def digit : Language Char := one fun c => '0' ≤ c ∧ c ≤ '9'

/-- What stands between the numbers of a date. -/
def separator : Language Char := one fun c => c = '-' ∨ c = '/'

/-- A double quote. -/
def quote : Language Char := one (· = '"')

/-- What stands between the numbers of a time. -/
def colon : Language Char := one (· = ':')

/-- Year, month and day. -/
def date : Language Char := digit ^ 4 * separator * digit ^ 2 * separator * digit ^ 2

/-- Hours, minutes and seconds. -/
def time : Language Char := digit ^ 2 * colon * digit ^ 2 * colon * digit ^ 2

/-- The distance of a zone in hours, or in hours and minutes. -/
def offset : Language Char :=
  optional (one (· = ' ')) * one (fun c => c = '+' ∨ c = '-') * digit ^ 2 *
    optional (optional colon * digit ^ 2)

/-- A zone. -/
def zone : Language Char := one (· = 'Z') + offset

/-- A timestamp, with the quotes that may stand around it. -/
def form : Language Char :=
  optional quote * date * one (fun c => c = 'T' ∨ c = ' ') * time * optional zone * optional quote

/-! ### Words -/

variable {p : Char → Prop} {l m : Language Char} {cs : List Char}

lemma mem_one : cs ∈ one p ↔ ∃ c, p c ∧ cs = [c] := Iff.rfl

lemma mem_one_mul : cs ∈ one p * l ↔ ∃ c rest, cs = c :: rest ∧ p c ∧ rest ∈ l := by
  rw [Language.mem_mul]
  constructor
  · rintro ⟨word, ⟨c, hc, rfl⟩, rest, hrest, rfl⟩
    exact ⟨c, rest, rfl, hc, hrest⟩
  · rintro ⟨c, rest, rfl, hc, hrest⟩
    exact ⟨[c], ⟨c, hc, rfl⟩, rest, hrest, rfl⟩

lemma mem_optional : cs ∈ optional l ↔ cs = [] ∨ cs ∈ l := by
  rw [optional, Language.mem_add, Language.mem_one]

lemma mem_optional_mul : cs ∈ optional l * m ↔ cs ∈ m ∨ cs ∈ l * m := by
  rw [optional, add_mul, one_mul, Language.mem_add]

/-- What may be missing is skipped if it is there, as long as nothing else begins like it. -/
lemma mem_optional_mul_iff {c : Char} (h : ∀ rest, c :: rest ∉ l) :
    cs ∈ optional (one (· = c)) * l ↔ skipOptional c cs ∈ l := by
  rw [mem_optional_mul, mem_one_mul]
  cases cs with
  | nil => simp [skipOptional]
  | cons d cs =>
    by_cases hd : d = c
    · simp [skipOptional, hd, h cs]
    · simp [skipOptional, hd]

/-! ### Scanners -/

/-- A scanner takes the words of a language off the beginning of a text. -/
def Scans (scan : List Char → Option (List Char)) (l : Language Char) : Prop :=
  ∀ cs rest, scan cs = some rest ↔ ∃ word ∈ l, word ++ rest = cs

/-- A test accepts the words of a language. -/
def Accepts (test : List Char → Bool) (l : Language Char) : Prop := ∀ cs, test cs = true ↔ cs ∈ l

lemma scans_skipOne {test : Char → Bool} (h : ∀ c, test c = true ↔ p c) :
    Scans (skipOne test) (one p) := by
  intro cs rest
  cases cs with
  | nil => simp [skipOne, mem_one]
  | cons c cs =>
    rw [skipOne]
    by_cases hc : p c
    · simp [mem_one, (h c).mpr hc, hc, eq_comm]
    · simp [mem_one, h, hc]

/-- One scanner after the other. -/
lemma Scans.bind {scan next : List Char → Option (List Char)} (h : Scans scan l)
    (hnext : Scans next m) : Scans (fun cs => scan cs >>= next) (l * m) := by
  intro cs rest
  rw [Option.bind_eq_bind, Option.bind_eq_some_iff]
  constructor
  · rintro ⟨between, hbetween, hrest⟩
    obtain ⟨word, hword, rfl⟩ := (h cs between).mp hbetween
    obtain ⟨word', hword', rfl⟩ := (hnext between rest).mp hrest
    exact ⟨word ++ word', Language.append_mem_mul hword hword', List.append_assoc _ _ _⟩
  · rintro ⟨_, hmul, rfl⟩
    obtain ⟨word, hword, word', hword', rfl⟩ := Language.mem_mul.mp hmul
    exact ⟨word' ++ rest, (h _ _).mpr ⟨word, hword, (List.append_assoc _ _ _).symm⟩,
      (hnext _ _).mpr ⟨word', hword', rfl⟩⟩

/-- A test of what a scanner leaves. -/
lemma Scans.accepts {scan : List Char → Option (List Char)} {test : List Char → Bool}
    (h : Scans scan l) (htest : Accepts test m) :
    Accepts (fun cs => (scan cs).any test) (l * m) := by
  intro cs
  rw [Option.any_eq_true, Language.mem_mul]
  constructor
  · rintro ⟨rest, hrest, hok⟩
    obtain ⟨word, hword, rfl⟩ := (h cs rest).mp hrest
    exact ⟨word, hword, rest, (htest rest).mp hok, rfl⟩
  · rintro ⟨word, hword, rest, hrest, rfl⟩
    exact ⟨rest, (h _ rest).mpr ⟨word, hword, rfl⟩, (htest rest).mpr hrest⟩

/-! ### The scanners of timestamps -/

lemma scans_skipTwoDigits : Scans skipTwoDigits (digit ^ 2) := by
  have hdigit : Scans (skipOne isDigit) digit := scans_skipOne fun c => by simp [isDigit]
  rw [pow_two]
  exact hdigit.bind hdigit

lemma scans_skipDate : Scans skipDate date := by
  have hseparator : Scans (skipOne fun c => c = '-' || c = '/') separator :=
    scans_skipOne fun c => by simp
  have hyear : digit ^ 4 = digit ^ 2 * digit ^ 2 := pow_add digit 2 2
  have hdate : date =
      digit ^ 2 * (digit ^ 2 * (separator * (digit ^ 2 * (separator * digit ^ 2)))) := by
    simp only [date, hyear, mul_assoc]
  rw [hdate]
  exact scans_skipTwoDigits.bind <| scans_skipTwoDigits.bind <| hseparator.bind <|
    scans_skipTwoDigits.bind <| hseparator.bind scans_skipTwoDigits

lemma scans_skipTime : Scans skipTime time := by
  have hcolon : Scans (skipOne (· = ':')) colon := scans_skipOne fun c => by simp
  have htime : time = digit ^ 2 * (colon * (digit ^ 2 * (colon * digit ^ 2))) := by
    simp only [time, mul_assoc]
  rw [htime]
  exact scans_skipTwoDigits.bind <| hcolon.bind <| scans_skipTwoDigits.bind <|
    hcolon.bind scans_skipTwoDigits

/-! ### The end of a timestamp -/

lemma accepts_isClosing : Accepts isClosing (optional quote) := by
  intro cs
  simp [isClosing, mem_optional, quote, mem_one]

/-- A text that begins with a digit begins with nothing else. -/
lemma cons_notMem_digits {n : ℕ} {c : Char} (hc : isDigit c = false) (rest : List Char) :
    c :: rest ∉ digit ^ (n + 1) * l := by
  rw [pow_succ', mul_assoc, digit, mem_one_mul]
  rintro ⟨d, cs, hcons, hd, -⟩
  cases hcons
  simp [isDigit, hd] at hc

lemma accepts_isZoneMinutes :
    Accepts isZoneMinutes (optional (optional colon * digit ^ 2) * optional quote) := by
  intro cs
  have htest : isZoneMinutes cs =
      (isClosing cs || (skipTwoDigits (skipOptional ':' cs)).any isClosing) := by
    unfold isZoneMinutes
    cases skipTwoDigits (skipOptional ':' cs) <;> rfl
  have hdigits : (skipTwoDigits (skipOptional ':' cs)).any isClosing = true ↔
      cs ∈ optional colon * (digit ^ 2 * optional quote) := by
    rw [colon, mem_optional_mul_iff (cons_notMem_digits (by decide))]
    exact scans_skipTwoDigits.accepts accepts_isClosing _
  rw [htest, Bool.or_eq_true, accepts_isClosing cs, hdigits,
    mem_optional_mul (l := optional colon * digit ^ 2), mul_assoc]

/-- The sign of an offset, with the blank that may stand before it. -/
lemma mem_offset_mul_iff : cs ∈ offset * l ↔ skipOptional ' ' cs ∈
    one (fun c => c = '+' ∨ c = '-') *
      (digit ^ 2 * (optional (optional colon * digit ^ 2) * l)) := by
  rw [offset, mul_assoc, mul_assoc, mul_assoc, mem_optional_mul_iff]
  rintro rest h
  obtain ⟨c, cs, hcons, hc, -⟩ := mem_one_mul.mp h
  cases hcons
  simp at hc

/-- An offset in front of the end. -/
lemma accepts_offset : Accepts (fun cs => (skipOne (fun c => c = '+' || c = '-')
    (skipOptional ' ' cs)).any fun rest => (skipTwoDigits rest).any isZoneMinutes)
    (offset * optional quote) := by
  intro cs
  have hsign : Scans (skipOne fun c => c = '+' || c = '-') (one fun c => c = '+' ∨ c = '-') :=
    scans_skipOne fun c => by simp
  rw [mem_offset_mul_iff]
  exact hsign.accepts (scans_skipTwoDigits.accepts accepts_isZoneMinutes) _

lemma accepts_isZone : Accepts isZone (optional zone * optional quote) := by
  intro cs
  rw [mem_optional_mul, zone, add_mul, Language.mem_add, ← accepts_isClosing cs,
    ← accepts_offset cs, mem_one_mul]
  by_cases hletter : ∃ rest, cs = 'Z' :: rest
  · -- the letter is no sign, so it is followed by the end
    obtain ⟨rest, rfl⟩ := hletter
    have hzone : isZone ('Z' :: rest) = (isClosing ('Z' :: rest) || isClosing rest) := rfl
    simp [hzone, accepts_isClosing rest, skipOptional, skipOne]
  · have hnone : ¬ ∃ c rest, cs = c :: rest ∧ c = 'Z' ∧ rest ∈ optional quote := by
      rintro ⟨c, rest, rfl, rfl, -⟩
      exact hletter ⟨rest, rfl⟩
    rw [or_iff_right hnone, ← Bool.or_eq_true]
    unfold isZone
    dsimp only
    split
    · exact absurd ⟨_, rfl⟩ hletter
    · cases skipOne (fun c => c = '+' || c = '-') (skipOptional ' ' cs) with
      | none => rfl
      | some rest => cases h : skipTwoDigits rest <;> simp [h]

/-! ### Timestamps -/

/-- The timestamps are the words of the language. -/
theorem isTimestamp_iff {s : String} : isTimestamp s = true ↔ s.toList ∈ form := by
  have hbetween : Scans (skipOne fun c => c = 'T' || c = ' ') (one fun c => c = 'T' ∨ c = ' ') :=
    scans_skipOne fun c => by simp
  have haccepts := (scans_skipDate.bind (hbetween.bind scans_skipTime)).accepts accepts_isZone
  have hform : form = optional (one (· = '"')) * (date *
      (one (fun c => c = 'T' ∨ c = ' ') * time) * (optional zone * optional quote)) := by
    simp only [form, quote, mul_assoc]
  rw [hform, mem_optional_mul_iff, ← haccepts]
  · show isTimestamp s = true ↔ (skipDate (skipOptional '"' s.toList) >>= fun cs =>
      skipOne (fun c => c = 'T' || c = ' ') cs >>= skipTime).any isZone = true
    unfold isTimestamp
    dsimp only
    split
    · next rest hrest => rw [hrest, Option.any_some]
    · next hnone => rw [hnone, Option.any_none]
  · intro rest
    rw [date]
    simp only [mul_assoc]
    exact cons_notMem_digits (by decide) rest

/-- A timestamp has a character between the year and the month. -/
lemma exists_separator_of_mem_form (h : cs ∈ form) : ∃ c ∈ cs, c = '-' ∨ c = '/' := by
  have hform : form = optional quote * digit ^ 4 * (separator * (digit ^ 2 * separator *
      digit ^ 2 * one (fun c => c = 'T' ∨ c = ' ') * time * optional zone * optional quote)) := by
    simp only [form, date, mul_assoc]
  rw [hform, Language.mem_mul] at h
  obtain ⟨before, -, after, hafter, rfl⟩ := h
  obtain ⟨c, rest, rfl, hc, -⟩ := mem_one_mul.mp hafter
  exact ⟨c, by simp, hc⟩

end Timestamp

namespace Hex

/-! ### Hexadecimal strings -/

/-- A hexadecimal digit in ASCII. -/
def IsAsciiDigit (c : Char) : Prop :=
  '0' ≤ c ∧ c ≤ '9' ∨ 'a' ≤ c ∧ c ≤ 'f' ∨ 'A' ≤ c ∧ c ≤ 'F'

/-- Hexadecimal digits, an even number of them and at least one. -/
structure Form (cs : List Char) : Prop where
  nonempty : cs ≠ []
  even : Even cs.length
  digits : ∀ c ∈ cs, IsAsciiDigit c

lemma isDigit_iff {c : Char} : isDigit c = true ↔ IsAsciiDigit c := by
  unfold isDigit digit? IsAsciiDigit
  split_ifs with hdigit hlower hupper <;> simp [*]

lemma isPairs_iff {cs : List Char} : isPairs cs = true ↔ Form cs := by
  fun_induction isPairs cs with
  | case1 a b =>
    rw [Bool.and_eq_true, isDigit_iff, isDigit_iff]
    constructor
    · rintro ⟨ha, hb⟩
      exact ⟨List.cons_ne_nil _ _, even_two, by simp [ha, hb]⟩
    · intro h
      exact ⟨h.digits a (by simp), h.digits b (by simp)⟩
  | case2 a b rest hrest ih =>
    have heven : Even (a :: b :: rest).length ↔ Even rest.length := by simp [Nat.even_add_one]
    rw [Bool.and_eq_true, Bool.and_eq_true, isDigit_iff, isDigit_iff, ih]
    constructor
    · rintro ⟨⟨ha, hb⟩, h⟩
      exact ⟨List.cons_ne_nil _ _, heven.mpr h.even,
        List.forall_mem_cons.mpr ⟨ha, List.forall_mem_cons.mpr ⟨hb, h.digits⟩⟩⟩
    · intro h
      obtain ⟨ha, hdigits⟩ := List.forall_mem_cons.mp h.digits
      obtain ⟨hb, hdigits⟩ := List.forall_mem_cons.mp hdigits
      exact ⟨⟨ha, hb⟩, hrest, heven.mp h.even, hdigits⟩
  | case3 cs hpair hmore =>
    constructor
    · simp
    · intro h
      cases cs with
      | nil => exact absurd rfl h.nonempty
      | cons a cs =>
        cases cs with
        | nil => exact absurd h.even Nat.not_even_one
        | cons b rest => exact absurd rfl (hmore a b rest)

theorem isHex_iff {s : String} : isHex s = true ↔ Form s.toList := isPairs_iff

/-- No hexadecimal string is a timestamp. -/
theorem isTimestamp_eq_false {s : String} (h : isHex s = true) :
    Timestamp.isTimestamp s = false := by
  by_contra htimestamp
  rw [Bool.not_eq_false, Timestamp.isTimestamp_iff] at htimestamp
  obtain ⟨c, hmem, hc⟩ := Timestamp.exists_separator_of_mem_form htimestamp
  have hdigit := (isHex_iff.mp h).digits c hmem
  rcases hc with rfl | rfl
  · exact absurd hdigit (by unfold IsAsciiDigit; decide)
  · exact absurd hdigit (by unfold IsAsciiDigit; decide)

end Hex

/-! ### Strings -/

/-- Strings are told apart by their forms.  A timestamp, where these are told apart, is what has the
form of a timestamp, and binary data what is no timestamp and has the form of hexadecimal digits;
everything else is a plain string.  No string has both forms, so that it does not matter which of
them is looked for first. -/
theorem classifyString_forms (detection : Detection) (text : String) :
    (classifyString detection text = .timestamp ↔
      detection.timestamps = true ∧ text.toList ∈ Timestamp.form) ∧
    (classifyString detection text = .binary ↔
      detection.binary = true ∧ classifyString detection text ≠ .timestamp ∧
        Hex.Form text.toList) ∧
    (classifyString detection text = .string ↔
      classifyString detection text ≠ .timestamp ∧ classifyString detection text ≠ .binary) ∧
    ¬ (text.toList ∈ Timestamp.form ∧ Hex.Form text.toList) ∧
    classifyString detection text =
      if detection.binary && Hex.isHex text then .binary
      else if detection.timestamps && Timestamp.isTimestamp text then .timestamp
      else .string := by
  rw [← Timestamp.isTimestamp_iff, ← Hex.isHex_iff]
  have hapart : ¬ (Timestamp.isTimestamp text = true ∧ Hex.isHex text = true) := by
    rintro ⟨htimestamp, hhex⟩
    rw [Hex.isTimestamp_eq_false hhex] at htimestamp
    cases htimestamp
  unfold classifyString
  simp only [Bool.and_eq_true]
  by_cases htimestamp : detection.timestamps = true ∧ Timestamp.isTimestamp text = true
  · have hhex : ¬ Hex.isHex text = true := fun hhex => hapart ⟨htimestamp.2, hhex⟩
    simp [htimestamp, hhex]
  by_cases hbinary : detection.binary = true ∧ Hex.isHex text = true
  · have hnone : ¬ Timestamp.isTimestamp text = true := fun h => hapart ⟨h, hbinary.2⟩
    simp [hbinary, hnone]
  · simp [htimestamp, hbinary, hapart]

/-- One quote, two separators, and an offset with a blank and without a colon; the same with a line
feed after it; and an odd number of digits. -/
example : (classifyString {} "\"2024-99/01 00:61:00 +0530").kind = .timestamp ∧
    (classifyString {} "2024-99/01 00:61:00 +0530\n").kind = .string ∧
    (classifyString {} "c0ffe").kind = .string := by
  decide +kernel

end RecordSchema
