import RecordSchema.Proofs.Json.Number

/-!
# Reading numbers

A numeral that is being read belongs to the beginning of a number (`Numeral.Reads`), which every
further byte keeps (`Reads.step`).  Where it is complete, what has been read is a number of the same
value (`Reads.exists_number`, `value?_ofComplete`).

Conversely every number can be read (`readAll?_text`), so a numeral is complete only before a byte
with which no longer number could have gone on (`not_extends_of_complete`).
-/

namespace RecordSchema.Json

/-! ### Numbers being read -/

namespace Numeral

/-- The numeral of a number without a power of ten, in some part. -/
def ofNumber (part : NumeralPart) (number : Number) : Numeral :=
  { part, negative := number.negative, coefficient := number.coefficient,
    places := number.fraction.length }

/-- The numeral of a number within its power of ten. -/
def ofPower (number : Number) (power : Power) : Numeral :=
  { ofNumber .power number with
    powerNegative := decide (power.sign? = some 0x2d), power := naturalOf power.digits }

/-- The part that a number without a power of ten ends in. -/
def lastPart (number : Number) : NumeralPart :=
  if number.fraction ≠ [] then .fraction else if number.whole = [0x30] then .zero else .whole

/-- The numeral of a whole number. -/
def ofComplete (number : Number) : Numeral :=
  (number.power?.map (ofPower number)).getD (ofNumber (lastPart number) number)

lemma lastPart_of_fraction {number : Number} (fractional : number.fraction ≠ []) :
    lastPart number = .fraction := by
  rw [lastPart, if_pos fractional]

lemma lastPart_of_zero {number : Number} (integral : number.fraction = [])
    (zero : number.whole = [0x30]) : lastPart number = .zero := by
  rw [lastPart, if_neg (not_not.mpr integral), if_pos zero]

lemma lastPart_of_nonzero {number : Number} (integral : number.fraction = [])
    (nonzero : number.whole.head? ≠ some 0x30) : lastPart number = .whole := by
  rw [lastPart, if_neg (not_not.mpr integral), if_neg]
  intro heq
  rw [heq] at nonzero
  exact nonzero rfl

lemma ofComplete_of_plain {number : Number} (plain : number.power? = none) :
    ofComplete number = ofNumber (lastPart number) number := by
  rw [ofComplete, plain]
  rfl

lemma ofComplete_of_power {number : Number} {power : Power} (hpower : number.power? = some power) :
    ofComplete number = ofPower number power := by
  rw [ofComplete, hpower]
  rfl

/-- The numeral is what there is of a number after these bytes. -/
inductive Reads : Numeral → List UInt8 → Prop
  | minus : Reads { part := .minus, negative := true } [0x2d]
  | zero {number : Number} (integral : number.fraction = []) (plain : number.power? = none)
      (zero : number.whole = [0x30]) : Reads (ofNumber .zero number) number.text
  | whole {number : Number} (integral : number.fraction = []) (plain : number.power? = none)
      (nonzero : number.whole.head? ≠ some 0x30) : Reads (ofNumber .whole number) number.text
  | point {number : Number} (integral : number.fraction = []) (plain : number.power? = none) :
      Reads (ofNumber .point number) (number.text ++ [0x2e])
  | fraction {number : Number} (fractional : number.fraction ≠ []) (plain : number.power? = none) :
      Reads (ofNumber .fraction number) number.text
  | mark {number : Number} (plain : number.power? = none) {mark : UInt8}
      (mark_form : mark = 0x65 ∨ mark = 0x45) :
      Reads (ofNumber .mark number) (number.text ++ [mark])
  | powerSign {number : Number} (plain : number.power? = none) {mark sign : UInt8}
      (mark_form : mark = 0x65 ∨ mark = 0x45) (sign_form : sign = 0x2b ∨ sign = 0x2d) :
      Reads { ofNumber .powerSign number with powerNegative := decide (sign = 0x2d) }
        (number.text ++ [mark, sign])
  | power {number : Number} (plain : number.power? = none) (power : Power) :
      Reads (ofPower number power) (number.text ++ power.text)

variable {numeral next : Numeral} {bytes : List UInt8} {b : UInt8}

/-! ### Single bytes -/

lemma ofNumber_pushWhole {number : Number} (integral : number.fraction = [])
    (nonzero : number.whole.head? ≠ some 0x30) (h : IsDigit b) (part : NumeralPart) :
    ofNumber part (number.pushWhole nonzero h) = (ofNumber part number).addDigit part (digitValue b) := by
  rw [ofNumber, Number.coefficient_pushWhole integral]
  rfl

lemma ofNumber_pushFraction {number : Number} (h : IsDigit b) (part : NumeralPart) :
    ofNumber .fraction (number.pushFraction h) =
      { (ofNumber part number).addDigit .fraction (digitValue b) with
        places := number.fraction.length + 1 } := by
  have hlength : (number.pushFraction h).fraction.length = number.fraction.length + 1 := by
    simp [Number.pushFraction]
  rw [ofNumber, Number.coefficient_pushFraction, hlength]
  rfl

lemma step_whole_digit {number : Number} (integral : number.fraction = [])
    (nonzero : number.whole.head? ≠ some 0x30) (h : IsDigit b) :
    (ofNumber .whole number).step b = .more (ofNumber .whole (number.pushWhole nonzero h)) := by
  simp only [Numeral.step, ofNumber_pushWhole integral, digit?_of_isDigit h]
  rfl

lemma step_point_digit (number : Number) (h : IsDigit b) :
    (ofNumber .point number).step b = .more (ofNumber .fraction (number.pushFraction h)) := by
  simp only [Numeral.step, ofNumber_pushFraction h .point, digit?_of_isDigit h]
  rfl

lemma step_fraction_digit (number : Number) (h : IsDigit b) :
    (ofNumber .fraction number).step b = .more (ofNumber .fraction (number.pushFraction h)) := by
  simp only [Numeral.step, ofNumber_pushFraction h .fraction, digit?_of_isDigit h]
  rfl

lemma step_mark_digit (number : Number) {mark : UInt8} (mark_form : mark = 0x65 ∨ mark = 0x45)
    (h : IsDigit b) : (ofNumber .mark number).step b =
      .more (ofPower number (.ofDigit mark mark_form none (by simp) h)) := by
  simp only [Numeral.step, digit?_of_isDigit h]
  simp [ofNumber, ofPower, addPowerDigit, Power.ofDigit, naturalOf]

lemma step_powerSign_digit (number : Number) {mark sign : UInt8}
    (mark_form : mark = 0x65 ∨ mark = 0x45) (sign_form : sign = 0x2b ∨ sign = 0x2d)
    (h : IsDigit b) :
    ({ ofNumber .powerSign number with powerNegative := decide (sign = 0x2d) } : Numeral).step b =
      .more (ofPower number (.ofDigit mark mark_form (some sign) (by simpa using sign_form) h)) := by
  simp only [Numeral.step, digit?_of_isDigit h]
  simp [ofNumber, ofPower, addPowerDigit, Power.ofDigit, naturalOf]

lemma step_power_digit (number : Number) (power : Power) (h : IsDigit b) :
    (ofPower number power).step b = .more (ofPower number (power.push h)) := by
  simp only [Numeral.step, ofPower, digit?_of_isDigit h, Power.push, naturalOf_append_singleton]
  rfl

/-- A digit starts the digits before the point, whatever the sign is. -/
lemma ofDigit_eq (negative : Bool) (h : IsDigit b) :
    ofNumber (lastPart (.ofDigit negative h)) (.ofDigit negative h) =
      if digitValue b = 0 then { part := .zero, negative }
      else { part := .whole, negative, coefficient := digitValue b } := by
  have hcoefficient : (Number.ofDigit negative h).coefficient = digitValue b := by
    simp [Number.coefficient, Number.ofDigit, naturalOf]
  split
  · next hzero =>
    have hb : (Number.ofDigit negative h).whole = [0x30] := by
      rw [← (digitValue_eq_zero_iff h).mp hzero]
      rfl
    rw [lastPart_of_zero rfl hb, ofNumber, hcoefficient, hzero]
    rfl
  · next hzero =>
    have hb : (Number.ofDigit negative h).whole.head? ≠ some 0x30 := by
      intro heq
      exact hzero ((digitValue_eq_zero_iff h).mpr (Option.some.inj heq))
    rw [lastPart_of_nonzero rfl hb, ofNumber, hcoefficient]
    rfl

lemma start?_digit (h : IsDigit b) : start? b =
    some (ofNumber (lastPart (.ofDigit false h)) (.ofDigit false h)) := by
  have hminus : b ≠ 0x2d := by
    rintro rfl
    exact absurd h (by decide)
  rw [ofDigit_eq, start?, if_neg hminus, digit?_of_isDigit h]
  cases digitValue b <;> rfl

lemma step_minus_digit (h : IsDigit b) :
    ({ part := .minus, negative := true } : Numeral).step b =
      .more (ofNumber (lastPart (.ofDigit true h)) (.ofDigit true h)) := by
  rw [ofDigit_eq]
  simp only [Numeral.step, digit?_of_isDigit h]
  cases digitValue b with
  | zero => rfl
  | succ d =>
    rw [if_neg (Nat.succ_ne_zero d)]
    simp [addDigit]

lemma step_of_integral {number : Number} (integral : number.fraction = [])
    (h : ¬ IsDigit b ∨ number.whole = [0x30]) :
    (ofNumber (lastPart number) number).step b = (ofNumber (lastPart number) number).orPoint b := by
  by_cases hzero : number.whole = [0x30]
  · rw [lastPart_of_zero integral hzero]
    rfl
  · have hdigit := digit?_eq_none_iff.mpr (h.resolve_right hzero)
    rw [lastPart_of_nonzero integral fun hhead => hzero (number.whole_form.eq_of_zero hhead)]
    simp only [Numeral.step, hdigit, ofNumber]

/-! ### Reading byte by byte -/

lemma reads_lastPart (number : Number) (plain : number.power? = none) :
    Reads (ofNumber (lastPart number) number) number.text := by
  by_cases hfraction : number.fraction = []
  · by_cases hzero : number.whole = [0x30]
    · rw [lastPart_of_zero hfraction hzero]
      exact .zero hfraction plain hzero
    · have hnonzero : number.whole.head? ≠ some 0x30 :=
        fun hhead => hzero (number.whole_form.eq_of_zero hhead)
      rw [lastPart_of_nonzero hfraction hnonzero]
      exact .whole hfraction plain hnonzero
  · rw [lastPart_of_fraction hfraction]
    exact .fraction hfraction plain

/-- A byte that starts a number. -/
lemma reads_of_start? (h : start? b = some numeral) : Reads numeral [b] := by
  by_cases hminus : b = 0x2d
  · rw [start?, if_pos hminus] at h
    cases h
    rw [hminus]
    exact .minus
  by_cases hdigit : IsDigit b
  · rw [start?_digit hdigit] at h
    cases h
    have hread := reads_lastPart (.ofDigit false hdigit) rfl
    rwa [Number.text_ofDigit] at hread
  · rw [start?, if_neg hminus, digit?_eq_none_iff.mpr hdigit] at h
    cases h

/-- After digits before the power, a mark starts the power. -/
lemma Reads.orPower {number : Number} (plain : number.power? = none) {part : NumeralPart}
    (h : (ofNumber part number).orPower b = .more next) : Reads next (number.text ++ [b]) := by
  unfold Numeral.orPower at h
  split at h
  · next hmark =>
    cases h
    exact .mark plain hmark
  · cases h

/-- After digits before the point, a point or a mark may follow. -/
lemma Reads.orPoint {number : Number} (integral : number.fraction = [])
    (plain : number.power? = none) {part : NumeralPart}
    (h : (ofNumber part number).orPoint b = .more next) : Reads next (number.text ++ [b]) := by
  unfold Numeral.orPoint at h
  split at h
  · next hpoint =>
    cases h
    rw [hpoint]
    exact .point integral plain
  · exact .orPower plain h

/-- A byte that belongs to the number is read. -/
theorem Reads.step (h : Reads numeral bytes) (hstep : numeral.step b = .more next) :
    Reads next (bytes ++ [b]) := by
  cases h with
  | minus =>
    by_cases hb : IsDigit b
    · rw [step_minus_digit hb] at hstep
      cases hstep
      have hread := reads_lastPart (.ofDigit true hb) rfl
      rwa [Number.text_ofDigit] at hread
    · simp [Numeral.step, digit?_eq_none_iff.mpr hb] at hstep
  | @zero number integral plain zero =>
    simp only [Numeral.step, ofNumber] at hstep
    exact .orPoint integral plain hstep
  | @whole number integral plain nonzero =>
    by_cases hb : IsDigit b
    · rw [step_whole_digit integral nonzero hb] at hstep
      cases hstep
      rw [← Number.text_pushWhole integral plain nonzero hb]
      refine .whole integral plain ?_
      rwa [Number.pushWhole, List.head?_append_of_ne_nil _ number.whole_form.ne_nil]
    · simp only [Numeral.step, ofNumber, digit?_eq_none_iff.mpr hb] at hstep
      exact .orPoint integral plain hstep
  | @point number integral plain =>
    by_cases hb : IsDigit b
    · rw [step_point_digit number hb] at hstep
      cases hstep
      rw [← Number.text_pushFraction_of_integral integral plain hb]
      exact .fraction (by simp [Number.pushFraction]) plain
    · simp [Numeral.step, ofNumber, digit?_eq_none_iff.mpr hb] at hstep
  | @fraction number fractional plain =>
    by_cases hb : IsDigit b
    · rw [step_fraction_digit number hb] at hstep
      cases hstep
      rw [← Number.text_pushFraction fractional plain hb]
      exact .fraction (by simp [Number.pushFraction]) plain
    · simp only [Numeral.step, ofNumber, digit?_eq_none_iff.mpr hb] at hstep
      exact .orPower plain hstep
  | @mark number plain mark mark_form =>
    by_cases hb : IsDigit b
    · rw [step_mark_digit number mark_form hb] at hstep
      cases hstep
      rw [List.append_assoc]
      exact .power plain (.ofDigit mark mark_form none (by simp) hb)
    · simp only [Numeral.step, ofNumber, digit?_eq_none_iff.mpr hb] at hstep
      rw [List.append_assoc]
      split_ifs at hstep with hplus hminus
      · cases hstep
        rw [hplus]
        exact .powerSign plain mark_form (Or.inl rfl)
      · cases hstep
        rw [hminus]
        exact .powerSign plain mark_form (Or.inr rfl)
  | @powerSign number plain mark sign mark_form sign_form =>
    by_cases hb : IsDigit b
    · rw [step_powerSign_digit number mark_form sign_form hb] at hstep
      cases hstep
      rw [List.append_assoc]
      exact .power plain (.ofDigit mark mark_form (some sign) (by simpa using sign_form) hb)
    · simp [Numeral.step, ofNumber, digit?_eq_none_iff.mpr hb] at hstep
  | @power number plain power =>
    by_cases hb : IsDigit b
    · rw [step_power_digit number power hb] at hstep
      cases hstep
      rw [List.append_assoc, ← Power.text_push]
      exact .power plain (power.push hb)
    · simp [Numeral.step, ofNumber, ofPower, digit?_eq_none_iff.mpr hb] at hstep

/-! ### Complete numbers -/

lemma value?_ofComplete (number : Number) : (ofComplete number).value? = number.value? := by
  cases hpower : number.power? with
  | some power =>
    have hexponent : number.exponent =
        (if (ofPower number power).powerNegative then -((ofPower number power).power : ℤ)
          else (ofPower number power).power) - (ofPower number power).places := by
      by_cases hsign : power.sign? = some 0x2d <;>
        simp [Number.exponent, hpower, Power.value, ofPower, ofNumber, hsign]
    rw [ofComplete_of_power hpower, Number.value?, if_neg (by simp [hpower]), hexponent]
    rfl
  | none =>
    rw [ofComplete_of_plain hpower]
    by_cases hfraction : number.fraction = []
    · rw [Number.value?, if_pos ⟨hfraction, hpower⟩]
      by_cases hzero : number.whole = [0x30]
      · rw [lastPart_of_zero hfraction hzero]
        rfl
      · rw [lastPart_of_nonzero hfraction fun h => hzero (number.whole_form.eq_of_zero h)]
        rfl
    · rw [Number.value?, if_neg fun h => hfraction h.1, lastPart_of_fraction hfraction]
      simp [Numeral.value?, ofNumber, Number.exponent, hpower]

/-- Where a numeral is complete, what has been read is a number. -/
theorem Reads.exists_number (h : Reads numeral bytes) (hstep : numeral.step b = .complete) :
    ∃ number : Number, number.text = bytes ∧ ofComplete number = numeral := by
  cases h with
  | minus =>
    cases hdigit : digit? b with
    | none => simp [Numeral.step, hdigit] at hstep
    | some d => cases d <;> simp [Numeral.step, hdigit] at hstep
  | @zero number integral plain zero =>
    exact ⟨number, rfl, by rw [ofComplete_of_plain plain, lastPart_of_zero integral zero]⟩
  | @whole number integral plain nonzero =>
    exact ⟨number, rfl, by rw [ofComplete_of_plain plain, lastPart_of_nonzero integral nonzero]⟩
  | point => cases hdigit : digit? b <;> simp [Numeral.step, ofNumber, hdigit] at hstep
  | @fraction number fractional plain =>
    exact ⟨number, rfl, by rw [ofComplete_of_plain plain, lastPart_of_fraction fractional]⟩
  | mark =>
    cases hdigit : digit? b with
    | none =>
      simp only [Numeral.step, ofNumber, hdigit] at hstep
      split_ifs at hstep
    | some d => simp [Numeral.step, ofNumber, hdigit] at hstep
  | powerSign => cases hdigit : digit? b <;> simp [Numeral.step, ofNumber, hdigit] at hstep
  | @power number plain power =>
    exact ⟨number.withPower power, Number.text_withPower plain power, rfl⟩

/-! ### Reading whole numbers -/

/-- The numeral after one more byte, if that belongs to the number. -/
def next? (numeral : Numeral) (b : UInt8) : Option Numeral :=
  match numeral.step b with
  | .more next => some next
  | _ => none

/-- The numeral of bytes that all belong to one number. -/
def readAll? : List UInt8 → Option Numeral
  | [] => none
  | b :: bytes => (start? b).bind fun numeral => bytes.foldlM next? numeral

lemma next?_eq_some_iff : numeral.next? b = some next ↔ numeral.step b = .more next := by
  unfold next?
  cases numeral.step b <;> simp

lemma readAll?_append (hbytes : bytes ≠ []) (more : List UInt8) :
    readAll? (bytes ++ more) = (readAll? bytes).bind fun numeral => more.foldlM next? numeral := by
  cases bytes with
  | nil => exact absurd rfl hbytes
  | cons b bytes =>
    rw [List.cons_append, readAll?, readAll?, Option.bind_assoc]
    congr 1
    funext numeral
    rw [List.foldlM_append]
    rfl

lemma foldlM_next?_singleton : [b].foldlM next? numeral = numeral.next? b := by
  rw [List.foldlM_cons]
  exact bind_pure _

/-- What has been read byte by byte is the beginning of a number. -/
theorem reads_of_readAll? (h : readAll? bytes = some numeral) : Reads numeral bytes := by
  induction bytes using List.reverseRecOn generalizing numeral with
  | nil => cases h
  | append_singleton bytes b ih =>
    by_cases hbytes : bytes = []
    · subst hbytes
      refine reads_of_start? ?_
      simpa [readAll?] using h
    · rw [readAll?_append hbytes] at h
      obtain ⟨previous, hprevious, hnext⟩ := Option.bind_eq_some_iff.mp h
      rw [foldlM_next?_singleton] at hnext
      exact (ih hprevious).step (next?_eq_some_iff.mp hnext)

lemma readAll?_append_singleton (h : readAll? bytes = some numeral)
    (hstep : numeral.step b = .more next) : readAll? (bytes ++ [b]) = some next := by
  have hbytes : bytes ≠ [] := by
    rintro rfl
    cases h
  rw [readAll?_append hbytes, h, Option.bind_some, foldlM_next?_singleton]
  exact next?_eq_some_iff.mpr hstep

/-- A digit alone, with or without a minus sign. -/
lemma readAll?_ofDigit (negative : Bool) (h : IsDigit b) :
    readAll? (Number.ofDigit negative h).text =
      some (ofNumber (lastPart (.ofDigit negative h)) (.ofDigit negative h)) := by
  rw [Number.text_ofDigit]
  cases negative with
  | false => simpa [readAll?, signText] using start?_digit h
  | true =>
    have hminus : readAll? [0x2d] = some { part := .minus, negative := true } := by decide
    exact readAll?_append_singleton hminus (step_minus_digit h)

/-- Digits before the point, one after the other. -/
lemma readAll?_of_integral {number : Number} (integral : number.fraction = [])
    (plain : number.power? = none) :
    readAll? number.text = some (ofNumber (lastPart number) number) := by
  induction hwhole : number.whole using List.reverseRecOn generalizing number with
  | nil => exact absurd hwhole number.whole_form.ne_nil
  | append_singleton digits b ih =>
    have hisDigit : ∀ d ∈ digits ++ [b], IsDigit d := hwhole ▸ number.whole_form.isDigit
    have hb : IsDigit b := hisDigit b (by simp)
    by_cases hdigits : digits = []
    · have hnumber : number = .ofDigit number.negative hb := by
        ext1
        · rfl
        · rw [hwhole, hdigits]
          rfl
        · exact integral
        · exact plain
      rw [hnumber]
      exact readAll?_ofDigit _ hb
    · have hnonzero : digits.head? ≠ some 0x30 := by
        intro hhead
        have heq := number.whole_form.eq_of_zero
          (by rw [hwhole, List.head?_append_of_ne_nil _ hdigits, hhead])
        rw [hwhole] at heq
        have hlength := congrArg List.length heq
        rw [List.length_append] at hlength
        exact hdigits (List.eq_nil_of_length_eq_zero (by simpa using hlength))
      have hform : IsWhole digits :=
        ⟨⟨hdigits, fun d hd => hisDigit d (List.mem_append_left _ hd)⟩,
          fun hhead => absurd hhead hnonzero⟩
      let shorter : Number := { number with whole := digits, whole_form := hform }
      have hnumber : number = shorter.pushWhole hnonzero hb := by
        ext1
        · rfl
        · exact hwhole
        · rfl
        · rfl
      have hintegral : shorter.fraction = [] := integral
      have hplain : shorter.power? = none := plain
      have hshorter := ih hintegral hplain rfl
      rw [lastPart_of_nonzero hintegral hnonzero] at hshorter
      have hlast : lastPart (shorter.pushWhole hnonzero hb) = .whole := by
        refine lastPart_of_nonzero integral ?_
        rwa [Number.pushWhole, List.head?_append_of_ne_nil _ hform.ne_nil]
      rw [hnumber, hlast, Number.text_pushWhole hintegral hplain]
      exact readAll?_append_singleton hshorter (step_whole_digit hintegral hnonzero hb)

/-- Digits after the point, one after the other. -/
lemma readAll?_of_plain {number : Number} (plain : number.power? = none) :
    readAll? number.text = some (ofNumber (lastPart number) number) := by
  induction hfraction : number.fraction using List.reverseRecOn generalizing number with
  | nil => exact readAll?_of_integral hfraction plain
  | append_singleton digits b ih =>
    have hisDigit : ∀ d ∈ digits ++ [b], IsDigit d := hfraction ▸ number.fraction_form
    have hb : IsDigit b := hisDigit b (by simp)
    let shorter : Number := { number with
      fraction := digits
      fraction_form := fun d hd => hisDigit d (List.mem_append_left _ hd) }
    have hnumber : number = shorter.pushFraction hb := by
      ext1
      · rfl
      · rfl
      · exact hfraction
      · rfl
    have hplain : shorter.power? = none := plain
    have hshorter := ih hplain rfl
    have hlast : lastPart (shorter.pushFraction hb) = .fraction :=
      lastPart_of_fraction (by simp [Number.pushFraction])
    rw [hnumber, hlast]
    by_cases hdigits : digits = []
    · -- the point comes first
      have hpoint : (ofNumber (lastPart shorter) shorter).step 0x2e =
          .more (ofNumber .point shorter) := by
        rw [step_of_integral hdigits (Or.inl (by decide)), orPoint, if_pos rfl]
        rfl
      have hintegral : shorter.fraction = [] := hdigits
      rw [Number.text_pushFraction_of_integral hintegral hplain]
      exact readAll?_append_singleton (readAll?_append_singleton hshorter hpoint)
        (step_point_digit shorter hb)
    · have hfractional : shorter.fraction ≠ [] := hdigits
      rw [lastPart_of_fraction hfractional] at hshorter
      rw [Number.text_pushFraction hfractional hplain]
      exact readAll?_append_singleton hshorter (step_fraction_digit shorter hb)

/-- A mark may follow the digits before the power. -/
lemma step_mark (number : Number) {mark : UInt8} (mark_form : mark = 0x65 ∨ mark = 0x45) :
    (ofNumber (lastPart number) number).step mark = .more (ofNumber .mark number) := by
  have hdigit : ¬ IsDigit mark := by
    rcases mark_form with rfl | rfl <;> decide
  have hpoint : mark ≠ 0x2e := by
    rcases mark_form with rfl | rfl <;> decide
  by_cases hfraction : number.fraction = []
  · rw [step_of_integral hfraction (Or.inl hdigit), orPoint, if_neg hpoint, orPower,
      if_pos mark_form]
    rfl
  · rw [lastPart_of_fraction hfraction]
    simp only [Numeral.step, ofNumber, digit?_eq_none_iff.mpr hdigit, orPower, if_pos mark_form]

/-- The digits of the power, one after the other. -/
lemma readAll?_withPower (number : Number) (plain : number.power? = none) (power : Power) :
    readAll? (number.text ++ power.text) = some (ofPower number power) := by
  induction hpower : power.digits using List.reverseRecOn generalizing power with
  | nil => exact absurd hpower power.digits_form.ne_nil
  | append_singleton digits b ih =>
    have hisDigit : ∀ d ∈ digits ++ [b], IsDigit d := hpower ▸ power.digits_form.isDigit
    have hb : IsDigit b := hisDigit b (by simp)
    by_cases hdigits : digits = []
    · have hmark := readAll?_append_singleton (readAll?_of_plain plain)
        (step_mark number power.mark_form)
      cases hsign : power.sign? with
      | none =>
        have htext : power.text = [power.mark] ++ [b] := by
          rw [Power.text, hsign, hpower, hdigits]
          rfl
        have hofDigit : power = .ofDigit power.mark power.mark_form none (by simp) hb := by
          ext1
          · rfl
          · exact hsign
          · rw [hpower, hdigits]
            rfl
        rw [htext, ← List.append_assoc, hofDigit]
        exact readAll?_append_singleton hmark (step_mark_digit number power.mark_form hb)
      | some sign =>
        have hform : sign = 0x2b ∨ sign = 0x2d := power.sign_form sign hsign
        have htext : power.text = [power.mark] ++ [sign] ++ [b] := by
          rw [Power.text, hsign, hpower, hdigits]
          rfl
        have hofDigit : power =
            .ofDigit power.mark power.mark_form (some sign) (by simpa using hform) hb := by
          ext1
          · rfl
          · exact hsign
          · rw [hpower, hdigits]
            rfl
        have hstep : (ofNumber .mark number).step sign = .more
            { ofNumber .powerSign number with powerNegative := decide (sign = 0x2d) } := by
          rcases hform with rfl | rfl <;> rfl
        rw [htext, ← List.append_assoc, ← List.append_assoc, hofDigit]
        exact readAll?_append_singleton (readAll?_append_singleton hmark hstep)
          (step_powerSign_digit number power.mark_form hform hb)
    · let shorter : Power := { power with
        digits
        digits_form := ⟨hdigits, fun d hd => hisDigit d (List.mem_append_left _ hd)⟩ }
      have heq : power = shorter.push hb := by
        ext1
        · rfl
        · rfl
        · exact hpower
      rw [heq, Power.text_push, ← List.append_assoc]
      exact readAll?_append_singleton (ih shorter rfl) (step_power_digit number shorter hb)

/-- Every number can be read. -/
theorem readAll?_text (number : Number) : readAll? number.text = some (ofComplete number) := by
  cases hpower : number.power? with
  | none =>
    rw [ofComplete_of_plain hpower]
    exact readAll?_of_plain hpower
  | some power =>
    let shorter : Number := { number with power? := none }
    have hnumber : number = shorter.withPower power := by
      ext1
      · rfl
      · rfl
      · rfl
      · exact hpower
    have hread := readAll?_withPower shorter rfl power
    rw [← Number.text_withPower rfl, ← hnumber] at hread
    rw [hread, ofComplete_of_power hpower]
    rfl

/-- Before a byte that completes a number, no longer number could have gone on with it. -/
theorem not_extends_of_complete (h : readAll? bytes = some numeral)
    (hstep : numeral.step b = .complete) : ¬ Extends bytes b := by
  rintro ⟨-, number, more, hmore⟩
  have hbytes : bytes ≠ [] := by
    rintro rfl
    cases h
  have hread := readAll?_text number
  rw [← hmore, List.append_assoc, readAll?_append hbytes, h, Option.bind_some,
    List.singleton_append, List.foldlM_cons] at hread
  have hnext : numeral.next? b = none := by
    rw [next?, hstep]
  rw [hnext] at hread
  cases hread

/-- What is being read is the beginning of some number. -/
lemma Reads.exists_longer (h : Reads numeral bytes) : ∃ number : Number, bytes <+: number.text := by
  have hzero : IsDigit 0x30 := by decide
  cases h with
  | minus =>
    refine ⟨.ofDigit true hzero, [0x30], ?_⟩
    rw [Number.text_ofDigit]
    rfl
  | @zero number | @whole number | @fraction number => exact ⟨number, List.prefix_rfl⟩
  | @point number integral plain =>
    refine ⟨number.pushFraction hzero, [0x30], ?_⟩
    rw [Number.text_pushFraction_of_integral integral plain]
  | @mark number plain mark mark_form =>
    refine ⟨number.withPower (.ofDigit mark mark_form none (by simp) hzero), [0x30], ?_⟩
    rw [Number.text_withPower plain, List.append_assoc]
    rfl
  | @powerSign number plain mark sign mark_form sign_form =>
    refine ⟨number.withPower (.ofDigit mark mark_form (some sign) (by simpa using sign_form) hzero),
      [0x30], ?_⟩
    rw [Number.text_withPower plain, List.append_assoc]
    rfl
  | @power number plain power =>
    exact ⟨number.withPower power, by rw [Number.text_withPower plain]⟩

lemma orPoint_ne_broken (numeral : Numeral) (b : UInt8) : numeral.orPoint b ≠ .broken := by
  unfold orPoint orPower
  split_ifs <;> simp

lemma step_ofComplete_ne_broken (number : Number) (b : UInt8) :
    (ofComplete number).step b ≠ .broken := by
  cases hpower : number.power? with
  | some power =>
    rw [ofComplete_of_power hpower]
    by_cases hb : IsDigit b
    · simp [step_power_digit number power hb]
    · simp [Numeral.step, ofPower, ofNumber, digit?_eq_none_iff.mpr hb]
  | none =>
    rw [ofComplete_of_plain hpower]
    by_cases hfraction : number.fraction = []
    · by_cases hb : ¬ IsDigit b ∨ number.whole = [0x30]
      · rw [step_of_integral hfraction hb]
        exact orPoint_ne_broken _ b
      · obtain ⟨hdigit, hzero⟩ := not_or.mp hb
        have hnonzero : number.whole.head? ≠ some 0x30 :=
          fun hhead => hzero (number.whole_form.eq_of_zero hhead)
        rw [lastPart_of_nonzero hfraction hnonzero,
          step_whole_digit hfraction hnonzero (not_not.mp hdigit)]
        simp
    · rw [lastPart_of_fraction hfraction]
      by_cases hb : IsDigit b
      · simp [step_fraction_digit number hb]
      · simp only [Numeral.step, ofNumber, digit?_eq_none_iff.mpr hb, orPower]
        split_ifs <;> simp

/-- A number is complete before a byte with which no longer number could go on. -/
theorem complete_of_not_extends {number : Number} (h : ¬ Extends number.text b) :
    (ofComplete number).step b = .complete := by
  cases hstep : (ofComplete number).step b with
  | complete => rfl
  | broken => exact absurd hstep (step_ofComplete_ne_broken number b)
  | more next =>
    have hread := (reads_of_readAll? (readAll?_text number)).step hstep
    exact absurd ⟨⟨number, rfl⟩, hread.exists_longer⟩ h

end Numeral

end RecordSchema.Json
