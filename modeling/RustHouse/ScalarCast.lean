import RustHouse.Decimal
import RustHouse.ScalarText

/-!
# Casts of text to integers

A cast of `String` to `Int64` checks the syntax first, so that text that is no
number and a number out of range are different errors. Rows that are not
returned are ordered by the numbers of their texts, whatever their length.
-/

namespace RustHouse.Batch

open Exec

/-- The sign of a decimal text, and its digits without leading zeros. -/
structure DecimalText where
  negative : Bool
  magnitude : List Char
  deriving DecidableEq

def stripLeadingZeros (digits : List Char) : List Char :=
  match digits.findIdx? fun digit => digit ≠ '0' with
  | none => digits.drop (digits.length - 1)
  | some firstNonzero => digits.drop firstNonzero

/-- `decimal_text`; it looks at bytes, and a byte is a sign or a digit where the character is. -/
def decimalText (value : String) : Option DecimalText :=
  let (negative, digits) := splitSign value.toList
  if digits = [] ∨ ¬ digits.all Char.isDigit then none
  else
    let magnitude := stripLeadingZeros digits
    some ⟨negative && magnitude ≠ ['0'], magnitude⟩

def decimalTextCmp (left right : String) : Option Ordering := do
  let left ← decimalText left
  let right ← decimalText right
  match left.negative, right.negative with
  | true, false => some .lt
  | false, true => some .gt
  | negative, _ =>
    let magnitudeOrder := (compare left.magnitude.length right.magnitude.length).then
      (List.compareLex compare left.magnitude right.magnitude)
    some (if negative then magnitudeOrder.swap else magnitudeOrder)

def invalidStringToInt64Cast : Error := .invalidCast .string .int64

def stringToInt64Overflow : Error := .numericOverflow "CAST(String AS Int64)"

def validateStringToInt64Syntax (value : String) : Exec Error Unit :=
  getOr ((decimalText value).map fun _ => ()) invalidStringToInt64Cast

def checkedStringToInt64 (value : String) : Exec Error Int64 := do
  validateStringToInt64Syntax value
  getOr (parseInt64 value.toList) stringToInt64Overflow

/-! ## Decimal texts -/

open Decimal

section
variable {c : Char} {digits : List Char}

theorem stripLeadingZeros_zero (h : digits ≠ []) : stripLeadingZeros ('0' :: digits) = stripLeadingZeros digits := by
  unfold stripLeadingZeros
  rw [List.findIdx?_cons, if_neg (by decide)]
  cases digits.findIdx? fun digit => digit ≠ '0' with
  | none =>
    obtain ⟨d, rest, rfl⟩ := List.exists_cons_of_ne_nil h
    rfl
  | some firstNonzero => rfl

theorem stripLeadingZeros_of_ne (h : c ≠ '0') : stripLeadingZeros (c :: digits) = c :: digits := by
  unfold stripLeadingZeros
  rw [List.findIdx?_cons, if_pos (by simpa using h)]
  rfl

theorem stripLeadingZeros_spec (hne : digits ≠ []) (hdigits : ∀ c ∈ digits, c.isDigit) :
    Canonical (stripLeadingZeros digits) ∧ magnitude (stripLeadingZeros digits) = magnitude digits ∧
      ∀ c ∈ stripLeadingZeros digits, c.isDigit := by
  induction digits with
  | nil => exact absurd rfl hne
  | cons c digits ih =>
    by_cases hzero : c = '0'
    · subst hzero
      by_cases hnil : digits = []
      · subst hnil
        exact ⟨.inl rfl, rfl, hdigits⟩
      · rw [stripLeadingZeros_zero hnil]
        obtain ⟨hcanonical, hvalue, hstripped⟩ := ih hnil (List.forall_mem_cons.1 hdigits).2
        refine ⟨hcanonical, ?_, hstripped⟩
        rw [hvalue, magnitude_cons]
        simp
    · rw [stripLeadingZeros_of_ne hzero]
      exact ⟨.inr ⟨c, digits, rfl, hzero⟩, rfl, hdigits⟩

end

/-! ## Numerals -/

/-- Whether the value is below zero. -/
def isNegative (n : Numeral) : Bool := n.sign = some .minus && magnitude n.digits ≠ 0

theorem splitSign_chars (n : Numeral) : splitSign n.chars = (decide (n.sign = some .minus), n.digits) := by
  obtain ⟨sign, digits, hne, hdigits⟩ := n
  cases sign with
  | none =>
    obtain ⟨c, rest, rfl⟩ := List.exists_cons_of_ne_nil hne
    have hc := hdigits c (List.mem_cons_self ..)
    have hminus : c ≠ '-' := fun h => absurd (h ▸ hc) (by decide)
    have hplus : c ≠ '+' := fun h => absurd (h ▸ hc) (by decide)
    show splitSign (c :: rest) = _
    rw [splitSign, if_neg hminus, if_neg hplus]
    rfl
  | some sign => cases sign <;> rfl

theorem text_toList (n : Numeral) : n.text.toList = n.chars := String.toList_ofList

theorem decimalText_text (n : Numeral) : decimalText n.text = some ⟨isNegative n, stripLeadingZeros n.digits⟩ := by
  obtain ⟨hcanonical, hvalue, hstripped⟩ := stripLeadingZeros_spec n.digits_ne_nil n.isDigit
  have hdigits : ¬ (n.digits = [] ∨ ¬ n.digits.all Char.isDigit) := by
    rw [not_or, not_not]
    exact ⟨n.digits_ne_nil, List.all_eq_true.2 n.isDigit⟩
  rw [decimalText, text_toList, splitSign_chars]
  dsimp only
  rw [if_neg hdigits, isNegative, ← hvalue]
  simp only [ne_eq, hcanonical.eq_zero_iff hstripped]

theorem numeral_of_split {chars digits : List Char} {negative : Bool} (hsplit : splitSign chars = (negative, digits))
    (hne : digits ≠ []) (hdigits : ∀ c ∈ digits, c.isDigit) : ∃ n : Numeral, n.chars = chars := by
  cases chars with
  | nil =>
    obtain ⟨_, rfl⟩ := Prod.mk.inj hsplit
    exact absurd rfl hne
  | cons c rest =>
    rw [splitSign] at hsplit
    split at hsplit
    · rename_i hc
      obtain ⟨_, rfl⟩ := Prod.mk.inj hsplit
      exact ⟨⟨some .minus, rest, hne, hdigits⟩, hc ▸ rfl⟩
    · split at hsplit
      · rename_i hc
        obtain ⟨_, rfl⟩ := Prod.mk.inj hsplit
        exact ⟨⟨some .plus, rest, hne, hdigits⟩, hc ▸ rfl⟩
      · obtain ⟨_, rfl⟩ := Prod.mk.inj hsplit
        exact ⟨⟨none, c :: rest, hne, hdigits⟩, rfl⟩

theorem decimalText_isSome {value : String} : (decimalText value).isSome ↔ ∃ n : Numeral, n.text = value := by
  constructor
  · intro h
    obtain ⟨text, htext⟩ := Option.isSome_iff_exists.1 h
    rw [decimalText] at htext
    dsimp only at htext
    split at htext
    · cases htext
    · rename_i hdigits
      rw [not_or, not_not, List.all_eq_true] at hdigits
      obtain ⟨n, hn⟩ := numeral_of_split rfl hdigits.1 hdigits.2
      exact ⟨n, by rw [Numeral.text, hn, String.ofList_toList]⟩
  · rintro ⟨n, rfl⟩
    rw [decimalText_text]
    rfl

theorem value_eq (n : Numeral) : n.value = if isNegative n then -(magnitude n.digits : Int) else magnitude n.digits := by
  rw [Numeral.value, isNegative]
  by_cases hsign : n.sign = some .minus
  · by_cases hzero : magnitude n.digits = 0 <;> simp [hsign, hzero]
  · simp [hsign]

/-- **The texts compare as the integers.** -/
theorem decimalTextCmp_text (a b : Numeral) : decimalTextCmp a.text b.text = some (compare a.value b.value) := by
  obtain ⟨hca, hva, hda⟩ := stripLeadingZeros_spec a.digits_ne_nil a.isDigit
  obtain ⟨hcb, hvb, hdb⟩ := stripLeadingZeros_spec b.digits_ne_nil b.isDigit
  have hmagnitude := compare_canonical hda hca hdb hcb
  have hne : ∀ n : Numeral, isNegative n = true → magnitude n.digits ≠ 0 := by
    intro n h
    rw [isNegative, Bool.and_eq_true] at h
    exact of_decide_eq_true h.2
  rw [hva, hvb] at hmagnitude
  rw [decimalTextCmp, decimalText_text, decimalText_text, value_eq, value_eq]
  simp only [Option.bind_eq_bind, Option.bind_some, hmagnitude]
  cases ha : isNegative a <;> cases hb : isNegative b
  · exact congrArg some (compare_natCast _ _).symm
  · exact congrArg some (compare_pos_neg _ (hne b hb)).symm
  · exact congrArg some (compare_neg_pos _ (hne a ha)).symm
  · exact congrArg some (compare_neg_natCast _ _).symm

def DecimalTextLe (a b : Numeral) : Prop := decimalTextCmp a.text b.text ≠ some .gt

theorem decimalTextLe_iff {a b : Numeral} : DecimalTextLe a b ↔ a.value ≤ b.value := by
  rw [DecimalTextLe, decimalTextCmp_text, ne_eq, Option.some.injEq, compare_gt_iff_gt, not_lt]

/-! ## The cast -/

theorem parseInt64_text (n : Numeral) : parseInt64 n.text.toList =
    if Int64.minValue.toInt ≤ n.value ∧ n.value ≤ Int64.maxValue.toInt then some (Int64.ofInt n.value) else none := by
  have hdigits : ¬ (n.digits = [] ∨ ¬ n.digits.all Char.isDigit) := by
    rw [not_or, not_not]
    exact ⟨n.digits_ne_nil, List.all_eq_true.2 n.isDigit⟩
  have hvalue : n.value = if decide (n.sign = some .minus) then -(Nat.ofDigitChars 10 n.digits 0 : Int)
      else Nat.ofDigitChars 10 n.digits 0 := by
    rw [Numeral.value, magnitude]
    simp
  rw [parseInt64, text_toList, splitSign_chars]
  dsimp only
  rw [if_neg hdigits, ← hvalue]

theorem checkedStringToInt64_text (n : Numeral) : checkedStringToInt64 n.text =
    if Int64.minValue.toInt ≤ n.value ∧ n.value ≤ Int64.maxValue.toInt then .ok (Int64.ofInt n.value)
    else .error stringToInt64Overflow := by
  rw [checkedStringToInt64, validateStringToInt64Syntax, decimalText_text, parseInt64_text]
  split <;> rfl

theorem checkedStringToInt64_of_not {value : String} (h : ¬ ∃ n : Numeral, n.text = value) :
    checkedStringToInt64 value = .error invalidStringToInt64Cast := by
  rw [← decimalText_isSome, Option.not_isSome_iff_eq_none] at h
  rw [checkedStringToInt64, validateStringToInt64Syntax, h]
  rfl

theorem inRange_iff {value : Int} :
    (Int64.minValue.toInt ≤ value ∧ value ≤ Int64.maxValue.toInt) ↔ ∃ v : Int64, v.toInt = value := by
  constructor
  · intro ⟨hlow, hhigh⟩
    exact ⟨Int64.ofInt value, Int64.toInt_ofInt_of_le hlow (by have : Int64.maxValue.toInt = 2 ^ 63 - 1 := rfl; omega)⟩
  · rintro ⟨v, rfl⟩
    exact ⟨Int64.minValue_le_toInt v, Int64.toInt_le v⟩

section
variable {value : String}

theorem checkedStringToInt64_eq_ok {v : Int64} :
    checkedStringToInt64 value = .ok v ↔ ∃ n : Numeral, n.text = value ∧ n.value = v.toInt := by
  constructor
  · intro h
    by_cases hnumeral : ∃ n : Numeral, n.text = value
    · obtain ⟨n, rfl⟩ := hnumeral
      rw [checkedStringToInt64_text] at h
      split at h
      · rename_i hrange
        obtain ⟨w, hw⟩ := inRange_iff.1 hrange
        refine ⟨n, rfl, ?_⟩
        rw [← Exec.ok.inj h, ← hw, Int64.ofInt_toInt]
      · cases h
    · rw [checkedStringToInt64_of_not hnumeral] at h
      cases h
  · rintro ⟨n, rfl, hn⟩
    rw [checkedStringToInt64_text, if_pos (inRange_iff.2 ⟨v, hn.symm⟩), hn, Int64.ofInt_toInt]

theorem checkedStringToInt64_eq_invalid :
    checkedStringToInt64 value = .error invalidStringToInt64Cast ↔ ¬ ∃ n : Numeral, n.text = value := by
  constructor
  · rintro h ⟨n, rfl⟩
    rw [checkedStringToInt64_text] at h
    split at h
    · cases h
    · cases Exec.error.inj h
  · exact checkedStringToInt64_of_not

theorem checkedStringToInt64_eq_overflow : checkedStringToInt64 value = .error stringToInt64Overflow ↔
    ∃ n : Numeral, n.text = value ∧ ¬ ∃ v : Int64, v.toInt = n.value := by
  constructor
  · intro h
    by_cases hnumeral : ∃ n : Numeral, n.text = value
    · obtain ⟨n, rfl⟩ := hnumeral
      rw [checkedStringToInt64_text] at h
      split at h
      · cases h
      · rename_i hrange
        exact ⟨n, rfl, fun hv => hrange (inRange_iff.2 hv)⟩
    · rw [checkedStringToInt64_of_not hnumeral] at h
      cases Exec.error.inj h
  · rintro ⟨n, rfl, hnone⟩
    rw [checkedStringToInt64_text, if_neg fun hrange => hnone (inRange_iff.1 hrange)]

end

/-- **Casts and their order.** Two numerals compare as the integers they stand for, which is a total preorder of
the texts; and a cast returns the integer of a numeral in the range, and tells other numerals from other texts. -/
theorem casts_exact :
    (∀ a b : Numeral, decimalTextCmp a.text b.text = some (compare a.value b.value)) ∧
    (IsPreorder Numeral DecimalTextLe ∧ Std.Total DecimalTextLe) ∧
    ∀ value : String,
      (∀ v : Int64, checkedStringToInt64 value = .ok v ↔ ∃ n : Numeral, n.text = value ∧ n.value = v.toInt) ∧
      (checkedStringToInt64 value = .error (.invalidCast .string .int64) ↔ ¬ ∃ n : Numeral, n.text = value) ∧
      (checkedStringToInt64 value = .error (.numericOverflow "CAST(String AS Int64)") ↔
        ∃ n : Numeral, n.text = value ∧ ¬ ∃ v : Int64, v.toInt = n.value) := by
  refine ⟨decimalTextCmp_text, ⟨{ refl := ?_, trans := ?_ }, ⟨?_⟩⟩, fun value => ⟨?_, ?_, ?_⟩⟩
  · intro a
    exact decimalTextLe_iff.2 (le_refl _)
  · intro a b c hab hbc
    exact decimalTextLe_iff.2 (le_trans (decimalTextLe_iff.1 hab) (decimalTextLe_iff.1 hbc))
  · intro a b
    rw [decimalTextLe_iff, decimalTextLe_iff]
    exact le_total _ _
  · intro v
    exact checkedStringToInt64_eq_ok
  · exact checkedStringToInt64_eq_invalid
  · exact checkedStringToInt64_eq_overflow

end RustHouse.Batch
