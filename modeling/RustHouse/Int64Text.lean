import RustHouse.Float64Syntax
import RustHouse.ScalarCast

/-!
# Integers as text

An integer is written from its last digit backwards into a buffer of twenty
bytes. What is written is its canonical numeral, whose length is also known
without writing it, and which the cast reads back.
-/

namespace RustHouse.Batch

open Decimal ScalarCast Words

def maxInt64TextBytes : Nat := 20

/-- A buffer whose text is at its end, from `start` on. -/
structure Int64Text where
  bytes : Vector UInt8 maxInt64TextBytes
  start : Nat

namespace Int64Text

/-- One byte before the text; a cursor below zero, or an index behind the buffer, panics. -/
def push (rendered : Int64Text) (byte : UInt8) : Option Int64Text := do
  guard (1 ≤ rendered.start)
  let start := rendered.start - 1
  if h : start < maxInt64TextBytes then some ⟨rendered.bytes.set start byte, start⟩ else none

/-- The loop over the digits, from the last one. -/
def pushDigits (rendered : Int64Text) (magnitude : Nat) : Option Int64Text := do
  let rendered ← rendered.push (asciiByte '0' + UInt8.ofNat (magnitude % 10))
  if magnitude / 10 = 0 then some rendered else rendered.pushDigits (magnitude / 10)
termination_by magnitude
decreasing_by omega

/-- The text of a buffer; bytes that are no text panic. -/
def asStr (rendered : Int64Text) : Option String := fromUtf8 (rendered.bytes.toList.drop rendered.start)

end Int64Text

def int64Text (value : Int64) : Option Int64Text := do
  let rendered : Int64Text := ⟨.replicate maxInt64TextBytes 0, maxInt64TextBytes⟩
  let rendered ← rendered.pushDigits value.toInt.natAbs
  if value.toInt < 0 then rendered.push (asciiByte '-') else some rendered

def renderInt64 (value : Int64) : Option String := do
  let rendered ← int64Text value
  rendered.asStr

/-- `int64_len`; the logarithm is the integer part. -/
def int64Len (value : Int64) : Nat :=
  let magnitude := value.toInt.natAbs
  let digits := if magnitude = 0 then 1 else Nat.log 10 magnitude + 1
  digits + if value.toInt < 0 then 1 else 0

def int64Cmp (left right : Int64) : Option Ordering := do
  let leftText ← int64Text left
  let left ← leftText.asStr
  let rightText ← int64Text right
  let right ← rightText.asStr
  some (compare left right)

/-! ## Canonical numerals -/

/-- The numeral of an integer without a plus sign and without leading zeros. -/
def canonicalNumeral (value : Int64) : Numeral where
  sign := if value.toInt < 0 then some .minus else none
  digits := Nat.toDigits 10 value.toInt.natAbs
  digits_ne_nil := Nat.toDigits_ne_nil
  isDigit _ h := Nat.isDigit_of_mem_toDigits (by decide) (by decide) h

theorem canonicalNumeral_value (value : Int64) : (canonicalNumeral value).value = value.toInt := by
  have hmagnitude : magnitude (canonicalNumeral value).digits = value.toInt.natAbs := Nat.ofDigitChars_ten_toDigits
  rw [Numeral.value, hmagnitude, canonicalNumeral]
  by_cases hneg : value.toInt < 0
  · simp only [hneg, if_true]
    omega
  · simp only [hneg, if_false, reduceCtorEq]
    omega

theorem utf8_canonicalNumeral (value : Int64) :
    utf8 (canonicalNumeral value).text = (canonicalNumeral value).chars.map asciiByte := by
  refine utf8_ofList_ascii (List.forall_mem_append.2 ⟨fun c hc => ?_, fun c hc => ?_⟩)
  · obtain ⟨sign, _, rfl⟩ := Option.map_eq_some_iff.1 (Option.mem_toList.1 hc)
    cases sign <;> rfl
  · exact decide_eq_true (Nat.lt_of_le_of_lt (digit_bounds ((canonicalNumeral value).isDigit c hc)).2 (by decide))

/-! ## The buffer -/

namespace Int64Text

/-- The bytes written so far. -/
def text (rendered : Int64Text) : Bytes := rendered.bytes.toList.drop rendered.start

section
variable {rendered : Int64Text}

theorem push_spec (hpos : 0 < rendered.start) (hle : rendered.start ≤ maxInt64TextBytes) (byte : UInt8) :
    ∃ rendered', rendered.push byte = some rendered' ∧ rendered'.start = rendered.start - 1 ∧
      rendered'.text = byte :: rendered.text := by
  have hlt : rendered.start - 1 < maxInt64TextBytes := by omega
  refine ⟨⟨rendered.bytes.set (rendered.start - 1) byte, rendered.start - 1⟩, ?_, rfl, ?_⟩
  · have hguard : 1 ≤ rendered.start := hpos
    rw [push, guard, if_pos hguard]
    exact dif_pos hlt
  · have hlength : rendered.start - 1 < (rendered.bytes.toList.set (rendered.start - 1) byte).length := by
      rw [List.length_set, Vector.length_toList]
      exact hlt
    rw [text, text, Vector.toList_set, List.drop_eq_getElem_cons hlength, List.getElem_set_self,
      List.drop_set_of_lt (Nat.lt_succ_self _), Nat.succ_eq_add_one,
      Nat.sub_add_cancel hpos]

theorem digit_byte {d : Nat} (hd : d < 10) : asciiByte '0' + UInt8.ofNat d = asciiByte d.digitChar := by
  rw [asciiByte, asciiByte, Nat.toNat_digitChar_of_lt_ten hd, ← UInt8.ofNat_add]
  rfl

/-- The digits go before what is written, and the cursor stays within the buffer. -/
theorem pushDigits_spec (magnitude : Nat) (hroom : (Nat.toDigits 10 magnitude).length ≤ rendered.start)
    (hle : rendered.start ≤ maxInt64TextBytes) :
    ∃ rendered', rendered.pushDigits magnitude = some rendered' ∧
      rendered'.start = rendered.start - (Nat.toDigits 10 magnitude).length ∧
      rendered'.text = (Nat.toDigits 10 magnitude).map asciiByte ++ rendered.text := by
  induction magnitude using Nat.strongRecOn generalizing rendered with
  | ind magnitude ih =>
    have hdigits : 0 < (Nat.toDigits 10 magnitude).length := Nat.length_toDigits_pos
    obtain ⟨pushed, hpush, hstart, htext⟩ :=
      push_spec (Nat.lt_of_lt_of_le hdigits hroom) hle (asciiByte '0' + UInt8.ofNat (magnitude % 10))
    rw [digit_byte (Nat.mod_lt _ (by decide))] at htext
    rw [pushDigits, hpush, Option.bind_eq_bind, Option.bind_some]
    by_cases hlt : magnitude < 10
    · rw [if_pos (Nat.div_eq_of_lt hlt), Nat.toDigits_of_lt_base hlt]
      rw [Nat.mod_eq_of_lt hlt] at htext
      exact ⟨pushed, rfl, hstart, htext⟩
    · rw [Nat.toDigits_of_base_le (by decide) (Nat.not_lt.1 hlt), List.length_append, List.length_singleton] at hroom ⊢
      obtain ⟨rendered', hrest, hstart', htext'⟩ := ih (magnitude / 10) (by omega) (hstart ▸ Nat.le_sub_one_of_lt (by omega)) (by omega)
      rw [if_neg (by omega)]
      refine ⟨rendered', hrest, by omega, ?_⟩
      rw [htext', htext, List.map_append, List.append_assoc]
      rfl

end

end Int64Text

/-- **The text of an integer** fills the end of the buffer, which is long enough. -/
theorem int64Text_spec (value : Int64) : ∃ rendered, int64Text value = some rendered ∧
    rendered.text = utf8 (canonicalNumeral value).text ∧
      rendered.start + (utf8 (canonicalNumeral value).text).length = maxInt64TextBytes := by
  have hbound : value.toInt.natAbs < 10 ^ 19 := by
    have hlow := Int64.minValue_le_toInt value
    have hhigh := Int64.toInt_le value
    have hmin : Int64.minValue.toInt = -2 ^ 63 := rfl
    have hmax : Int64.maxValue.toInt = 2 ^ 63 - 1 := rfl
    omega
  have hdigits := (Nat.length_toDigits_le_iff (by decide) (by decide)).2 hbound
  have hbuffer : maxInt64TextBytes = 20 := rfl
  obtain ⟨rendered, hrendered, hstart, htext⟩ :=
    @Int64Text.pushDigits_spec ⟨.replicate maxInt64TextBytes 0, maxInt64TextBytes⟩ value.toInt.natAbs
      (Nat.le_succ_of_le hdigits) (Nat.le_refl _)
  have hempty : Int64Text.text ⟨.replicate maxInt64TextBytes 0, maxInt64TextBytes⟩ = [] := rfl
  rw [hempty, List.append_nil] at htext
  dsimp only at hstart
  rw [utf8_canonicalNumeral, List.length_map, int64Text, hrendered, Option.bind_eq_bind, Option.bind_some]
  by_cases hneg : value.toInt < 0
  · obtain ⟨signed, hpush, hstart', htext'⟩ := rendered.push_spec (by omega) (by omega) (asciiByte '-')
    have hchars : (canonicalNumeral value).chars = '-' :: Nat.toDigits 10 value.toInt.natAbs := by
      simp only [Numeral.chars, canonicalNumeral, hneg, if_true]
      rfl
    rw [if_pos hneg, hchars, List.length_cons]
    refine ⟨signed, hpush, ?_, by omega⟩
    rw [htext', htext, List.map_cons]
  · have hchars : (canonicalNumeral value).chars = Nat.toDigits 10 value.toInt.natAbs := by
      simp only [Numeral.chars, canonicalNumeral, hneg, if_false]
      rfl
    rw [if_neg hneg, hchars]
    exact ⟨rendered, rfl, htext, by omega⟩

theorem renderInt64_eq (value : Int64) : renderInt64 value = some (canonicalNumeral value).text := by
  obtain ⟨rendered, hrendered, htext, _⟩ := int64Text_spec value
  rw [renderInt64, hrendered, Option.bind_eq_bind, Option.bind_some, Int64Text.asStr]
  rw [Int64Text.text] at htext
  rw [htext, fromUtf8_utf8]

theorem int64Len_eq (value : Int64) : int64Len value = (utf8 (canonicalNumeral value).text).length := by
  rw [utf8_canonicalNumeral, List.length_map, Numeral.chars, List.length_append, canonicalNumeral, length_toDigits,
    int64Len]
  by_cases hneg : value.toInt < 0
  · simp [hneg, Nat.add_comm]
  · simp [hneg]

theorem int64Cmp_eq (left right : Int64) :
    int64Cmp left right = some (compare (canonicalNumeral left).text (canonicalNumeral right).text) := by
  have hcmp : int64Cmp left right = (renderInt64 left).bind fun leftText =>
      (renderInt64 right).bind fun rightText => some (compare leftText rightText) := by
    rw [int64Cmp, renderInt64, renderInt64]
    simp only [Option.bind_eq_bind, Option.bind_assoc]
  rw [hcmp, renderInt64_eq, renderInt64_eq]
  rfl

/-- **The scanners of numbers are exact.** The syntax of floating-point numbers is that of the grammar. An integer is
written as its canonical numeral at the end of the buffer, by a cursor that never leaves it; the length is that of
the numeral, the order that of the numerals as texts, and the cast of the numeral is the integer. -/
theorem numeric_texts_exact :
    (∀ value : String, float64Text value = true ↔ value.toList ∈ float64Syntax) ∧
    ∀ value : Int64, (canonicalNumeral value).value = value.toInt ∧ Canonical (canonicalNumeral value).digits ∧
      (canonicalNumeral value).sign = (if value.toInt < 0 then some .minus else none) ∧
      (∃ rendered, int64Text value = some rendered ∧ rendered.text = utf8 (canonicalNumeral value).text ∧
        rendered.start + (utf8 (canonicalNumeral value).text).length = maxInt64TextBytes) ∧
      renderInt64 value = some (canonicalNumeral value).text ∧
      int64Len value = (utf8 (canonicalNumeral value).text).length ∧
      (∀ other : Int64, int64Cmp value other =
        some (compare (canonicalNumeral value).text (canonicalNumeral other).text)) ∧
      checkedStringToInt64 (canonicalNumeral value).text = .ok value := by
  refine ⟨float64Text_iff, fun value => ⟨canonicalNumeral_value value, canonical_toDigits _, rfl, int64Text_spec value,
    renderInt64_eq value, int64Len_eq value, int64Cmp_eq value, ?_⟩⟩
  exact checkedStringToInt64_eq_ok.2 ⟨canonicalNumeral value, rfl, canonicalNumeral_value value⟩

end RustHouse.Batch
