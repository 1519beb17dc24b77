import RustHouse.ColumnSound
import RustHouse.Format

/-!
# Scalars are read back

The text of a number or a truth value reads back as the same value, and has no
character with a meaning in any of the formats.
-/

namespace RustHouse.Batch

open Exec Words

/-- What the library promises of a number: its text is plain and reads back, also with a fraction of zero. -/
structure FloatText.ReadsBack (float : FloatText) (x : F64) : Prop where
  plain : ∀ c ∈ (float.toText x).toList, c.isDigit ∨ c = '-' ∨ c = '.'
  parse : float.parse (float.toText x) = some x
  point : '.' ∉ (float.toText x).toList → float.parse (float.toText x ++ ".0") = some x

/-- A character without a meaning in the formats. -/
def Plain (c : Char) : Prop := c.isAlphanum ∨ c = '-' ∨ c = '.'

instance (c : Char) : Decidable (Plain c) := inferInstanceAs (Decidable (_ ∨ _))

theorem plain_of_isDigit {c : Char} (h : c.isDigit) : Plain c := .inl (by rw [Char.isAlphanum, h, Bool.or_true])

/-! ## Integers -/

theorem toDigits_isDigit {n : Nat} {c : Char} (h : c ∈ Nat.toDigits 10 n) : c.isDigit = true :=
  Nat.isDigit_of_mem_toDigits (by decide) (by decide) h

theorem int_toList (n : Int) :
    (toString n).toList = if n < 0 then '-' :: Nat.toDigits 10 n.natAbs else Nat.toDigits 10 n.natAbs := by
  cases n with
  | ofNat n =>
    rw [if_neg (by exact Int.not_lt.2 (Int.natCast_nonneg n))]
    exact Nat.toList_repr
  | negSucc n =>
    rw [if_pos (Int.negSucc_lt_zero n)]
    show ("-" ++ Nat.repr (n + 1)).toList = _
    rw [String.toList_append, Nat.toList_repr]
    rfl

theorem parseInt64_of_split {field digits : List Char} {negative : Bool} (v : Int64)
    (hsplit : splitSign field = (negative, digits)) (hdigits : ∀ c ∈ digits, c.isDigit = true) (hne : digits ≠ [])
    (hvalue : (if negative then -(Nat.ofDigitChars 10 digits 0 : Int) else Nat.ofDigitChars 10 digits 0) = v.toInt) :
    parseInt64 field = some v := by
  have hall : digits.all Char.isDigit = true := List.all_eq_true.2 hdigits
  have hrange : Int64.minValue.toInt ≤ v.toInt ∧ v.toInt ≤ Int64.maxValue.toInt :=
    ⟨Int64.minValue_le_toInt v, Int64.toInt_le v⟩
  simp only [parseInt64, hsplit, hne, hall, not_true_eq_false, or_self, if_false, hvalue, hrange, and_self, if_true,
    Int64.ofInt_toInt]

theorem splitSign_digits {digits : List Char} (h : ∀ c ∈ digits, c.isDigit = true) :
    splitSign digits = (false, digits) := by
  cases digits with
  | nil => rfl
  | cons c digits =>
    have hc := h c (List.mem_cons_self ..)
    have hminus : c ≠ '-' := by rintro rfl; cases hc
    have hplus : c ≠ '+' := by rintro rfl; cases hc
    rw [splitSign, if_neg hminus, if_neg hplus]

/-- **Integers read back.** -/
theorem parseInt64_toString (v : Int64) : parseInt64 (toString v.toInt).toList = some v := by
  have hdigits : ∀ c ∈ Nat.toDigits 10 v.toInt.natAbs, c.isDigit = true := fun c hc => toDigits_isDigit hc
  rw [int_toList]
  split
  · refine @parseInt64_of_split _ _ true v rfl hdigits Nat.toDigits_ne_nil ?_
    rw [Nat.ofDigitChars_ten_toDigits, if_pos rfl]
    omega
  · refine parseInt64_of_split v (splitSign_digits hdigits) hdigits Nat.toDigits_ne_nil ?_
    rw [Nat.ofDigitChars_ten_toDigits, if_neg Bool.false_ne_true]
    omega

theorem int_plain (n : Int) : ∀ c ∈ (toString n).toList, Plain c := by
  intro c hc
  rw [int_toList] at hc
  split at hc
  · obtain rfl | hc := List.mem_cons.1 hc
    · decide
    · exact plain_of_isDigit (toDigits_isDigit hc)
  · exact plain_of_isDigit (toDigits_isDigit hc)

/-! ## Values -/

section
variable {float : FloatText}

theorem formatFloat_spec {x : F64} (h : float.ReadsBack x) :
    float.parse (formatFloat float x) = some x ∧ ∀ c ∈ (formatFloat float x).toList, Plain c := by
  have hplain : ∀ c ∈ (float.toText x).toList, Plain c := fun c hc =>
    (h.plain c hc).elim plain_of_isDigit .inr
  unfold formatFloat
  dsimp only
  split
  · rename_i hwhole
    have hpoint : '.' ∉ (float.toText x).toList := fun hmem =>
      hwhole.2 (List.any_eq_true.2 ⟨'.', hmem, by decide⟩)
    refine ⟨h.point hpoint, fun c hc => ?_⟩
    rw [String.toList_append] at hc
    obtain hc | hc := List.mem_append.1 hc
    · exact hplain c hc
    · have hzero : ∀ c ∈ ".0".toList, Plain c := by simp [Plain]
      exact hzero c hc
  · exact ⟨h.parse, hplain⟩

/-- A value that is neither NULL nor a text, and is finite and known to read back if it is a number with a fraction. -/
def ReadsBack (float : FloatText) : Value → Prop
  | .null _ | .string _ => False
  | .float64 x => x.isFinite = true ∧ float.ReadsBack x
  | _ => True

/-- **Scalars read back**, and their text is plain. -/
theorem parseScalar_display {value : Value} (h : ReadsBack float value) :
    parseScalar float (value.asDisplayString float).toList value.dataType = some value ∧
      ∀ c ∈ (value.asDisplayString float).toList, Plain c := by
  cases value with
  | null => cases h
  | string => cases h
  | int64 v => exact ⟨congrArg (Option.map Value.int64) (parseInt64_toString v), int_plain v.toInt⟩
  | float64 x =>
    obtain ⟨hfinite, hreads⟩ := h
    obtain ⟨hparse, hplain⟩ := formatFloat_spec hreads
    refine ⟨?_, hplain⟩
    simp only [Value.asDisplayString, Value.dataType, parseScalar, String.ofList_toList, hparse, Option.bind_eq_bind,
      Option.bind_some, hfinite, if_true]
  | bool b =>
    cases b
    · exact ⟨congrArg (Option.map Value.bool) (by decide : parseBool "false".toList = some false),
        (by simp [Plain] : ∀ c ∈ "false".toList, Plain c)⟩
    · exact ⟨congrArg (Option.map Value.bool) (by decide : parseBool "true".toList = some true),
        (by simp [Plain] : ∀ c ∈ "true".toList, Plain c)⟩

end

end RustHouse.Batch
