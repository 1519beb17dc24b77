import RustHouse.Binary64
import RustHouse.Value

/-!
# Comparison of values

How SQL compares two values: integers and floating-point numbers by their exact
values, although an integer need not be a floating-point number.
-/

namespace RustHouse.Batch

/-! ## Floating-point numbers -/

namespace F64

def isNaN (x : F64) : Bool := Binary64.isNaN x.bits.toNat

def partialCmp (x y : F64) : Option Ordering := Binary64.partialCmp x.bits.toNat y.bits.toNat

def trunc (x : F64) : F64 := ⟨UInt64.ofNat (Binary64.trunc x.bits.toNat)⟩

def int64Min : Int := -2 ^ 63

def int64Max : Int := 2 ^ 63 - 1

/-- `x as i64`, which saturates; what is not a number becomes zero. -/
def asInt64 (x : F64) : Int64 :=
  if x.isNaN then 0 else Int64.ofInt (max int64Min (min (Binary64.toInt x.bits.toNat) int64Max))

/-- `integer as f64`. -/
def ofInt64 (integer : Int64) : F64 := ⟨UInt64.ofNat (Binary64.ofInt integer.toInt)⟩

end F64

/-- The bits of `9_223_372_036_854_775_808.0`. -/
def int64UpperExclusive : F64 := ⟨0x43e0000000000000⟩

/-! ## SQL comparison -/

def intFloatCmp (integer : Int64) (float : F64) : Option Ordering :=
  if float.isNaN then none
  else if float.partialCmp int64UpperExclusive = some .gt ∨ float.partialCmp int64UpperExclusive = some .eq then some .lt
  else if float.partialCmp (.ofInt64 Int64.minValue) = some .lt then some .gt
  else
    let truncated := float.trunc.asInt64
    match compare integer.toInt truncated.toInt with
    | .eq => (F64.ofInt64 truncated).partialCmp float
    | ordering => some ordering

def Value.sqlCmp : Value → Value → Option Ordering
  | .null _, _ | _, .null _ => none
  | .int64 left, .int64 right => some (compare left.toInt right.toInt)
  | .float64 left, .float64 right => left.partialCmp right
  | .int64 left, .float64 right => intFloatCmp left right
  | .float64 left, .int64 right => (intFloatCmp right left).map Ordering.swap
  | .bool left, .bool right => some (compare left right)
  | .string left, .string right => some (compare left right)
  | _, _ => none

/-! ## Exact values -/

def Value.exact : Value → Option ℚ
  | .int64 value => some value.toInt
  | .float64 value => if value.isNaN then none else some (Binary64.value value.bits.toNat)
  | _ => none

theorem compare_strictMono {α β : Type} [LinearOrder α] [LinearOrder β] {f : α → β} (hf : StrictMono f) (a b : α) :
    compare (f a) (f b) = compare a b := by
  rw [← cmp_eq_compare, ← cmp_eq_compare, hf.cmp_map_eq]

theorem compare_swap {α : Type} [LinearOrder α] (a b : α) : (compare a b).swap = compare b a := by
  rw [← cmp_eq_compare, ← cmp_eq_compare, cmp_swap]

theorem compare_cast (m n : Int) : compare (m : ℚ) (n : ℚ) = compare m n :=
  compare_strictMono (fun _ _ h => Int.cast_lt.2 h) m n

theorem compare_div_one (m n : Int) :
    compare ((m : ℚ) / Binary64.one) ((n : ℚ) / Binary64.one) = compare m n :=
  compare_strictMono (f := fun k : Int => (k : ℚ) / Binary64.one) (fun _ _ h =>
    (div_lt_div_iff_of_pos_right (Nat.cast_pos.2 Binary64.one_pos)).2 (Int.cast_lt.2 h)) m n

theorem compare_int_value (n : Int) (bits : Nat) :
    compare (n : ℚ) (Binary64.value bits) = compare (n * Binary64.one) (Binary64.units bits) := by
  have hone : (Binary64.one : ℚ) ≠ 0 := Nat.cast_ne_zero.2 (Nat.ne_of_gt Binary64.one_pos)
  rw [← compare_div_one, Binary64.value, Int.cast_mul, Int.cast_natCast, mul_div_cancel_right₀ _ hone]

theorem units_int64Max : Binary64.units int64UpperExclusive.bits.toNat = 2 ^ 63 * Binary64.one := by
  decide +kernel

theorem units_int64Min : Binary64.units (F64.ofInt64 Int64.minValue).bits.toNat = -2 ^ 63 * Binary64.one := by
  decide +kernel

theorem partialCmp_eq {x y : F64} (hx : x.isNaN = false) (hy : y.isNaN = false) :
    x.partialCmp y = some (compare (Binary64.units x.bits.toNat) (Binary64.units y.bits.toNat)) := by
  unfold F64.isNaN at hx hy
  rw [F64.partialCmp, Binary64.partialCmp, hx, hy]
  rfl

theorem asInt64_trunc {x : F64} (hx : x.isNaN = false) (hlow : -2 ^ 63 ≤ Binary64.toInt x.bits.toNat)
    (hhigh : Binary64.toInt x.bits.toNat < 2 ^ 63) : x.trunc.asInt64.toInt = Binary64.toInt x.bits.toNat := by
  have hbits : x.trunc.bits.toNat = Binary64.trunc x.bits.toNat :=
    UInt64.toNat_ofNat_of_lt' (Nat.lt_of_le_of_lt (Binary64.trunc_le _) x.bits.toNat_lt)
  have hnan : x.trunc.isNaN = false := by rw [F64.isNaN, hbits]; exact Binary64.isNaN_trunc hx
  have hclamp : max F64.int64Min (min (Binary64.toInt x.bits.toNat) F64.int64Max) = Binary64.toInt x.bits.toNat := by
    unfold F64.int64Min F64.int64Max; omega
  rw [F64.asInt64, hnan, if_neg (by decide), hbits, Binary64.toInt_trunc, hclamp]
  exact Int64.toInt_ofInt_of_le hlow hhigh

theorem units_ofInt64 {integer : Int64} {bits : Nat} (h : integer.toInt = Binary64.toInt bits) :
    Binary64.units (F64.ofInt64 integer).bits.toNat = integer.toInt * Binary64.one ∧
      (F64.ofInt64 integer).isNaN = false := by
  obtain ⟨q, s, hparts, hq⟩ := Binary64.toInt_parts bits
  have hlow := integer.le_toInt
  have hhigh := integer.toInt_lt
  obtain ⟨hunits, hnan, hlt⟩ := Binary64.units_ofInt (h ▸ hparts) hq (by omega)
  have hbits : (F64.ofInt64 integer).bits.toNat = Binary64.ofInt integer.toInt := UInt64.toNat_ofNat_of_lt' hlt
  rw [F64.isNaN, hbits]
  exact ⟨hunits, hnan⟩

theorem intFloatCmp_exact (integer : Int64) {x : F64} (hx : x.isNaN = false) :
    intFloatCmp integer x = some (compare (integer.toInt * Binary64.one) (Binary64.units x.bits.toNat)) := by
  have hlow := integer.le_toInt
  have hhigh := integer.toInt_lt
  have hone : (0 : Int) < Binary64.one := Int.natCast_pos.2 Binary64.one_pos
  rw [intFloatCmp, if_neg (by rw [hx]; decide), partialCmp_eq hx (by decide), partialCmp_eq hx (by decide),
    units_int64Max, units_int64Min]
  simp only [Option.some.injEq, compare_gt_iff_gt, compare_eq_iff_eq, compare_lt_iff_lt]
  split
  · rename_i hlarge
    have hmul : integer.toInt * Binary64.one < 2 ^ 63 * Binary64.one := Int.mul_lt_mul_of_pos_right hhigh hone
    rw [compare_lt_iff_lt.2 (show integer.toInt * Binary64.one < Binary64.units x.bits.toNat by omega)]
  · rename_i hsmaller
    split
    · rename_i hsmall
      have hmul : -2 ^ 63 * Binary64.one ≤ integer.toInt * Binary64.one :=
        Int.mul_le_mul_of_nonneg_right hlow (Int.le_of_lt hone)
      rw [compare_gt_iff_gt.2 (show integer.toInt * Binary64.one > Binary64.units x.bits.toNat by omega)]
    · rename_i hlarger
      -- Between the bounds the whole part is a 64-bit integer.
      have hwhole := asInt64_trunc hx
        (Int.le_tdiv_of_mul_le hone (by omega)) (Binary64.toInt_lt (by decide) (by omega))
      obtain ⟨hunits, hnan⟩ := units_ofInt64 hwhole
      rw [Binary64.compare_whole, hwhole, partialCmp_eq hnan hx, hunits, hwhole]
      cases compare integer.toInt (Binary64.toInt x.bits.toNat) <;> rfl

/-- How two values compare: texts and truth values in their order, and numbers by their exact values. -/
def Value.exactCmp : Value → Value → Option Ordering
  | .null _, _ | _, .null _ => none
  | .bool left, .bool right => some (compare left right)
  | .string left, .string right => some (compare left right)
  | left, right => left.exact.bind fun a => right.exact.map fun b => compare a b

theorem intFloatCmp_eq (integer : Int64) (x : F64) :
    intFloatCmp integer x = (Value.float64 x).exact.map fun b => compare (integer.toInt : ℚ) b := by
  cases hx : x.isNaN with
  | true => simp only [intFloatCmp, Value.exact, hx, if_true, Option.map_none]
  | false =>
    rw [intFloatCmp_exact integer hx, ← compare_int_value]
    simp only [Value.exact, hx, Bool.false_eq_true, if_false, Option.map_some]

theorem partialCmp_exact (x y : F64) :
    x.partialCmp y = (Value.float64 x).exact.bind fun a => (Value.float64 y).exact.map fun b => compare a b := by
  cases hx : x.isNaN with
  | true =>
    unfold F64.isNaN at hx
    simp only [F64.partialCmp, Binary64.partialCmp, Value.exact, F64.isNaN, hx, true_or, if_true, Option.bind_none]
  | false =>
    cases hy : y.isNaN with
    | true =>
      unfold F64.isNaN at hx hy
      simp only [F64.partialCmp, Binary64.partialCmp, Value.exact, F64.isNaN, hx, hy, or_true, if_true, Option.map_none,
        Option.bind_fun_none]
    | false =>
      rw [partialCmp_eq hx hy]
      simp only [Value.exact, hx, hy, Bool.false_eq_true, if_false, Option.bind_some, Option.map_some, Binary64.value,
        compare_div_one]

/-- **SQL comparison is exact.** -/
theorem sqlCmp_eq_exactCmp (left right : Value) : left.sqlCmp right = left.exactCmp right := by
  cases left with
  | null dataType => rfl
  | int64 left =>
    cases right with
    | int64 right => exact congrArg some (compare_cast left.toInt right.toInt).symm
    | float64 right => exact intFloatCmp_eq left right
    | _ => rfl
  | float64 left =>
    cases right with
    | int64 right =>
      rw [Value.sqlCmp, intFloatCmp_eq, Option.map_map, Value.exactCmp]
      · show _ = (Value.float64 left).exact.bind fun a => some (compare a (right.toInt : ℚ))
        cases (Value.float64 left).exact with
        | none => rfl
        | some a => exact congrArg some (compare_swap _ _)
      all_goals exact nofun
    | float64 right => exact partialCmp_exact left right
    | _ => simp [Value.sqlCmp, Value.exactCmp, Value.exact]
  | bool left => cases right <;> simp [Value.sqlCmp, Value.exactCmp, Value.exact]
  | string left => cases right <;> simp [Value.sqlCmp, Value.exactCmp, Value.exact]

end RustHouse.Batch
