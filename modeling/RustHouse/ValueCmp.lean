import RustHouse.ValueOrder

/-!
# The total order of values

How values are compared where they have to be ordered somehow: NULL first, and
floating-point numbers by their total order except that zeros are equal.
-/

namespace Binary64

/-! ## Patterns in order -/

/-- The larger pattern of exponent and fraction has the larger magnitude. -/
theorem magnitude_lt {left right : Nat} (h : left % 2 ^ 63 < right % 2 ^ 63) : magnitude left < magnitude right := by
  have hfields (bits : Nat) : bits % 2 ^ 63 = exponentBits bits * 2 ^ 52 + fractionBits bits := by
    unfold exponentBits fractionBits
    omega
  have hleft := fractionBits_lt left
  have hright := fractionBits_lt right
  rw [hfields, hfields] at h
  by_cases heq : exponentBits left = exponentBits right
  · have hfraction : fractionBits left < fractionBits right := by omega
    rw [magnitude, magnitude, heq]
    split
    · exact hfraction
    · exact Nat.mul_lt_mul_of_pos_right (by omega) (Nat.two_pow_pos _)
  · have hexponent : exponentBits left < exponentBits right := by omega
    obtain ⟨k, hk⟩ := Nat.exists_eq_add_of_lt hexponent
    have hlow : 2 ^ 52 * 2 ^ (exponentBits right - 1) ≤ magnitude right := by
      rw [magnitude, if_neg (by omega)]
      exact Nat.mul_le_mul_right _ (by omega)
    refine Nat.lt_of_lt_of_le ?_ hlow
    rw [magnitude]
    split
    · exact Nat.lt_of_lt_of_le hleft (Nat.le_mul_of_pos_right _ (Nat.two_pow_pos _))
    · calc (2 ^ 52 + fractionBits left) * 2 ^ (exponentBits left - 1)
          < 2 ^ 53 * 2 ^ (exponentBits left - 1) := Nat.mul_lt_mul_of_pos_right (by omega) (Nat.two_pow_pos _)
        _ = 2 ^ 52 * 2 ^ (exponentBits left) := by
          rw [← Nat.pow_add, ← Nat.pow_add]; congr 1; omega
        _ ≤ 2 ^ 52 * 2 ^ (exponentBits right - 1) :=
          Nat.mul_le_mul_left _ (Nat.pow_le_pow_right (by decide) (by omega))

theorem magnitude_inj {left right : Nat} : magnitude left = magnitude right ↔ left % 2 ^ 63 = right % 2 ^ 63 := by
  refine ⟨fun h => ?_, fun h => ?_⟩
  · rcases Nat.lt_trichotomy (left % 2 ^ 63) (right % 2 ^ 63) with hlt | heq | hlt
    · exact absurd h (Nat.ne_of_lt (magnitude_lt hlt))
    · exact heq
    · exact absurd h (Nat.ne_of_gt (magnitude_lt hlt))
  · have hexponent : exponentBits left = exponentBits right := by unfold exponentBits; omega
    have hfraction : fractionBits left = fractionBits right := by unfold fractionBits; omega
    rw [magnitude, magnitude, hexponent, hfraction]

/-- Numbers are equal when their patterns are, or both are zeros. -/
theorem units_inj {left right : Nat} (hleft : left < 2 ^ 64) (hright : right < 2 ^ 64) :
    units left = units right ↔ left = right ∨ left % 2 ^ 63 = 0 ∧ right % 2 ^ 63 = 0 := by
  have hzero (bits : Nat) : magnitude bits = 0 ↔ bits % 2 ^ 63 = 0 := by
    rw [show (0 : Nat) = magnitude 0 from rfl, magnitude_inj]
    rfl
  have hinj := @magnitude_inj left right
  have hl := hzero left
  have hr := hzero right
  unfold units signBit
  split <;> split <;> omega

end Binary64

namespace RustHouse.Batch

/-! ## Floating-point numbers -/

/-- The place of a number in `total_cmp`. -/
def F64.totalKey (x : F64) : Int :=
  if x.bits.toNat < 2 ^ 63 then x.bits.toNat else -(x.bits.toNat - 2 ^ 63 : Nat) - 1

/-- Equal numbers are equal, and others are ordered by `total_cmp`. -/
def F64.floatCmp (left right : F64) : Ordering :=
  if left.partialCmp right = some .eq then .eq else compare left.totalKey right.totalKey

/-- The place of a number when zeros have the same one. -/
def F64.orderKey (x : F64) : Int := if x.bits.toNat % 2 ^ 63 = 0 then 0 else x.totalKey

theorem F64.partialCmp_eq_eq {left right : F64} (h : left.partialCmp right = some .eq) :
    left = right ∨ left.bits.toNat % 2 ^ 63 = 0 ∧ right.bits.toNat % 2 ^ 63 = 0 := by
  rw [F64.partialCmp, Binary64.partialCmp] at h
  split at h
  · cases h
  · have hunits := (Binary64.units_inj left.bits.toNat_lt right.bits.toNat_lt).1 (compare_eq_iff_eq.1 (Option.some.inj h))
    refine hunits.imp_left fun heq => ?_
    cases left
    cases right
    exact congrArg F64.mk (UInt64.toNat_inj.1 heq)

theorem F64.totalKey_inj {left right : F64} (h : left.totalKey = right.totalKey) : left = right := by
  have hleft := left.bits.toNat_lt
  have hright := right.bits.toNat_lt
  cases left
  cases right
  refine congrArg F64.mk (UInt64.toNat_inj.1 ?_)
  unfold F64.totalKey at h
  dsimp only at h hleft hright
  split at h <;> split at h <;> omega

theorem F64.partialCmp_zeros {left right : F64} (hleft : left.bits.toNat % 2 ^ 63 = 0)
    (hright : right.bits.toNat % 2 ^ 63 = 0) : left.partialCmp right = some .eq := by
  have hnan {bits : Nat} (h : bits % 2 ^ 63 = 0) : Binary64.isNaN bits = false := by
    have hfraction : Binary64.fractionBits bits = 0 := by unfold Binary64.fractionBits; omega
    rw [Binary64.isNaN, hfraction]
    exact decide_eq_false fun h => h.2 rfl
  have hunits := (Binary64.units_inj left.bits.toNat_lt right.bits.toNat_lt).2 (.inr ⟨hleft, hright⟩)
  rw [F64.partialCmp, Binary64.partialCmp, hnan hleft, hnan hright, if_neg (by decide), hunits]
  exact congrArg some (compare_eq_iff_eq.2 rfl)

/-- The places of the zeros lie between those of the other numbers. -/
theorem F64.totalKey_zero {x : F64} :
    (x.bits.toNat % 2 ^ 63 = 0 → x.totalKey = 0 ∨ x.totalKey = -1) ∧
      (x.bits.toNat % 2 ^ 63 ≠ 0 → x.totalKey < -1 ∨ 0 < x.totalKey) := by
  have hlt := x.bits.toNat_lt
  unfold F64.totalKey
  split <;> omega

/-- **The order of numbers** is that of their places. -/
theorem F64.floatCmp_eq (left right : F64) : left.floatCmp right = compare left.orderKey right.orderKey := by
  have hl := @F64.totalKey_zero left
  have hr := @F64.totalKey_zero right
  have hstrict {a b c d : Int} (h : a < b ∧ c < d ∨ b < a ∧ d < c) : compare a b = compare c d := by
    obtain ⟨hab, hcd⟩ | ⟨hab, hcd⟩ := h
    · rw [compare_lt_iff_lt.2 hab, compare_lt_iff_lt.2 hcd]
    · rw [compare_gt_iff_gt.2 hab, compare_gt_iff_gt.2 hcd]
  unfold F64.floatCmp
  by_cases hleft : left.bits.toNat % 2 ^ 63 = 0
  · by_cases hright : right.bits.toNat % 2 ^ 63 = 0
    · rw [if_pos (F64.partialCmp_zeros hleft hright), F64.orderKey, F64.orderKey, if_pos hleft, if_pos hright]
      exact (compare_eq_iff_eq.2 rfl).symm
    · rw [if_neg fun h => ?_, F64.orderKey, F64.orderKey, if_pos hleft, if_neg hright]
      · exact hstrict (by omega)
      · obtain rfl | ⟨_, hzero⟩ := F64.partialCmp_eq_eq h
        · exact hright hleft
        · exact hright hzero
  · split
    · rename_i h
      obtain rfl | ⟨hzero, _⟩ := F64.partialCmp_eq_eq h
      · exact (compare_eq_iff_eq.2 rfl).symm
      · exact absurd hzero hleft
    · rw [F64.orderKey, if_neg hleft, F64.orderKey]
      split
      · exact hstrict (by omega)
      · rfl

/-! ## Values -/

def DataType.index : DataType → Nat
  | int64 => 0
  | float64 => 1
  | bool => 2
  | string => 3

def Value.variantIndex : Value → Nat
  | null _ => 0
  | int64 _ => 1
  | float64 _ => 2
  | bool _ => 3
  | string _ => 4

/-- `Ord::cmp`. -/
def Value.cmp : Value → Value → Ordering
  | null left, null right => compare left.index right.index
  | int64 left, int64 right => compare left.toInt right.toInt
  | float64 left, float64 right => left.floatCmp right
  | bool left, bool right => compare left right
  | string left, string right => compare left right
  | left, right => compare left.variantIndex right.variantIndex

end RustHouse.Batch
