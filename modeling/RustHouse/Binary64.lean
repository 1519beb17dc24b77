import Mathlib.Data.Nat.Log
import Mathlib.Data.Rat.Cast.Order
import Mathlib.Tactic.Ring

/-!
# Floating-point numbers of 64 bits

A number is given by its bits: a sign, an exponent of eleven bits and a
fraction of 52. Every finite number is a whole multiple of the smallest one,
`2 ^ -1074`, so its exact value is an integer in these units; an infinity
counts as the next power of two, which orders it after every finite number.
-/

namespace Binary64

/-! ## Fields -/

def fractionBits (bits : Nat) : Nat := bits % 2 ^ 52

def exponentBits (bits : Nat) : Nat := bits / 2 ^ 52 % 2 ^ 11

def signBit (bits : Nat) : Nat := bits / 2 ^ 63

def isNaN (bits : Nat) : Bool := exponentBits bits = 2047 ∧ fractionBits bits ≠ 0

def isFinite (bits : Nat) : Bool := exponentBits bits ≠ 2047

/-- How many units there are in one. -/
def one : Nat := 2 ^ 1074

theorem one_pos : 0 < one := Nat.two_pow_pos 1074

def magnitude (bits : Nat) : Nat :=
  if exponentBits bits = 0 then fractionBits bits else (2 ^ 52 + fractionBits bits) * 2 ^ (exponentBits bits - 1)

def units (bits : Nat) : Int := if signBit bits = 0 then magnitude bits else -magnitude bits

/-- The exact value of a finite number. -/
def value (bits : Nat) : ℚ := units bits / one

def partialCmp (left right : Nat) : Option Ordering :=
  if isNaN left ∨ isNaN right then none else some (compare (units left) (units right))

/-! ## Integers -/

/-- The number rounded toward zero. -/
def trunc (bits : Nat) : Nat :=
  if exponentBits bits < 1023 then bits / 2 ^ 63 * 2 ^ 63
  else if exponentBits bits < 1075 then bits - bits % 2 ^ (1075 - exponentBits bits)
  else bits

def toInt (bits : Nat) : Int := (units bits).tdiv one

/-- `m / 2 ^ shift`, to the nearest integer and from the middle to the even one. -/
def roundHalfEven (m shift : Nat) : Nat :=
  let quotient := m / 2 ^ shift
  let rest := m % 2 ^ shift
  if 2 ^ shift < 2 * rest ∨ (2 * rest = 2 ^ shift ∧ quotient % 2 = 1) then quotient + 1 else quotient

/-- The nearest number to a natural one. -/
def ofNat (m : Nat) : Nat :=
  if m = 0 then 0
  else
    let significand := if m.log2 ≤ 52 then m * 2 ^ (52 - m.log2) else roundHalfEven m (m.log2 - 52)
    (m.log2 + 1022) * 2 ^ 52 + significand

def ofInt (n : Int) : Nat := if n < 0 then 2 ^ 63 + ofNat n.natAbs else ofNat n.natAbs

/-! ## Rounding toward zero -/

theorem fields_sub {bits k : Nat} (hk : k ≤ 52) :
    exponentBits (bits - bits % 2 ^ k) = exponentBits bits ∧ signBit (bits - bits % 2 ^ k) = signBit bits ∧
      fractionBits (bits - bits % 2 ^ k) = fractionBits bits - fractionBits bits % 2 ^ k := by
  obtain ⟨j, hj⟩ := Nat.exists_eq_add_of_le hk
  have hdvd : 2 ^ k ∣ 2 ^ 52 := Nat.pow_dvd_pow 2 hk
  have hmod : bits % 2 ^ 52 % 2 ^ k = bits % 2 ^ k := Nat.mod_mod_of_dvd bits hdvd
  have hle : bits % 2 ^ k ≤ bits % 2 ^ 52 := hmod ▸ Nat.mod_le _ _
  have hsplit : bits - bits % 2 ^ k = 2 ^ 52 * (bits / 2 ^ 52) + (bits % 2 ^ 52 - bits % 2 ^ k) := by
    have := Nat.div_add_mod bits (2 ^ 52)
    omega
  have hlt : bits % 2 ^ 52 - bits % 2 ^ k < 2 ^ 52 :=
    Nat.lt_of_le_of_lt (Nat.sub_le _ _) (Nat.mod_lt _ (by decide))
  have hdiv : (bits - bits % 2 ^ k) / 2 ^ 52 = bits / 2 ^ 52 := by
    rw [hsplit, Nat.mul_add_div (by decide), Nat.div_eq_of_lt hlt, Nat.add_zero]
  refine ⟨by rw [exponentBits, exponentBits, hdiv], ?_, ?_⟩
  · have hsign : ∀ n : Nat, n / 2 ^ 63 = n / 2 ^ 52 / 2 ^ 11 := fun n => by rw [Nat.div_div_eq_div_mul, ← Nat.pow_add]
    rw [signBit, signBit, hsign, hsign, hdiv]
  · rw [fractionBits, hsplit, Nat.mul_add_mod, Nat.mod_eq_of_lt hlt, fractionBits, hmod]

theorem fields_sign (bits : Nat) :
    exponentBits (bits / 2 ^ 63 * 2 ^ 63) = 0 ∧ fractionBits (bits / 2 ^ 63 * 2 ^ 63) = 0 ∧
      signBit (bits / 2 ^ 63 * 2 ^ 63) = signBit bits := by
  refine ⟨?_, ?_, Nat.mul_div_cancel _ (by decide)⟩
  · rw [exponentBits, show (2 : Nat) ^ 63 = 2 ^ 11 * 2 ^ 52 by norm_num, ← Nat.mul_assoc,
      Nat.mul_div_cancel _ (by decide), Nat.mul_mod_left]
  · rw [fractionBits, show (2 : Nat) ^ 63 = 2 ^ 11 * 2 ^ 52 by norm_num, ← Nat.mul_assoc, Nat.mul_mod_left]

theorem fractionBits_lt (bits : Nat) : fractionBits bits < 2 ^ 52 := Nat.mod_lt _ (by decide)

theorem magnitude_lt_one {bits : Nat} (h : exponentBits bits < 1023) : magnitude bits < one := by
  have hf := fractionBits_lt bits
  unfold magnitude one
  split
  · exact Nat.lt_of_lt_of_le hf (Nat.pow_le_pow_right (by decide) (by decide))
  · have hpow : 2 ^ (exponentBits bits - 1) ≤ 2 ^ 1021 := Nat.pow_le_pow_right (by decide) (by omega)
    calc (2 ^ 52 + fractionBits bits) * 2 ^ (exponentBits bits - 1)
        ≤ (2 ^ 52 + fractionBits bits) * 2 ^ 1021 := Nat.mul_le_mul_left _ hpow
      _ < 2 ^ 53 * 2 ^ 1021 := Nat.mul_lt_mul_of_pos_right (by omega) (Nat.two_pow_pos _)
      _ = 2 ^ 1074 := by rw [← Nat.pow_add]

/-- The whole part of a number whose last fraction bits are below one. -/
theorem magnitude_div_one {bits : Nat} (h : 1023 ≤ exponentBits bits) (h' : exponentBits bits < 1075) :
    magnitude bits / one = (2 ^ 52 + fractionBits bits) / 2 ^ (1075 - exponentBits bits) := by
  have hone : one = 2 ^ (1075 - exponentBits bits) * 2 ^ (exponentBits bits - 1) := by
    rw [one, ← Nat.pow_add]; congr 1; omega
  rw [magnitude, if_neg (by omega), hone, Nat.mul_div_mul_right _ _ (Nat.two_pow_pos _)]

theorem magnitude_whole {bits : Nat} (h : 1075 ≤ exponentBits bits) :
    magnitude bits = (2 ^ 52 + fractionBits bits) * 2 ^ (exponentBits bits - 1075) * one := by
  rw [magnitude, if_neg (by omega), one, Nat.mul_assoc, ← Nat.pow_add]
  congr 2; omega

theorem magnitude_trunc (bits : Nat) : magnitude (trunc bits) / one = magnitude bits / one := by
  unfold trunc
  split
  · rename_i hsmall
    obtain ⟨he, hf, _⟩ := fields_sign bits
    rw [Nat.div_eq_of_lt (magnitude_lt_one hsmall), magnitude, if_pos he, hf, Nat.zero_div]
  · rename_i hlarge
    split
    · rename_i hfraction
      obtain ⟨he, _, hf⟩ := @fields_sub bits (1075 - exponentBits bits) (by omega)
      rw [magnitude_div_one (by rw [he]; omega) (by rw [he]; omega), magnitude_div_one (by omega) hfraction, he, hf]
      have hdvd : 2 ^ (1075 - exponentBits bits) ∣ 2 ^ 52 := Nat.pow_dvd_pow 2 (by omega)
      obtain ⟨c, hc⟩ := hdvd
      rw [hc, Nat.mul_add_div (Nat.two_pow_pos _), Nat.mul_add_div (Nat.two_pow_pos _)]
      congr 1
      have hsplit := Nat.div_add_mod (fractionBits bits) (2 ^ (1075 - exponentBits bits))
      rw [show fractionBits bits - fractionBits bits % 2 ^ (1075 - exponentBits bits) =
        2 ^ (1075 - exponentBits bits) * (fractionBits bits / 2 ^ (1075 - exponentBits bits)) by omega,
        Nat.mul_div_cancel_left _ (Nat.two_pow_pos _)]
    · rfl

theorem signBit_trunc (bits : Nat) : signBit (trunc bits) = signBit bits := by
  unfold trunc
  split
  · exact (fields_sign bits).2.2
  · split
    · exact (fields_sub (by omega)).2.1
    · rfl

theorem toInt_eq (bits : Nat) :
    toInt bits = if signBit bits = 0 then ((magnitude bits / one : Nat) : Int) else -((magnitude bits / one : Nat) : Int) := by
  unfold toInt units
  split
  · rfl
  · rw [Int.neg_tdiv]; rfl

theorem isNaN_trunc {bits : Nat} (h : isNaN bits = false) : isNaN (trunc bits) = false := by
  unfold trunc
  split
  · rw [isNaN, (fields_sign bits).1]; rfl
  · split
    · rename_i hlarge hfraction
      rw [isNaN, (fields_sub (by omega)).1]
      simp only [decide_eq_false_iff_not, not_and]
      omega
    · exact h

theorem trunc_le (bits : Nat) : trunc bits ≤ bits := by
  unfold trunc
  split
  · exact Nat.div_mul_le_self _ _
  · split
    · exact Nat.sub_le _ _
    · exact Nat.le_refl _

theorem toInt_trunc (bits : Nat) : toInt (trunc bits) = toInt bits := by
  rw [toInt_eq, toInt_eq, signBit_trunc, magnitude_trunc]

/-! ## Exact conversion -/

theorem exponentBits_of_parts {e significand : Nat} (he : e + 1023 < 2048) (hlow : 2 ^ 52 ≤ significand)
    (hhigh : significand < 2 ^ 53) :
    exponentBits ((e + 1022) * 2 ^ 52 + significand) = e + 1023 ∧
      fractionBits ((e + 1022) * 2 ^ 52 + significand) = significand - 2 ^ 52 := by
  have hsplit : (e + 1022) * 2 ^ 52 + significand = 2 ^ 52 * (e + 1023) + (significand - 2 ^ 52) := by omega
  rw [hsplit]
  constructor
  · rw [exponentBits, Nat.mul_add_div (by decide), Nat.div_eq_of_lt (by omega), Nat.add_zero]
    exact Nat.mod_eq_of_lt he
  · rw [fractionBits, Nat.mul_add_mod, Nat.mod_eq_of_lt (by omega)]

theorem roundHalfEven_of_dvd {m shift : Nat} (h : 2 ^ shift ∣ m) : roundHalfEven m shift = m / 2 ^ shift := by
  have hpos := Nat.two_pow_pos shift
  rw [roundHalfEven, Nat.mod_eq_zero_of_dvd h]
  exact if_neg (by omega)

/-- The significand of a natural number that fits in 53 bits and a power of two. -/
theorem significand_spec {m q s : Nat} (hm : m = q * 2 ^ s) (hpos : m ≠ 0) (hq : q < 2 ^ 53) :
    ∃ significand, ofNat m = (m.log2 + 1022) * 2 ^ 52 + significand ∧ 2 ^ 52 ≤ significand ∧ significand < 2 ^ 53 ∧
      significand * 2 ^ (m.log2 + 1022) = m * one := by
  have hlow : 2 ^ m.log2 ≤ m := Nat.log2_self_le hpos
  have hhigh : m < 2 ^ (m.log2 + 1) := Nat.lt_log2_self
  rw [ofNat, if_neg hpos]
  by_cases he : m.log2 ≤ 52
  · obtain ⟨k, hk⟩ := Nat.exists_eq_add_of_le he
    refine ⟨_, rfl, ?_⟩
    rw [if_pos he, hk, Nat.add_sub_cancel_left, one]
    refine ⟨?_, ?_, ?_⟩
    · rw [Nat.pow_add]; exact Nat.mul_le_mul_right _ hlow
    · have hpow : 2 ^ (m.log2 + k + 1) = 2 ^ (m.log2 + 1) * 2 ^ k := by rw [← Nat.pow_add]; congr 1; omega
      rw [show (53 : Nat) = m.log2 + k + 1 by omega, hpow]
      exact Nat.mul_lt_mul_of_pos_right hhigh (Nat.two_pow_pos k)
    · rw [Nat.mul_assoc, ← Nat.pow_add, show k + (m.log2 + 1022) = 1074 by omega]
  · obtain ⟨k, hk⟩ := Nat.exists_eq_add_of_le (Nat.le_of_not_le he)
    have hks : k ≤ s := by
      have hlt : 2 ^ m.log2 < 2 ^ (53 + s) := by
        calc 2 ^ m.log2 ≤ q * 2 ^ s := hm ▸ hlow
          _ < 2 ^ 53 * 2 ^ s := Nat.mul_lt_mul_of_pos_right hq (Nat.two_pow_pos s)
          _ = 2 ^ (53 + s) := by rw [← Nat.pow_add]
      have := (Nat.pow_lt_pow_iff_right (by decide)).1 hlt
      omega
    have hdvd : 2 ^ k ∣ m := hm ▸ Dvd.dvd.mul_left (Nat.pow_dvd_pow 2 hks) q
    obtain ⟨c, hc⟩ := hdvd
    refine ⟨_, rfl, ?_⟩
    rw [if_neg he, hk, Nat.add_sub_cancel_left, roundHalfEven_of_dvd ⟨c, hc⟩, hc, Nat.mul_div_cancel_left _ (Nat.two_pow_pos k)]
    rw [hk] at hlow hhigh
    rw [hc] at hlow hhigh
    refine ⟨?_, ?_, ?_⟩
    · exact Nat.le_of_mul_le_mul_left (by rwa [Nat.mul_comm (2 ^ k) (2 ^ 52), ← Nat.pow_add]) (Nat.two_pow_pos k)
    · refine Nat.lt_of_mul_lt_mul_left (a := 2 ^ k) ?_
      rwa [← Nat.pow_add, show k + 53 = 52 + k + 1 by omega]
    · rw [one, Nat.mul_comm (2 ^ k) c, Nat.mul_assoc, ← Nat.pow_add]
      congr 2; omega

theorem magnitude_ofNat {m q s : Nat} (hm : m = q * 2 ^ s) (hq : q < 2 ^ 53) (hlt : m < 2 ^ 64) :
    magnitude (ofNat m) = m * one ∧ ofNat m < 2 ^ 63 ∧ isNaN (ofNat m) = false := by
  by_cases hpos : m = 0
  · subst hpos
    exact ⟨by rw [Nat.zero_mul]; rfl, by decide, by decide⟩
  · obtain ⟨significand, heq, hlow, hhigh, hexact⟩ := significand_spec hm hpos hq
    have he : m.log2 < 64 := (Nat.log2_lt hpos).2 hlt
    obtain ⟨hexponent, hfraction⟩ := exponentBits_of_parts (e := m.log2) (by omega) hlow hhigh
    rw [heq]
    refine ⟨?_, by omega, ?_⟩
    · rw [magnitude, hexponent, if_neg (by omega), hfraction, Nat.add_sub_cancel' hlow]
      exact hexact
    · rw [isNaN, hexponent]
      simp only [decide_eq_false_iff_not, not_and]
      omega

/-- Integers that fit in 53 bits and a power of two convert exactly. -/
theorem units_ofInt {n : Int} {q s : Nat} (hn : n.natAbs = q * 2 ^ s) (hq : q < 2 ^ 53) (hlt : n.natAbs < 2 ^ 64) :
    units (ofInt n) = n * one ∧ isNaN (ofInt n) = false ∧ ofInt n < 2 ^ 64 := by
  obtain ⟨hmagnitude, hsmall, hnan⟩ := magnitude_ofNat hn hq hlt
  unfold ofInt
  split
  · rename_i hneg
    have hfields : exponentBits (2 ^ 63 + ofNat n.natAbs) = exponentBits (ofNat n.natAbs) ∧
        fractionBits (2 ^ 63 + ofNat n.natAbs) = fractionBits (ofNat n.natAbs) ∧
        signBit (2 ^ 63 + ofNat n.natAbs) = 1 := by
      refine ⟨?_, ?_, ?_⟩
      · unfold exponentBits; omega
      · unfold fractionBits; omega
      · unfold signBit; omega
    obtain ⟨hexponent, hfraction, hsign⟩ := hfields
    refine ⟨?_, by unfold isNaN; rw [hexponent, hfraction]; exact hnan, by omega⟩
    have hmag : magnitude (2 ^ 63 + ofNat n.natAbs) = magnitude (ofNat n.natAbs) := by
      unfold magnitude; rw [hexponent, hfraction]
    rw [units, hsign, if_neg (by decide), hmag, hmagnitude, Nat.cast_mul, ← Int.neg_mul]
    congr 1; omega
  · have hsign : signBit (ofNat n.natAbs) = 0 := Nat.div_eq_of_lt hsmall
    refine ⟨?_, hnan, by omega⟩
    rw [units, hsign, if_pos rfl, hmagnitude, Nat.cast_mul]
    congr 1; omega

theorem toInt_parts (bits : Nat) : ∃ q s, (toInt bits).natAbs = q * 2 ^ s ∧ q < 2 ^ 53 := by
  have habs : (toInt bits).natAbs = magnitude bits / one := by
    rw [toInt_eq]
    split
    · exact Int.natAbs_natCast _
    · rw [Int.natAbs_neg]; exact Int.natAbs_natCast _
  have hf := fractionBits_lt bits
  rw [habs]
  by_cases hsmall : exponentBits bits < 1023
  · exact ⟨0, 0, by rw [Nat.div_eq_of_lt (magnitude_lt_one hsmall), Nat.zero_mul], by decide⟩
  · by_cases hfraction : exponentBits bits < 1075
    · refine ⟨(2 ^ 52 + fractionBits bits) / 2 ^ (1075 - exponentBits bits), 0, ?_, ?_⟩
      · rw [magnitude_div_one (Nat.le_of_not_lt hsmall) hfraction, Nat.pow_zero, Nat.mul_one]
      · exact Nat.lt_of_le_of_lt (Nat.div_le_self _ _) (by omega)
    · refine ⟨2 ^ 52 + fractionBits bits, exponentBits bits - 1075, ?_, by omega⟩
      rw [magnitude_whole (Nat.le_of_not_lt hfraction), Nat.mul_div_cancel _ one_pos]

/-! ## Comparison with integers -/

theorem toInt_lt {bits : Nat} {n : Int} (hn : 0 < n) (h : units bits < n * one) : toInt bits < n := by
  have hone : (0 : Int) < one := Int.natCast_pos.2 one_pos
  rcases Int.lt_or_le (units bits) 0 with hneg | hnonneg
  · have habs : 0 ≤ (-units bits).tdiv one := Int.tdiv_nonneg (by omega) (Int.le_of_lt hone)
    rw [Int.neg_tdiv] at habs
    unfold toInt
    omega
  · rw [toInt, Int.tdiv_eq_ediv_of_nonneg hnonneg]
    exact Int.ediv_lt_of_lt_mul hone h

/-- An integer lies to a number as to its whole part, unless it is the whole part. -/
theorem compare_whole (n : Int) (bits : Nat) :
    compare (n * one) (units bits) = (compare n (toInt bits)).then (compare (toInt bits * one) (units bits)) := by
  have hone : (0 : Int) < one := Int.natCast_pos.2 one_pos
  have hsplit : toInt bits * one + (units bits).tmod one = units bits := Int.tdiv_mul_add_tmod _ _
  have hlow : -(one : Int) < (units bits).tmod one := Int.lt_tmod_of_pos _ hone
  have hhigh : (units bits).tmod one < one := Int.tmod_lt_of_pos _ hone
  rcases lt_trichotomy n (toInt bits) with hlt | heq | hgt
  · have hmul : (n + 1) * one ≤ toInt bits * one := Int.mul_le_mul_of_nonneg_right hlt (Int.le_of_lt hone)
    rw [Int.add_mul, Int.one_mul] at hmul
    have hunits : n * one < units bits := by omega
    rw [compare_lt_iff_lt.2 hlt, compare_lt_iff_lt.2 hunits]
    rfl
  · rw [heq, compare_eq_iff_eq.2 rfl]
    rfl
  · have hmul : (toInt bits + 1) * one ≤ n * one := Int.mul_le_mul_of_nonneg_right hgt (Int.le_of_lt hone)
    rw [Int.add_mul, Int.one_mul] at hmul
    have hunits : units bits < n * one := by omega
    rw [compare_gt_iff_gt.2 hgt, compare_gt_iff_gt.2 hunits]
    rfl

end Binary64
