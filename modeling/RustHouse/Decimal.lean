import Mathlib.Algebra.GroupWithZero.Nat
import Mathlib.Data.Char
import Mathlib.Data.Int.Order.Basic
import Mathlib.Data.Nat.Log
import Mathlib.Order.Compare
import Mathlib.Order.Defs.Unbundled

/-!
# Decimal numerals

An integer as text is a sign, if there is one, and digits with the most
significant one first. Without leading zeros, digits compare as their numbers
do: first by how many there are, then from the left.
-/

namespace Decimal

/-! ## Numerals -/

inductive Sign where
  | plus | minus
  deriving DecidableEq

def Sign.text : Sign → Char
  | plus => '+'
  | minus => '-'

/-- `[+-]?[0-9]+`. -/
structure Numeral where
  sign : Option Sign
  digits : List Char
  digits_ne_nil : digits ≠ []
  isDigit : ∀ c ∈ digits, c.isDigit

/-- The number that some digits stand for. -/
def magnitude (digits : List Char) : Nat := Nat.ofDigitChars 10 digits 0

namespace Numeral

def chars (n : Numeral) : List Char := (n.sign.map Sign.text).toList ++ n.digits

def text (n : Numeral) : String := .ofList n.chars

def value (n : Numeral) : Int := if n.sign = some .minus then -magnitude n.digits else magnitude n.digits

end Numeral

/-! ## Digits as numbers -/

section
variable {c : Char} {xs ys : List Char}

theorem digit_bounds (h : c.isDigit) : 48 ≤ c.toNat ∧ c.toNat ≤ 57 := Char.isDigit_iff_toNat.1 h

theorem magnitude_cons (c : Char) (xs : List Char) :
    magnitude (c :: xs) = 10 ^ xs.length * (c.toNat - 48) + magnitude xs := by
  unfold magnitude
  rw [Nat.ofDigitChars_cons, Nat.ofDigitChars_eq_ofDigitChars_zero]
  simp

theorem magnitude_lt (h : ∀ c ∈ xs, c.isDigit) : magnitude xs < 10 ^ xs.length := by
  induction xs with
  | nil => exact Nat.one_pos
  | cons c xs ih =>
    obtain ⟨hc, hxs⟩ := List.forall_mem_cons.1 h
    have hdigit : c.toNat - 48 ≤ 9 := by have := digit_bounds hc; omega
    calc magnitude (c :: xs) = 10 ^ xs.length * (c.toNat - 48) + magnitude xs := magnitude_cons c xs
      _ < 10 ^ xs.length * (c.toNat - 48) + 10 ^ xs.length := Nat.add_lt_add_left (ih hxs) _
      _ ≤ 10 ^ xs.length * 9 + 10 ^ xs.length := Nat.add_le_add_right (Nat.mul_le_mul_left _ hdigit) _
      _ = 10 ^ (c :: xs).length := by rw [List.length_cons, Nat.pow_succ]; omega

theorem le_magnitude_cons (hc : c.isDigit) (hzero : c ≠ '0') : 10 ^ xs.length ≤ magnitude (c :: xs) := by
  have hpos : 1 ≤ c.toNat - 48 := by
    have hbounds := digit_bounds hc
    have hne : c.toNat ≠ 48 := fun h => hzero (Char.toNat_inj.1 h)
    omega
  rw [magnitude_cons]
  exact Nat.le_trans (Nat.le_mul_of_pos_right _ hpos) (Nat.le_add_right _ _)

/-! ## Comparison -/

theorem compareLex_digits (hx : ∀ c ∈ xs, c.isDigit) (hy : ∀ c ∈ ys, c.isDigit) (hlen : xs.length = ys.length) :
    List.compareLex compare xs ys = compare (magnitude xs) (magnitude ys) := by
  induction xs generalizing ys with
  | nil =>
    cases ys with
    | nil => rfl
    | cons d ys => cases hlen
  | cons c xs ih =>
    cases ys with
    | nil => cases hlen
    | cons d ys =>
      obtain ⟨hc, hxs⟩ := List.forall_mem_cons.1 hx
      obtain ⟨hd, hys⟩ := List.forall_mem_cons.1 hy
      have hlen : xs.length = ys.length := Nat.succ.inj hlen
      have hxlt := magnitude_lt hxs
      have hylt := magnitude_lt hys
      have hcbounds := digit_bounds hc
      have hdbounds := digit_bounds hd
      rw [List.compareLex_cons_cons, magnitude_cons, magnitude_cons, ih hxs hys hlen, hlen]
      rw [hlen] at hxlt
      generalize 10 ^ ys.length = p at hxlt hylt ⊢
      rcases lt_trichotomy c d with hlt | rfl | hgt
      · have hstep : p * (c.toNat - 48) + p ≤ p * (d.toNat - 48) := by
          rw [← Nat.mul_succ]
          exact Nat.mul_le_mul_left p (by have : c.toNat < d.toNat := hlt; omega)
        have hvalue : p * (c.toNat - 48) + magnitude xs < p * (d.toNat - 48) + magnitude ys := by omega
        rw [compare_lt_iff_lt.2 hlt, compare_lt_iff_lt.2 hvalue]
        rfl
      · have hadd : compare (p * (c.toNat - 48) + magnitude xs) (p * (c.toNat - 48) + magnitude ys) =
            compare (magnitude xs) (magnitude ys) := by
          simp only [Nat.compare_eq_ite_lt, Nat.add_lt_add_iff_left]
        rw [compare_eq_iff_eq.2 (Eq.refl c), hadd]
        rfl
      · have hstep : p * (d.toNat - 48) + p ≤ p * (c.toNat - 48) := by
          rw [← Nat.mul_succ]
          exact Nat.mul_le_mul_left p (by have : d.toNat < c.toNat := hgt; omega)
        have hvalue : p * (d.toNat - 48) + magnitude ys < p * (c.toNat - 48) + magnitude xs := by omega
        rw [compare_gt_iff_gt.2 hgt, compare_gt_iff_gt.2 hvalue]
        rfl

/-- No zero leads, except the only one of zero itself. -/
def Canonical (digits : List Char) : Prop := digits = ['0'] ∨ ∃ c rest, digits = c :: rest ∧ c ≠ '0'

theorem Canonical.length_pos (h : Canonical xs) : 0 < xs.length := by
  rcases h with rfl | ⟨c, rest, rfl, _⟩
  · exact Nat.one_pos
  · exact Nat.succ_pos _

theorem magnitude_lt_of_length (hx : ∀ c ∈ xs, c.isDigit) (hcx : Canonical xs) (hy : ∀ c ∈ ys, c.isDigit)
    (hcy : Canonical ys) (hlen : xs.length < ys.length) : magnitude xs < magnitude ys := by
  have hpos := hcx.length_pos
  rcases hcy with rfl | ⟨d, rest, rfl, hd⟩
  · exact absurd hlen (Nat.not_lt.2 hpos)
  · calc magnitude xs < 10 ^ xs.length := magnitude_lt hx
      _ ≤ 10 ^ rest.length := Nat.pow_le_pow_right (by decide) (Nat.le_of_lt_succ hlen)
      _ ≤ magnitude (d :: rest) := le_magnitude_cons (hy d (List.mem_cons_self ..)) hd

/-- **Canonical digits compare as their numbers do.** -/
theorem compare_canonical (hx : ∀ c ∈ xs, c.isDigit) (hcx : Canonical xs) (hy : ∀ c ∈ ys, c.isDigit)
    (hcy : Canonical ys) : (compare xs.length ys.length).then (List.compareLex compare xs ys) =
      compare (magnitude xs) (magnitude ys) := by
  rcases lt_trichotomy xs.length ys.length with hlt | heq | hgt
  · rw [compare_lt_iff_lt.2 hlt, compare_lt_iff_lt.2 (magnitude_lt_of_length hx hcx hy hcy hlt)]
    rfl
  · rw [compare_eq_iff_eq.2 heq, compareLex_digits hx hy heq]
    rfl
  · rw [compare_gt_iff_gt.2 hgt, compare_gt_iff_gt.2 (magnitude_lt_of_length hy hcy hx hcx hgt)]
    rfl

theorem Canonical.eq_zero_iff (h : Canonical xs) (hx : ∀ c ∈ xs, c.isDigit) : xs = ['0'] ↔ magnitude xs = 0 := by
  constructor
  · intro heq
    rw [heq]
    rfl
  · intro hzero
    rcases h with heq | ⟨c, rest, rfl, hc⟩
    · exact heq
    · have hle : 10 ^ rest.length ≤ magnitude (c :: rest) := le_magnitude_cons (hx c (List.mem_cons_self ..)) hc
      have hpow := Nat.pow_pos (n := rest.length) (show 0 < 10 by decide)
      omega

end

/-! ## The digits of a number -/

theorem canonical_toDigits (n : Nat) : Canonical (Nat.toDigits 10 n) := by
  induction n using Nat.strongRecOn with
  | ind n ih =>
    by_cases hlt : n < 10
    · rw [Nat.toDigits_of_lt_base hlt]
      by_cases hzero : n = 0
      · subst hzero
        exact .inl rfl
      · refine .inr ⟨n.digitChar, [], rfl, fun h => hzero ?_⟩
        have := congrArg Char.toNat h
        rw [Nat.toNat_digitChar_of_lt_ten hlt] at this
        have : 48 + n = 48 := this
        omega
    · have hpos : n / 10 ≠ 0 := by omega
      rw [Nat.toDigits_of_base_le (by decide) (Nat.not_lt.1 hlt)]
      rcases ih (n / 10) (by omega) with hzero | ⟨c, rest, heq, hc⟩
      · have := congrArg (Nat.ofDigitChars 10 · 0) hzero
        rw [Nat.ofDigitChars_ten_toDigits] at this
        exact absurd this hpos
      · exact .inr ⟨c, rest ++ [(n % 10).digitChar], by rw [heq, List.cons_append], hc⟩

theorem length_toDigits (n : Nat) : (Nat.toDigits 10 n).length = if n = 0 then 1 else Nat.log 10 n + 1 := by
  by_cases hzero : n = 0
  · subst hzero
    rfl
  · have hlength : ∀ k, (Nat.toDigits 10 n).length ≤ k + 1 ↔ Nat.log 10 n < k + 1 := by
      intro k
      rw [Nat.length_toDigits_le_iff (by decide) (Nat.succ_pos k), Nat.log_lt_iff_lt_pow (by decide) hzero]
    have hpos : 0 < (Nat.toDigits 10 n).length := Nat.length_toDigits_pos
    have hle := (hlength (Nat.log 10 n)).2 (Nat.lt_succ_self _)
    have hge := (hlength ((Nat.toDigits 10 n).length - 1)).1 (by omega)
    rw [if_neg hzero]
    omega

/-! ## Signed numbers -/

theorem compare_natCast (a b : Nat) : compare (a : Int) (b : Int) = compare a b := by
  rcases lt_trichotomy a b with hlt | rfl | hgt
  · rw [compare_lt_iff_lt.2 hlt, compare_lt_iff_lt.2 (Int.ofNat_lt.2 hlt)]
  · rw [compare_eq_iff_eq.2 (Eq.refl a), compare_eq_iff_eq.2 (Eq.refl (a : Int))]
  · rw [compare_gt_iff_gt.2 hgt, compare_gt_iff_gt.2 (Int.ofNat_lt.2 hgt)]

theorem compare_neg_natCast (a b : Nat) : compare (-(a : Int)) (-(b : Int)) = (compare a b).swap := by
  rcases lt_trichotomy a b with hlt | rfl | hgt
  · rw [compare_lt_iff_lt.2 hlt, compare_gt_iff_gt.2 (Int.neg_lt_neg (Int.ofNat_lt.2 hlt))]
    rfl
  · rw [compare_eq_iff_eq.2 (Eq.refl a), compare_eq_iff_eq.2 (Eq.refl (-(a : Int)))]
    rfl
  · rw [compare_gt_iff_gt.2 hgt, compare_lt_iff_lt.2 (Int.neg_lt_neg (Int.ofNat_lt.2 hgt))]
    rfl

theorem compare_neg_pos {a : Nat} (b : Nat) (ha : a ≠ 0) : compare (-(a : Int)) (b : Int) = .lt := by
  apply compare_lt_iff_lt.2
  omega

theorem compare_pos_neg (a : Nat) {b : Nat} (hb : b ≠ 0) : compare (a : Int) (-(b : Int)) = .gt := by
  apply compare_gt_iff_gt.2
  omega

end Decimal
