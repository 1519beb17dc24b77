import Mathlib.Data.List.Basic
import Mathlib.Logic.Function.Iterate

/-!
# Linear feedback shift registers

A register of `w` bits takes its input one bit at a time into its lowest place
and shifts down, adding a feedback polynomial when a one falls out. A register
whose polynomial has its top bit set loses nothing, so two inputs that differ
in a window of at most `w` bits leave it in different states.
-/

namespace ShiftRegister

variable {w : Nat} (poly : BitVec w)

def shift (c : BitVec w) : BitVec w := (c >>> 1) ^^^ (if c.getLsbD 0 then poly else 0#w)

def bitWord (bit : Bool) : BitVec w := if bit then 1#w else 0#w

def feed (c : BitVec w) (bits : List Bool) : BitVec w := bits.foldl (fun c bit => shift poly (c ^^^ bitWord bit)) c

/-- The register that holds `bits`, the first in the lowest place. -/
def ofBits (bits : List Bool) : BitVec w := (BitVec.ofBoolListLE bits).setWidth w

theorem feed_cons (c : BitVec w) (bit : Bool) (bits : List Bool) :
    feed poly c (bit :: bits) = feed poly (shift poly (c ^^^ bitWord bit)) bits := rfl

theorem feed_append (c : BitVec w) (bits rest : List Bool) :
    feed poly c (bits ++ rest) = feed poly (feed poly c bits) rest := List.foldl_append

/-! ## One shift -/

theorem xor_right_cancel {a b c : BitVec w} (h : a ^^^ c = b ^^^ c) : a = b := by
  have := congrArg (fun x => x ^^^ c) h
  simpa only [BitVec.xor_assoc, BitVec.xor_self, BitVec.xor_zero] using this

theorem shift_xor (a b : BitVec w) : shift poly (a ^^^ b) = shift poly a ^^^ shift poly b := by
  apply BitVec.eq_of_getLsbD_eq
  intro i _
  simp only [shift, BitVec.getLsbD_xor, BitVec.getLsbD_ushiftRight]
  cases a.getLsbD 0 <;> cases b.getLsbD 0 <;> simp <;> grind

theorem shift_msb (hpoly : poly.msb = true) (c : BitVec w) : (shift poly c).msb = c.getLsbD 0 := by
  rw [BitVec.msb_eq_getLsbD_last] at hpoly ⊢
  have hw : 0 < w := by
    by_contra h
    rw [BitVec.getLsbD_of_ge _ _ (by omega)] at hpoly
    exact absurd hpoly (by decide)
  simp only [shift, BitVec.getLsbD_xor, BitVec.getLsbD_ushiftRight]
  rw [BitVec.getLsbD_of_ge c (1 + (w - 1)) (by omega)]
  cases c.getLsbD 0 <;> simp [hpoly]

theorem shift_injective (hpoly : poly.msb = true) : Function.Injective (shift poly) := by
  intro a b h
  have hlow : a.getLsbD 0 = b.getLsbD 0 := by
    rw [← shift_msb poly hpoly a, ← shift_msb poly hpoly b, h]
  have hrest : a >>> 1 = b >>> 1 := by
    unfold shift at h
    rw [hlow] at h
    exact xor_right_cancel h
  apply BitVec.eq_of_getLsbD_eq
  intro i _
  cases i with
  | zero => exact hlow
  | succ i =>
    have := congrArg (fun x => x.getLsbD i) hrest
    simpa only [BitVec.getLsbD_ushiftRight, Nat.add_comm 1 i] using this

/-! ## Windows -/

theorem ofBits_nil : ofBits ([] : List Bool) = 0#w := by
  apply BitVec.eq_of_getLsbD_eq
  intro i _
  simp [ofBits]

theorem getLsbD_ofBits (bits : List Bool) {i : Nat} (h : i < w) : (ofBits bits : BitVec w).getLsbD i = bits.getD i false := by
  simp [ofBits, h]

theorem ofBits_cons (bit : Bool) (bits : List Bool) :
    (ofBits (bit :: bits) : BitVec w) = bitWord bit ^^^ (ofBits bits <<< 1) := by
  apply BitVec.eq_of_getLsbD_eq
  intro i hi
  rw [getLsbD_ofBits _ hi, BitVec.getLsbD_xor, BitVec.getLsbD_shiftLeft]
  cases i with
  | zero => cases bit <;> simp [bitWord, hi]
  | succ i =>
    rw [Nat.add_sub_cancel, getLsbD_ofBits bits (by omega)]
    cases bit <;> simp [bitWord, hi]

/-- A shift brings down what stands one place up, when its top place is free. -/
theorem shift_shiftLeft (bits : List Bool) (h : bits.length < w) :
    shift poly ((ofBits bits : BitVec w) <<< 1) = ofBits bits := by
  have hlow : ((ofBits bits : BitVec w) <<< 1).getLsbD 0 = false := by simp
  rw [shift, hlow]
  apply BitVec.eq_of_getLsbD_eq
  intro i hi
  simp only [Bool.false_eq_true, if_false, BitVec.xor_zero, BitVec.getLsbD_ushiftRight, BitVec.getLsbD_shiftLeft]
  rw [getLsbD_ofBits bits hi, Nat.add_sub_cancel_left]
  by_cases htop : 1 + i < w
  · rw [getLsbD_ofBits bits hi]
    simp [htop]
  · have : bits[i]? = none := List.getElem?_eq_none (by omega)
    simp [htop, this]

/-- **A window at once.** At most `w` bits can be added before the shifts instead of
between them. -/
theorem feed_eq_iterate : ∀ (bits : List Bool) (c : BitVec w), bits.length ≤ w →
    feed poly c bits = (shift poly)^[bits.length] (c ^^^ ofBits bits)
  | [], c, _ => by rw [ofBits_nil, BitVec.xor_zero]; rfl
  | bit :: bits, c, h => by
    have hshort : bits.length < w := h
    have hstep : shift poly (c ^^^ bitWord bit) ^^^ ofBits bits = shift poly (c ^^^ ofBits (bit :: bits)) := by
      rw [ofBits_cons, ← BitVec.xor_assoc, shift_xor poly (c ^^^ bitWord bit), shift_shiftLeft poly bits hshort]
    rw [feed_cons, feed_eq_iterate bits _ (Nat.le_of_lt hshort), hstep, List.length_cons, Function.iterate_succ_apply]

theorem ofBits_injective {u v : List Bool} (hlen : u.length = v.length) (hfits : u.length ≤ w)
    (h : (ofBits u : BitVec w) = ofBits v) : u = v := by
  apply List.ext_getElem hlen
  intro i hu hv
  have hbit := congrArg (fun x => x.getLsbD i) h
  simp only [getLsbD_ofBits _ (Nat.lt_of_lt_of_le hu hfits)] at hbit
  simpa [hu, hv] using hbit

variable {poly}

theorem feed_window_injective (hpoly : poly.msb = true) {c : BitVec w} {u v : List Bool} (hlen : u.length = v.length)
    (hfits : u.length ≤ w) (h : feed poly c u = feed poly c v) : u = v := by
  rw [feed_eq_iterate poly u c hfits, feed_eq_iterate poly v c (hlen ▸ hfits), ← hlen] at h
  have hxor := (shift_injective poly hpoly).iterate u.length h
  rw [BitVec.xor_comm c, BitVec.xor_comm c] at hxor
  exact ofBits_injective hlen hfits (xor_right_cancel hxor)

theorem feed_register_injective (hpoly : poly.msb = true) : ∀ {bits : List Bool} {c d : BitVec w},
    feed poly c bits = feed poly d bits → c = d
  | [], _, _, h => h
  | _ :: _, _, _, h => xor_right_cancel (shift_injective poly hpoly (feed_register_injective hpoly h))

/-- **Bursts show.** Inputs that differ only in a window of at most `w` bits leave the
register in different states. -/
theorem feed_burst (hpoly : poly.msb = true) {c : BitVec w} {before u v after : List Bool} (hlen : u.length = v.length)
    (hfits : u.length ≤ w) (h : feed poly c (before ++ (u ++ after)) = feed poly c (before ++ (v ++ after))) : u = v := by
  simp only [feed_append] at h
  exact feed_window_injective hpoly hlen hfits (feed_register_injective hpoly h)

end ShiftRegister
