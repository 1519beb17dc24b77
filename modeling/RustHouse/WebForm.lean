import Mathlib.Data.List.Basic

/-!
# The encoding of web forms

Each byte of a text is written as it is or as two hexadecimal digits behind a
percent sign; a space may be written as a plus sign. One text has many
encodings, an encoding belongs to one text.
-/

namespace WebForm

abbrev percent : UInt8 := 0x25

abbrev plus : UInt8 := 0x2B

abbrev space : UInt8 := 0x20

/-- In either case. -/
def HexDigit (value : Nat) (b : UInt8) : Prop :=
  value < 10 ∧ b.toNat = 0x30 + value ∨
    10 ≤ value ∧ value < 16 ∧ (b.toNat = 0x61 + (value - 10) ∨ b.toNat = 0x41 + (value - 10))

/-- The ways to write one byte. -/
inductive EncodesByte (b : UInt8) : List UInt8 → Prop where
  | raw (hpercent : b ≠ percent) (hplus : b ≠ plus) : EncodesByte b [b]
  | plus (hb : b = space) : EncodesByte b [plus]
  | escape {high low : UInt8} {h l : Nat} (hhigh : HexDigit h high) (hlow : HexDigit l low)
      (hb : b.toNat = 16 * h + l) : EncodesByte b [percent, high, low]

inductive Encodes : List UInt8 → List UInt8 → Prop where
  | nil : Encodes [] []
  | cons {b : UInt8} {written bytes encoded : List UInt8} (hb : EncodesByte b written) (h : Encodes bytes encoded) :
      Encodes (b :: bytes) (written ++ encoded)

/-! ## Digits -/

section
variable {v w : Nat} {b : UInt8}

theorem HexDigit.lt (h : HexDigit v b) : v < 16 := by
  rcases h with ⟨hv, _⟩ | ⟨_, hv, _⟩ <;> omega

theorem HexDigit.unique (h : HexDigit v b) (h' : HexDigit w b) : v = w := by
  unfold HexDigit at h h'
  omega

/-- Digits lie above the signs that stand between and before them. -/
theorem HexDigit.bounds (h : HexDigit v b) : 0x30 ≤ b.toNat ∧ b.toNat ≠ 0x3D := by
  unfold HexDigit at h
  omega

theorem HexDigit.ne_percent (h : HexDigit v b) : b ≠ percent := by
  intro hb
  have hbounds := h.bounds.1
  rw [hb] at hbounds
  exact absurd hbounds (by decide)

end

/-! ## Encodings -/

section
variable {bytes encoded before after : List UInt8}

theorem EncodesByte.length_pos {b : UInt8} {written : List UInt8} (h : EncodesByte b written) :
    0 < written.length := by
  cases h with
  | _ => exact Nat.succ_pos _

theorem Encodes.eq_nil_iff (h : Encodes bytes encoded) : encoded = [] ↔ bytes = [] := by
  cases h with
  | nil => exact Iff.rfl
  | cons hb _ =>
    refine ⟨fun h => absurd (List.append_eq_nil_iff.1 h).1 ?_, fun h => by cases h⟩
    exact List.ne_nil_of_length_pos hb.length_pos

/-- A byte that no escape and no space is written with comes from the text. -/
theorem Encodes.mem {b : UInt8} (h : Encodes bytes encoded) (hb : b ∈ encoded) (hpercent : b ≠ percent)
    (hplus : b ≠ plus) (hdigit : ∀ v, ¬ HexDigit v b) : b ∈ bytes := by
  induction h with
  | nil => exact hb
  | cons hbyte _ ih =>
    rw [List.mem_append] at hb
    rcases hb with hb | hb
    · cases hbyte with
      | raw _ _ =>
        rw [List.mem_singleton] at hb
        exact hb ▸ List.mem_cons_self
      | plus _ => exact absurd (List.mem_singleton.1 hb) hplus
      | escape hhigh hlow _ =>
        simp only [List.mem_cons, List.not_mem_nil, or_false] at hb
        rcases hb with rfl | rfl | rfl
        · exact absurd rfl hpercent
        · exact absurd hhigh (hdigit _)
        · exact absurd hlow (hdigit _)
    · exact List.mem_cons_of_mem _ (ih hb)

theorem Encodes.escape (h : Encodes bytes encoded) (he : encoded = before ++ percent :: after) :
    ∃ high low rest, after = high :: low :: rest ∧ (∃ v, HexDigit v high) ∧ ∃ v, HexDigit v low := by
  induction h generalizing before with
  | nil => exact absurd he.symm (List.append_ne_nil_of_right_ne_nil _ (List.cons_ne_nil _ _))
  | cons hbyte _ ih =>
    cases hbyte with
    | raw hpercent _ =>
      cases before with
      | nil => exact absurd (List.cons.inj he).1 hpercent
      | cons _ before => exact ih (List.cons.inj he).2
    | plus _ =>
      cases before with
      | nil => exact absurd (List.cons.inj he).1 (by decide)
      | cons _ before => exact ih (List.cons.inj he).2
    | escape hhigh hlow _ =>
      match before, he with
      | [], he => exact ⟨_, _, _, (List.cons.inj he).2.symm, ⟨_, hhigh⟩, _, hlow⟩
      | [_], he => exact absurd (List.cons.inj (List.cons.inj he).2).1 hhigh.ne_percent
      | [_, _], he => exact absurd (List.cons.inj (List.cons.inj (List.cons.inj he).2).2).1 hlow.ne_percent
      | _ :: _ :: _ :: before, he => exact ih (List.cons.inj (List.cons.inj (List.cons.inj he).2).2).2

end

end WebForm
