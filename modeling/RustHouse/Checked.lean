import Mathlib.Tactic.Ring

/-!
# Checked computations

Computations that fail with an error, and 64-bit sizes with the checked and
saturating arithmetic of the machine.
-/

namespace Checked

variable {ε α β : Type}

/-! ## Failure -/

def failIf (c : Prop) [Decidable c] (e : ε) : Except ε Unit := if c then .error e else .ok ()

def okOr (o : Option α) (e : ε) : Except ε α :=
  match o with
  | some a => .ok a
  | none => .error e

@[simp] theorem ok_bind (a : α) (f : α → Except ε β) : (Except.ok a >>= f) = f a := rfl

@[simp] theorem error_bind (e : ε) (f : α → Except ε β) : (Except.error e >>= f) = .error e := rfl

theorem bind_eq_ok {x : Except ε α} {f : α → Except ε β} {b : β} :
    x >>= f = .ok b ↔ ∃ a, x = .ok a ∧ f a = .ok b := by
  cases x <;> simp

@[simp] theorem failIf_eq_ok {c : Prop} [Decidable c] {e : ε} {u : Unit} : failIf c e = .ok u ↔ ¬ c := by
  unfold failIf
  split <;> simp_all

theorem failIf_of_not {c : Prop} [Decidable c] {e : ε} (h : ¬ c) : failIf c e = .ok () := if_neg h

theorem failIf_of {c : Prop} [Decidable c] {e : ε} (h : c) : failIf c e = .error e := if_pos h

@[simp] theorem okOr_some (a : α) (e : ε) : okOr (some a) e = .ok a := rfl

@[simp] theorem okOr_none (e : ε) : okOr (none : Option α) e = .error e := rfl

theorem okOr_eq_ok {o : Option α} {e : ε} {a : α} : okOr o e = .ok a ↔ o = some a := by
  cases o <;> simp

/-! ## Size arithmetic -/

/-- The largest 64-bit size. -/
def usizeMax : Nat := 2 ^ 64 - 1

def checkedAdd (a b : Nat) : Option Nat := if a + b ≤ usizeMax then some (a + b) else none

def checkedMul (a b : Nat) : Option Nat := if a * b ≤ usizeMax then some (a * b) else none

def saturatingAdd (a b : Nat) : Nat := min (a + b) usizeMax

def saturatingMul (a b : Nat) : Nat := min (a * b) usizeMax

theorem checkedAdd_eq_some {a b c : Nat} : checkedAdd a b = some c ↔ a + b ≤ usizeMax ∧ c = a + b := by
  unfold checkedAdd
  split <;> simp_all [eq_comm]

theorem checkedMul_eq_some {a b c : Nat} : checkedMul a b = some c ↔ a * b ≤ usizeMax ∧ c = a * b := by
  unfold checkedMul
  split <;> simp_all [eq_comm]

theorem checkedAdd_of_le {a b : Nat} (h : a + b ≤ usizeMax) : checkedAdd a b = some (a + b) :=
  checkedAdd_eq_some.2 ⟨h, rfl⟩

theorem checkedMul_of_le {a b : Nat} (h : a * b ≤ usizeMax) : checkedMul a b = some (a * b) :=
  checkedMul_eq_some.2 ⟨h, rfl⟩

theorem saturatingAdd_of_le {a b : Nat} (h : a + b ≤ usizeMax) : saturatingAdd a b = a + b :=
  Nat.min_eq_left h

theorem saturatingMul_of_le {a b : Nat} (h : a * b ≤ usizeMax) : saturatingMul a b = a * b :=
  Nat.min_eq_left h

theorem foldl_saturatingAdd (total : Nat) (htotal : total ≤ usizeMax) (lengths : List Nat) :
    lengths.foldl saturatingAdd total = min (total + lengths.sum) usizeMax := by
  induction lengths generalizing total with
  | nil => exact (Nat.min_eq_left htotal).symm
  | cons n lengths ih =>
    rw [List.foldl_cons, ih (saturatingAdd total n) (Nat.min_le_right _ _), List.sum_cons, saturatingAdd]
    omega

theorem foldl_saturatingAdd_zero (lengths : List Nat) : lengths.foldl saturatingAdd 0 = min lengths.sum usizeMax := by
  rw [foldl_saturatingAdd 0 (Nat.zero_le _), Nat.zero_add]

@[simp] theorem saturatingMul_zero_left (b : Nat) : saturatingMul 0 b = 0 := by
  rw [saturatingMul, Nat.zero_mul, Nat.zero_min]

/-! ## Checked sums -/

/-- An exact size, if it is one of the machine. -/
def checked (n : Nat) : Option Nat := if n ≤ usizeMax then some n else none

theorem checkedAdd_eq (a b : Nat) : checkedAdd a b = checked (a + b) := rfl

theorem checked_of_le {n : Nat} (h : n ≤ usizeMax) : checked n = some n := if_pos h

theorem checked_of_lt {n : Nat} (h : usizeMax < n) : checked n = none := if_neg (Nat.not_le.2 h)

/-- A sum that is computed in steps fits if and only if the last step does. -/
theorem checked_bind {a b : Nat} {f : Nat → Option Nat} (hle : a ≤ b) (h : a ≤ usizeMax → f a = checked b) :
    (checked a >>= f) = checked b := by
  by_cases ha : a ≤ usizeMax
  · rw [checked_of_le ha]
    exact h ha
  · rw [checked_of_lt (Nat.not_le.1 ha), checked_of_lt (Nat.lt_of_lt_of_le (Nat.not_le.1 ha) hle)]
    rfl

theorem checked_bind_add (a b : Nat) : (checked a >>= fun n => checkedAdd n b) = checked (a + b) :=
  checked_bind (Nat.le_add_right a b) fun _ => rfl

theorem foldlM_checked {step : Nat → α → Option Nat} {size : α → Nat} {as : List α}
    (h : ∀ a ∈ as, ∀ n ≤ usizeMax, step n a = checked (n + size a)) {n : Nat} (hn : n ≤ usizeMax) :
    as.foldlM step n = checked (n + (as.map size).sum) := by
  induction as generalizing n with
  | nil => exact (checked_of_le hn).symm
  | cons a as ih =>
    obtain ⟨ha, has⟩ := List.forall_mem_cons.1 h
    rw [List.foldlM_cons, ha n hn, List.map_cons, List.sum_cons, ← Nat.add_assoc]
    exact checked_bind (Nat.le_add_right ..) fun hle => ih has hle

/-- A checked size that saturates only when the exact one does not fit. -/
theorem checkedMulAdd_getD (a n w : Nat) (ha : 0 < a) :
    (checkedAdd a ((checkedMul n w).getD usizeMax)).getD usizeMax = min (a + n * w) usizeMax := by
  unfold checkedMul
  split
  · rename_i h
    simp only [Option.getD_some]
    unfold checkedAdd
    split <;> simp <;> omega
  · rename_i h
    simp only [Option.getD_none]
    rw [checkedAdd, if_neg (by omega)]
    simp; omega

end Checked
