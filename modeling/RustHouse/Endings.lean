import RustHouse.OrderedReduction

/-!
# How a computation ends

A triple for computations that may panic: the value that is returned has a
property, an error has an excuse, and there is no panic. Its rules follow the
computation, and the rule for a pass carries an invariant of what was taken in.
-/

namespace Exec

variable {ε α β : Type}

/-- A computation ends with a value that is right, or with an error that has an excuse. -/
def Ends (x : Exec ε α) (right : α → Prop) (excuse : ε → Prop) : Prop :=
  match x with
  | .ok a => right a
  | .error e => excuse e
  | .panic => False

variable {x : Exec ε α} {P Q : α → Prop} {R : β → Prop} {E E' : ε → Prop}

@[simp] theorem ends_ok {a : α} : (Exec.ok a : Exec ε α).Ends P E ↔ P a := Iff.rfl

@[simp] theorem ends_error {e : ε} : (Exec.error e : Exec ε α).Ends P E ↔ E e := Iff.rfl

namespace Ends

theorem ne_panic (h : x.Ends P E) : x ≠ .panic := by
  intro heq
  rw [heq] at h
  exact h

theorem of_ok (h : x.Ends P E) {a : α} (ha : x = .ok a) : P a := by
  rw [ha] at h
  exact h

theorem mono (h : x.Ends P E) (hright : ∀ a, P a → Q a) (hexcuse : ∀ e, E e → E' e) : x.Ends Q E' := by
  cases x with
  | ok a => exact hright a h
  | error e => exact hexcuse e h
  | panic => exact h

theorem imp (h : x.Ends P E) (hright : ∀ a, P a → Q a) : x.Ends Q E := h.mono hright fun _ he => he

theorem bind (h : x.Ends P E) {f : α → Exec ε β} (hf : ∀ a, P a → (f a).Ends R E) : (x >>= f).Ends R E := by
  cases x with
  | ok a => exact hf a h
  | error e => exact h
  | panic => exact h

theorem ite {c : Prop} [Decidable c] {y : Exec ε α} (hx : x.Ends P E) (hy : y.Ends P E) :
    (if c then x else y).Ends P E := by
  split
  · exact hx
  · exact hy

theorem orPanic {o : Option α} {a : α} (ho : o = some a) (h : P a) : (Exec.orPanic o : Exec ε α).Ends P E := by
  rw [ho]
  exact h

theorem rejectIf {c : Prop} [Decidable c] {e : ε} (hexcuse : c → E e) : (Exec.rejectIf c e).Ends (fun _ => ¬ c) E := by
  unfold Exec.rejectIf
  split
  · rename_i hc
    exact hexcuse hc
  · assumption

theorem reject {c : Prop} [Decidable c] {e : ε} (hexcuse : E e) : (Exec.rejectIf c e).Ends (fun _ => ¬ c) E :=
  .rejectIf fun _ => hexcuse

theorem getOr {o : Option α} {e : ε} (hexcuse : E e) : (Exec.getOr o e).Ends (fun a => o = some a) E := by
  cases o with
  | none => exact hexcuse
  | some a => rfl

/-- A pass keeps an invariant of the elements that it has taken in. -/
theorem scanFrom {σ : Type} {step : σ → α → Exec ε σ} {I : List α → σ → Prop} {as : List α}
    (hstep : ∀ before a s, before ++ [a] <+: as → I before s → (step s a).Ends (I (before ++ [a])) E)
    {s : σ} (h : I [] s) : (OrderedReduction.scanFrom step s as).Ends (I as) E := by
  induction as using List.reverseRecOn with
  | nil => exact h
  | append_singleton as a ih =>
    rw [OrderedReduction.scanFrom_append]
    have hbefore : (OrderedReduction.scanFrom step s as).Ends (I as) E := by
      apply ih
      intro before a' s hbegins
      exact hstep before a' s (hbegins.trans (List.prefix_append _ _))
    refine hbefore.bind fun s hs => ?_
    refine (hstep as a s (List.prefix_refl _) hs).bind fun s hs => ?_
    exact hs

end Ends

def ComesTo (x outcome : Exec ε α) (excuse : ε → Prop) : Prop := x = outcome ∨ ∃ e, x = .error e ∧ excuse e

namespace ComesTo

variable {outcome : Exec ε α}

theorem refl : x.ComesTo x E := .inl rfl

theorem of_ends {f : α → Exec ε β} {outcome : Exec ε β} (h : x.Ends P E) (hf : ∀ a, P a → (f a).ComesTo outcome E) :
    (x >>= f).ComesTo outcome E := by
  cases x with
  | ok a => exact hf a h
  | error e => exact .inr ⟨e, rfl, h⟩
  | panic => exact h.elim

theorem bind {f : α → Exec ε β} {g : α → Exec ε β} (h : x.ComesTo outcome E)
    (hf : ∀ a, outcome = .ok a → (f a).ComesTo (g a) E) : (x >>= f).ComesTo (outcome >>= g) E := by
  rcases h with rfl | h
  · cases x with
    | ok a => exact hf a rfl
    | error e => exact refl
    | panic => exact refl
  · obtain ⟨e, rfl, he⟩ := h
    exact .inr ⟨e, rfl, he⟩

theorem eq (h : x.ComesTo outcome E) (hexcuse : ∀ e, ¬ E e) : x = outcome := by
  rcases h with h | h
  · exact h
  · obtain ⟨e, _, he⟩ := h
    exact absurd he (hexcuse e)

theorem ne_panic (h : x.ComesTo outcome E) (houtcome : outcome ≠ .panic) : x ≠ .panic := by
  rcases h with rfl | h
  · exact houtcome
  · obtain ⟨e, rfl, _⟩ := h
    exact error_ne_panic e

theorem of_ok (h : x.ComesTo outcome E) {a : α} (ha : x = .ok a) : outcome = .ok a := by
  rcases h with rfl | h
  · exact ha
  · obtain ⟨e, rfl, _⟩ := h
    cases ha

end ComesTo

end Exec
