/-!
# Transition systems

The states that steps lead to from an initial one, and the rule for what holds
of all of them.
-/

namespace Transition

variable {σ : Type}

inductive Reachable (init : σ → Prop) (step : σ → σ → Prop) : σ → Prop
  | start {s : σ} : init s → Reachable init step s
  | next {s s' : σ} : Reachable init step s → step s s' → Reachable init step s'

/-- What holds at the start and is kept by every step holds throughout. -/
theorem Reachable.invariant {init : σ → Prop} {step : σ → σ → Prop} {Inv : σ → Prop} (start : ∀ s, init s → Inv s)
    (next : ∀ s s', Inv s → step s s' → Inv s') {s : σ} (h : Reachable init step s) : Inv s := by
  induction h with
  | start h => exact start _ h
  | next _ h ih => exact next _ _ ih h

end Transition
