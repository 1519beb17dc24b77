import Mathlib.Algebra.BigOperators.Group.List.Basic
import Mathlib.Algebra.Order.BigOperators.Group.List
import RustHouse.Checked
import RustHouse.Transition

/-!
# The budget of aggregate helpers

All queries of a process share one counter of helper threads. An attempt to
acquire helpers is a load and then exchanges that can fail and be tried again;
a permit gives its helpers back when it is dropped. The atomic steps of any
number of queries interleave.
-/

namespace RustHouse.Batch

open Checked

structure GlobalAggregateWorkerBudget where
  helperLimit : Nat
  helpersInUse : Nat
  deriving DecidableEq

def GlobalAggregateWorkerBudget.new (helperLimit : Nat) : GlobalAggregateWorkerBudget := ⟨helperLimit, 0⟩

/-- A call of `try_acquire` behind its first load: what it asks for, and the value that it has read. -/
structure AcquireAttempt where
  requested : Nat
  inUse : Nat
  deriving DecidableEq

/-- How many helpers an attempt would be granted. -/
def AcquireAttempt.acquired (attempt : AcquireAttempt) (budget : GlobalAggregateWorkerBudget) : Nat :=
  min attempt.requested (budget.helperLimit - attempt.inUse)

/-- `compare_exchange_weak`: the new value, or the one that is there; it can fail for no reason. -/
def compareExchangeWeak (cell current new : Nat) (spurious : Bool) : Except Nat Nat :=
  if cell = current ∧ ¬ spurious then .ok new else .error cell

/-- `fetch_sub`, which wraps around. -/
def fetchSub (cell amount : Nat) : Nat := if amount ≤ cell then cell - amount else cell + 2 ^ 64 - amount

def AcquireAttempt.exchange (attempt : AcquireAttempt) (budget : GlobalAggregateWorkerBudget) (spurious : Bool) :
    Except Nat Nat :=
  compareExchangeWeak budget.helpersInUse attempt.inUse (saturatingAdd attempt.inUse (attempt.acquired budget)) spurious

/-- The shared budget, the attempts under way and the helpers of each outstanding permit. -/
structure BudgetState where
  budget : GlobalAggregateWorkerBudget
  attempts : List AcquireAttempt
  permits : List Nat
  deriving DecidableEq

namespace BudgetState

def start (helperLimit : Nat) : BudgetState := ⟨.new helperLimit, [], []⟩

inductive Step : BudgetState → BudgetState → Prop
  /-- A query starts an attempt. -/
  | load (s : BudgetState) (requested : Nat) :
      Step s { s with attempts := ⟨requested, s.budget.helpersInUse⟩ :: s.attempts }
  /-- No helper is left for an attempt. -/
  | refuse (budget : GlobalAggregateWorkerBudget) (before after : List AcquireAttempt) (attempt : AcquireAttempt)
      (permits : List Nat) :
      attempt.acquired budget = 0 →
      Step ⟨budget, before ++ attempt :: after, permits⟩ ⟨budget, before ++ after, permits⟩
  | grant (budget : GlobalAggregateWorkerBudget) (before after : List AcquireAttempt) (attempt : AcquireAttempt)
      (permits : List Nat) (next : Nat) (spurious : Bool) :
      attempt.acquired budget ≠ 0 → attempt.exchange budget spurious = .ok next →
      Step ⟨budget, before ++ attempt :: after, permits⟩
        ⟨{ budget with helpersInUse := next }, before ++ after, attempt.acquired budget :: permits⟩
  | retry (budget : GlobalAggregateWorkerBudget) (before after : List AcquireAttempt) (attempt : AcquireAttempt)
      (permits : List Nat) (actual : Nat) (spurious : Bool) :
      attempt.acquired budget ≠ 0 → attempt.exchange budget spurious = .error actual →
      Step ⟨budget, before ++ attempt :: after, permits⟩
        ⟨budget, before ++ { attempt with inUse := actual } :: after, permits⟩
  | drop (budget : GlobalAggregateWorkerBudget) (attempts : List AcquireAttempt) (before after : List Nat)
      (helperThreads : Nat) :
      Step ⟨budget, attempts, before ++ helperThreads :: after⟩
        ⟨{ budget with helpersInUse := fetchSub budget.helpersInUse helperThreads }, attempts, before ++ after⟩

def Reachable (helperLimit : Nat) : BudgetState → Prop := Transition.Reachable (· = start helperLimit) Step

/-- The counter is what the permits hold, within the limit. -/
structure Inv (helperLimit : Nat) (s : BudgetState) : Prop where
  limit : s.budget.helperLimit = helperLimit
  held : s.budget.helpersInUse = s.permits.sum
  within : s.budget.helpersInUse ≤ helperLimit
  granted : ∀ helperThreads ∈ s.permits, 0 < helperThreads

theorem exchange_eq_ok {attempt : AcquireAttempt} {budget : GlobalAggregateWorkerBudget} {spurious : Bool} {next : Nat}
    (h : attempt.exchange budget spurious = .ok next) :
    attempt.inUse = budget.helpersInUse ∧ next = saturatingAdd attempt.inUse (attempt.acquired budget) := by
  unfold AcquireAttempt.exchange compareExchangeWeak at h
  split at h
  · rename_i hcell
    exact ⟨hcell.1.symm, (Except.ok.inj h).symm⟩
  · cases h

theorem Inv.step {helperLimit : Nat} (fits : helperLimit ≤ usizeMax) {s s' : BudgetState} (h : Inv helperLimit s)
    (hstep : Step s s') : Inv helperLimit s' := by
  cases hstep with
  | load requested => exact ⟨h.limit, h.held, h.within, h.granted⟩
  | refuse => exact ⟨h.limit, h.held, h.within, h.granted⟩
  | retry => exact ⟨h.limit, h.held, h.within, h.granted⟩
  | grant budget before after attempt permits next spurious hsome hexchange =>
    obtain ⟨hfresh, rfl⟩ := exchange_eq_ok hexchange
    have hlimit : budget.helperLimit = helperLimit := h.limit
    have hheld : budget.helpersInUse = permits.sum := h.held
    -- The exchange succeeded, so the value that the grant was computed from is the current one.
    have hacquired : attempt.acquired budget ≤ helperLimit - budget.helpersInUse := by
      rw [AcquireAttempt.acquired, hfresh, hlimit]
      exact Nat.min_le_right _ _
    have hwithin : budget.helpersInUse ≤ helperLimit := h.within
    have hnext : saturatingAdd attempt.inUse (attempt.acquired budget) =
        budget.helpersInUse + attempt.acquired budget := by
      rw [hfresh]
      exact saturatingAdd_of_le (by omega)
    refine ⟨h.limit, ?_, ?_, List.forall_mem_cons.2 ⟨Nat.pos_of_ne_zero hsome, h.granted⟩⟩
    · show saturatingAdd _ _ = (attempt.acquired budget :: permits).sum
      rw [hnext, List.sum_cons, hheld, Nat.add_comm]
    · show saturatingAdd _ _ ≤ helperLimit
      omega
  | drop budget attempts before after helperThreads =>
    have hheld : budget.helpersInUse = (before ++ helperThreads :: after).sum := h.held
    have hwithin : budget.helpersInUse ≤ helperLimit := h.within
    rw [List.sum_append, List.sum_cons] at hheld
    have hfetch : fetchSub budget.helpersInUse helperThreads = (before ++ after).sum := by
      rw [fetchSub, if_pos (by omega), List.sum_append]
      omega
    refine ⟨h.limit, hfetch, ?_, fun permit hpermit => h.granted permit ?_⟩
    · show fetchSub _ _ ≤ helperLimit
      rw [hfetch, List.sum_append]
      omega
    · obtain hmem | hmem := List.mem_append.1 hpermit
      · exact List.mem_append_left _ hmem
      · exact List.mem_append_right _ (List.mem_cons_of_mem _ hmem)

theorem Reachable.inv {helperLimit : Nat} (fits : helperLimit ≤ usizeMax) {s : BudgetState}
    (h : Reachable helperLimit s) : Inv helperLimit s :=
  Transition.Reachable.invariant (fun _ hs => hs ▸ ⟨rfl, rfl, Nat.zero_le _, List.forall_mem_nil _⟩)
    (fun _ _ hinv hstep => hinv.step fits hstep) h

/-- **The worker budget.** Whatever the queries do, in whatever order: the helpers in use are those of the outstanding
permits, they stay within the limit, and each permit holds some that can be given back without an underflow. -/
theorem worker_budget {helperLimit : Nat} (fits : helperLimit ≤ usizeMax) {s : BudgetState}
    (h : Reachable helperLimit s) :
    s.budget.helpersInUse = s.permits.sum ∧ s.budget.helpersInUse ≤ helperLimit ∧
      (∀ helperThreads ∈ s.permits, 0 < helperThreads ∧ helperThreads ≤ s.budget.helpersInUse) ∧
      (s.permits = [] → s.budget.helpersInUse = 0) := by
  have hinv := h.inv fits
  refine ⟨hinv.held, hinv.within, fun helperThreads hmem => ⟨hinv.granted _ hmem, ?_⟩, fun hnone => ?_⟩
  · rw [hinv.held]
    exact List.single_le_sum (fun _ _ => Nat.zero_le _) _ hmem
  · rw [hinv.held, hnone, List.sum_nil]

/-- Two attempts read the same value; the second one to exchange it has to try again, and gets what is left. -/
theorem sample_reachable : Reachable 3 ⟨⟨3, 3⟩, [], [1, 2]⟩ := by
  have hload : Reachable 3 ⟨⟨3, 0⟩, [⟨2, 0⟩, ⟨2, 0⟩], []⟩ := .next (.next (.start rfl) (.load (start 3) 2)) (.load _ 2)
  have hgrant : Reachable 3 ⟨⟨3, 2⟩, [⟨2, 0⟩], [2]⟩ :=
    .next hload (.grant ⟨3, 0⟩ [⟨2, 0⟩] [] ⟨2, 0⟩ [] 2 false (by decide) rfl)
  have hretry : Reachable 3 ⟨⟨3, 2⟩, [⟨2, 2⟩], [2]⟩ :=
    .next hgrant (.retry ⟨3, 2⟩ [] [] ⟨2, 0⟩ [2] 2 false (by decide) rfl)
  exact .next hretry (.grant ⟨3, 2⟩ [] [] ⟨2, 2⟩ [2] 3 false (by decide) rfl)

theorem worker_budget_sample : Reachable 3 ⟨⟨3, 3⟩, [], [1, 2]⟩ ∧ [1, 2].sum = 3 :=
  ⟨sample_reachable, ((worker_budget (by decide) sample_reachable).1).symm⟩

end BudgetState

end RustHouse.Batch
