import Mathlib.Algebra.GroupWithZero.Nat
import Mathlib.Data.List.Flatten

/-!
# Run lengths

Lists as runs of equal elements. One scan finds the maximal runs of a list,
and no list of runs that expands to it is shorter.
-/

namespace RunLength

variable {α : Type}

/-- The elements of a list of runs. -/
def expand (rs : List (α × Nat)) : List α := rs.flatMap fun r => List.replicate r.2 r.1

@[simp] theorem expand_nil : expand ([] : List (α × Nat)) = [] := rfl

@[simp] theorem expand_cons (r : α × Nat) (rs : List (α × Nat)) :
    expand (r :: rs) = List.replicate r.2 r.1 ++ expand rs := rfl

theorem length_expand : ∀ rs : List (α × Nat), (expand rs).length = (rs.map Prod.snd).sum
  | [] => rfl
  | r :: rs => by
    rw [expand_cons, List.length_append, List.length_replicate, length_expand rs, List.map_cons, List.sum_cons]

variable [DecidableEq α]

/-- The maximal runs of a list that continues a run of `n` copies of `a`. -/
def runsFrom (a : α) (n : Nat) : List α → List (α × Nat)
  | [] => [(a, n)]
  | x :: xs => if x = a then runsFrom a (n + 1) xs else (a, n) :: runsFrom x 1 xs

def runs : List α → List (α × Nat)
  | [] => []
  | a :: xs => runsFrom a 1 xs

theorem expand_runsFrom (a : α) (n : Nat) (xs : List α) : expand (runsFrom a n xs) = List.replicate n a ++ xs := by
  induction xs generalizing a n with
  | nil => simp [runsFrom]
  | cons x xs ih =>
    rw [runsFrom]
    split
    · rename_i h
      rw [ih, h, List.replicate_succ', List.append_assoc]; rfl
    · rw [expand_cons, ih]; rfl

theorem expand_runs : ∀ xs : List α, expand (runs xs) = xs
  | [] => rfl
  | a :: xs => expand_runsFrom a 1 xs

theorem runsFrom_pos (a : α) (n : Nat) (xs : List α) (hn : 0 < n) : ∀ r ∈ runsFrom a n xs, 0 < r.2 := by
  induction xs generalizing a n with
  | nil => intro r hr; rw [List.mem_singleton.1 hr]; exact hn
  | cons x xs ih =>
    rw [runsFrom]
    split
    · exact ih a (n + 1) (Nat.succ_pos n)
    · intro r hr
      rcases List.mem_cons.1 hr with rfl | hr
      · exact hn
      · exact ih x 1 Nat.one_pos r hr

theorem runs_pos : ∀ (xs : List α), ∀ r ∈ runs xs, 0 < r.2
  | [], _, h => nomatch h
  | a :: xs, r, h => runsFrom_pos a 1 xs Nat.one_pos r h

/-! ## Fewest runs -/

theorem length_runsFrom (a : α) (m n : Nat) (xs : List α) : (runsFrom a m xs).length = (runsFrom a n xs).length := by
  induction xs generalizing m n with
  | nil => rfl
  | cons x xs ih =>
    rw [runsFrom, runsFrom]
    split
    · exact ih _ _
    · rfl

theorem runsFrom_replicate (a : α) (n m : Nat) (xs : List α) :
    runsFrom a n (List.replicate m a ++ xs) = runsFrom a (n + m) xs := by
  induction m generalizing n with
  | zero => rfl
  | succ m ih => rw [List.replicate_succ, List.cons_append, runsFrom, if_pos rfl, ih, Nat.add_assoc, Nat.add_comm 1 m]

theorem length_runsFrom_le (a : α) (n : Nat) (xs : List α) : (runsFrom a n xs).length ≤ (runs xs).length + 1 := by
  cases xs with
  | nil => exact Nat.le_refl _
  | cons x xs =>
    rw [runsFrom, runs]
    split
    · rename_i h
      subst h
      rw [length_runsFrom x (n + 1) 1]; exact Nat.le_succ _
    · exact Nat.le_refl _

/-- **Maximal runs are fewest.** -/
theorem length_runs_expand_le : ∀ rs : List (α × Nat), (runs (expand rs)).length ≤ rs.length
  | [] => Nat.le_refl _
  | (a, 0) :: rs => Nat.le_trans (length_runs_expand_le rs) (Nat.le_succ _)
  | (a, n + 1) :: rs => by
    rw [expand_cons, List.replicate_succ, List.cons_append, runs, runsFrom_replicate]
    exact Nat.le_trans (length_runsFrom_le _ _ _) (Nat.succ_le_succ (length_runs_expand_le rs))

end RunLength
