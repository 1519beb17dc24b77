import Mathlib.Data.List.Sort
import Mathlib.Data.List.Induction

/-!
# A heap of the smallest

A max-heap that never holds more than a fixed number of elements: once it is full,
a smaller element takes the place of the greatest. What it holds after a list has
gone through it is where the sorted list begins.
-/

namespace BoundedHeap

variable {α : Type} [LinearOrder α]

/-- A new element, in a heap listed from its smallest to its greatest. -/
def push (heap : List α) (a : α) : List α := heap.orderedInsert (· ≤ ·) a

def retain (capacity : Nat) (heap : List α) (candidate : α) : List α :=
  if heap.length < capacity then push heap candidate
  else
    match heap.getLast? with
    | some worst => if candidate < worst then push heap.dropLast candidate else heap
    | none => heap

def smallest (capacity : Nat) (as : List α) : List α := as.foldl (retain capacity) []

/-! ## Insertion into a sorted list -/

theorem take_push (capacity : Nat) (heap : List α) (a : α) :
    (push (heap.take capacity) a).take capacity = (push heap a).take capacity := by
  induction heap generalizing capacity with
  | nil => simp
  | cons b heap ih =>
    cases capacity with
    | zero => simp
    | succ capacity =>
      simp only [push, List.take_succ_cons, List.orderedInsert_cons]
      by_cases hab : a ≤ b
      · simp only [hab, if_true, List.take_succ_cons]
        cases capacity with
        | zero => rfl
        | succ capacity => simp [List.take_take]
      · simp only [hab, if_false, List.take_succ_cons]
        exact congrArg _ (ih capacity)

theorem push_concat_of_le {heap : List α} {a worst : α} (h : a ≤ worst) :
    push (heap ++ [worst]) a = push heap a ++ [worst] := by
  induction heap with
  | nil => simp [push, h]
  | cons b heap ih =>
    simp only [push, List.cons_append, List.orderedInsert_cons]
    by_cases hab : a ≤ b
    · simp only [hab, if_true, List.cons_append]
    · simp only [hab, if_false, List.cons_append]
      exact congrArg _ ih

theorem push_of_greatest {heap : List α} {a : α} (hsorted : heap.Pairwise (· ≤ ·)) (h : ∀ b ∈ heap, b ≤ a) :
    push heap a = heap ++ [a] := by
  have hconcat : (heap ++ [a]).Pairwise (· ≤ ·) :=
    List.pairwise_append.2 ⟨hsorted, List.pairwise_singleton _ _, by simpa using h⟩
  apply List.Perm.eq_of_sortedLE
  · exact (hsorted.orderedInsert a _).sortedLE
  · exact hconcat.sortedLE
  · exact (List.perm_orderedInsert _ _ _).trans (List.perm_append_singleton _ _).symm

theorem length_push (heap : List α) (a : α) : (push heap a).length = heap.length + 1 := List.orderedInsert_length ..

/-! ## What the heap holds -/

theorem retain_eq {capacity : Nat} {heap : List α} (hsorted : heap.Pairwise (· ≤ ·)) (hlength : heap.length ≤ capacity)
    (candidate : α) : retain capacity heap candidate = (push heap candidate).take capacity := by
  unfold retain
  by_cases hroom : heap.length < capacity
  · rw [if_pos hroom, List.take_of_length_le (by rw [length_push]; omega)]
  rw [if_neg hroom]
  obtain rfl : capacity = heap.length := by omega
  obtain rfl | ⟨init, worst, rfl⟩ := heap.eq_nil_or_concat'
  · simp
  simp only [List.getLast?_concat, List.dropLast_concat]
  by_cases hbetter : candidate < worst
  · rw [if_pos hbetter, push_concat_of_le hbetter.le, List.take_append_of_le_length (by simp [length_push]),
      List.take_of_length_le (by simp [length_push])]
  · have hgreatest : ∀ b ∈ init ++ [worst], b ≤ candidate := by
      intro b hb
      obtain hb | hb := List.mem_append.1 hb
      · exact le_trans ((List.pairwise_append.1 hsorted).2.2 b hb worst (List.mem_singleton_self _)) (not_lt.1 hbetter)
      · rw [List.mem_singleton.1 hb]
        exact not_lt.1 hbetter
    rw [if_neg hbetter, push_of_greatest hsorted hgreatest, List.take_left]

theorem insertionSort_concat (as : List α) (a : α) :
    (as ++ [a]).insertionSort (· ≤ ·) = push (as.insertionSort (· ≤ ·)) a := by
  apply List.Perm.eq_of_sortedLE
  · exact List.sortedLE_insertionSort
  · exact (List.Pairwise.orderedInsert a _ (List.pairwise_insertionSort _ as)).sortedLE
  · have hpush := (List.perm_orderedInsert (· ≤ ·) a (as.insertionSort (· ≤ ·))).trans
      ((List.perm_insertionSort (· ≤ ·) as).cons a)
    exact ((List.perm_insertionSort _ _).trans (List.perm_append_singleton _ _)).trans hpush.symm

/-- **The smallest.** A bounded heap ends with the beginning of the sorted list. -/
theorem smallest_eq (capacity : Nat) (as : List α) :
    smallest capacity as = (as.insertionSort (· ≤ ·)).take capacity := by
  unfold smallest
  induction as using List.reverseRec with
  | nil => simp
  | append_singleton as a ih =>
    have hsorted := (List.pairwise_insertionSort (· ≤ ·) as).sublist (List.take_sublist capacity _)
    rw [List.foldl_append, List.foldl_cons, List.foldl_nil, ih,
      retain_eq hsorted (by rw [List.length_take]; exact min_le_left ..), take_push, insertionSort_concat]

end BoundedHeap
