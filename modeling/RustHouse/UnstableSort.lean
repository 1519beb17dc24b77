import Mathlib.Data.List.Sort
import Mathlib.Order.Compare

/-!
# Sorting without stability

What sorts that are not stable promise. Where no two elements are equal, the promise
leaves one result, and a list may be cut to its first elements before it is sorted.
-/

namespace UnstableSort

variable {α : Type}

structure Orders (compare : α → α → Ordering) (l : List α) : Prop where
  swap : ∀ a ∈ l, ∀ b ∈ l, compare a b = (compare b a).swap
  trans : ∀ a ∈ l, ∀ b ∈ l, ∀ c ∈ l, (compare a b).isLE → (compare b c).isLE → (compare a c).isLE

/-- No two elements are equal. -/
def Strict (compare : α → α → Ordering) (l : List α) : Prop := ∀ a ∈ l, ∀ b ∈ l, compare a b = .eq → a = b

def Sorted (compare : α → α → Ordering) (l : List α) : Prop := l.Pairwise fun a b => (compare a b).isLE

end UnstableSort

/-- `sort_unstable_by` and `select_nth_unstable_by`, with what they promise. -/
structure UnstableSort where
  sort : {α : Type} → (α → α → Ordering) → List α → List α
  selectNth : {α : Type} → (α → α → Ordering) → Nat → List α → List α
  sort_perm : ∀ {α : Type} {compare : α → α → Ordering} {l : List α},
    UnstableSort.Orders compare l → (sort compare l).Perm l
  sort_sorted : ∀ {α : Type} {compare : α → α → Ordering} {l : List α},
    UnstableSort.Orders compare l → UnstableSort.Sorted compare (sort compare l)
  selectNth_perm : ∀ {α : Type} {compare : α → α → Ordering} {n : Nat} {l : List α},
    UnstableSort.Orders compare l → n < l.length → (selectNth compare n l).Perm l
  /-- What is in front of the selected element is not behind it in the order. -/
  selectNth_split : ∀ {α : Type} {compare : α → α → Ordering} {n : Nat} {l : List α},
    UnstableSort.Orders compare l → n < l.length →
      ∀ a ∈ (selectNth compare n l).take n, ∀ b ∈ (selectNth compare n l).drop n, (compare a b).isLE

namespace UnstableSort

variable {α : Type} {compare : α → α → Ordering} {l l' : List α}

theorem Orders.subset (h : Orders compare l) (hsub : l' ⊆ l) : Orders compare l' where
  swap a ha b hb := h.swap a (hsub ha) b (hsub hb)
  trans a ha b hb c hc := h.trans a (hsub ha) b (hsub hb) c (hsub hc)

theorem Strict.subset (h : Strict compare l) (hsub : l' ⊆ l) : Strict compare l' :=
  fun a ha b hb => h a (hsub ha) b (hsub hb)

theorem Orders.congr {compare' : α → α → Ordering} (h : Orders compare l)
    (heq : ∀ a ∈ l, ∀ b ∈ l, compare' a b = compare a b) : Orders compare' l := by
  constructor
  · intro a ha b hb
    rw [heq a ha b hb, heq b hb a ha]
    exact h.swap a ha b hb
  · intro a ha b hb c hc
    rw [heq a ha b hb, heq b hb c hc, heq a ha c hc]
    exact h.trans a ha b hb c hc

theorem Strict.congr {compare' : α → α → Ordering} (h : Strict compare l)
    (heq : ∀ a ∈ l, ∀ b ∈ l, compare' a b = compare a b) : Strict compare' l := by
  intro a ha b hb hcompare
  rw [heq a ha b hb] at hcompare
  exact h a ha b hb hcompare

theorem Strict.antisymm (h : Orders compare l) (hstrict : Strict compare l) {a b : α} (ha : a ∈ l) (hb : b ∈ l)
    (hab : (compare a b).isLE) (hba : (compare b a).isLE) : a = b := by
  apply hstrict a ha b hb
  have hswap := h.swap a ha b hb
  cases hcompare : compare b a with
  | eq => rw [hswap, hcompare]; rfl
  | lt => rw [hswap, hcompare] at hab; cases hab
  | gt => rw [hcompare] at hba; cases hba

theorem eq_of_sorted (h : Orders compare l) (hstrict : Strict compare l) {s s' : List α} (hs : s.Perm l) (hs' : s'.Perm l)
    (hsorted : Sorted compare s) (hsorted' : Sorted compare s') : s = s' := by
  apply List.Perm.eq_of_pairwise _ hsorted hsorted' (hs.trans hs'.symm)
  intro a b ha hb hab hba
  exact hstrict.antisymm h (hs.subset ha) (hs'.subset hb) hab hba

section
variable (sorts : UnstableSort)

theorem sort_eq (h : Orders compare l) (hstrict : Strict compare l) {s : List α} (hs : s.Perm l)
    (hsorted : Sorted compare s) : sorts.sort compare l = s :=
  eq_of_sorted h hstrict (sorts.sort_perm h) hs (sorts.sort_sorted h) hsorted

theorem sort_congr (h : Orders compare l) (hstrict : Strict compare l) {compare' : α → α → Ordering}
    (heq : ∀ a ∈ l, ∀ b ∈ l, compare' a b = compare a b) : sorts.sort compare' l = sorts.sort compare l := by
  have horders : Orders compare' l := h.congr heq
  have hperm := sorts.sort_perm horders
  refine (sorts.sort_eq h hstrict hperm ?_).symm
  apply (sorts.sort_sorted horders).imp_of_mem
  intro a b ha hb hle
  rwa [heq a (hperm.subset ha) b (hperm.subset hb)] at hle

/-- **The first elements.** Cutting a list at a selected element and sorting what is left is sorting and cutting. -/
theorem sort_take_selectNth (h : Orders compare l) (hstrict : Strict compare l) {n : Nat} (hn : n < l.length) :
    sorts.sort compare ((sorts.selectNth compare n l).take n) = (sorts.sort compare l).take n := by
  have hperm := sorts.selectNth_perm h hn
  have hsplit := sorts.selectNth_split h hn
  generalize sorts.selectNth compare n l = selected at hperm hsplit ⊢
  have hfirst : Orders compare (selected.take n) := h.subset fun a ha => hperm.subset (List.mem_of_mem_take ha)
  have hrest : Orders compare (selected.drop n) := h.subset fun a ha => hperm.subset (List.mem_of_mem_drop ha)
  have hlength : (sorts.sort compare (selected.take n)).length = n := by
    rw [(sorts.sort_perm hfirst).length_eq, List.length_take, hperm.length_eq]
    omega
  -- Both parts, each in order, are the sorted list.
  have hwhole : sorts.sort compare l = sorts.sort compare (selected.take n) ++ sorts.sort compare (selected.drop n) := by
    apply sorts.sort_eq h hstrict
    · refine ((sorts.sort_perm hfirst).append (sorts.sort_perm hrest)).trans ?_
      rwa [List.take_append_drop]
    · apply List.pairwise_append.2
      refine ⟨sorts.sort_sorted hfirst, sorts.sort_sorted hrest, ?_⟩
      intro a ha b hb
      exact hsplit a ((sorts.sort_perm hfirst).subset ha) b ((sorts.sort_perm hrest).subset hb)
  rw [hwhole, List.take_left' hlength]

end

/-! ## Orders on a whole type -/

section
variable {cmp : α → α → Ordering}

/-- The list in order; equal elements keep their places. -/
def stableSort (cmp : α → α → Ordering) (l : List α) : List α := l.mergeSort fun a b => (cmp a b).isLE

theorem stableSort_perm (l : List α) : (stableSort cmp l).Perm l := List.mergeSort_perm l _

variable [Std.TransCmp cmp]

theorem orders_of_transCmp (l : List α) : Orders cmp l where
  swap _ _ _ _ := Std.OrientedCmp.eq_swap
  trans _ _ _ _ _ _ := Std.TransCmp.isLE_trans

theorem isLE_total (a b : α) : ((cmp a b).isLE || (cmp b a).isLE) = true := by
  have hswap : cmp b a = (cmp a b).swap := Std.OrientedCmp.eq_swap
  rw [hswap]
  cases cmp a b <;> rfl

theorem stableSort_sorted (l : List α) : Sorted cmp (stableSort cmp l) :=
  List.pairwise_mergeSort (fun _ _ _ => Std.TransCmp.isLE_trans) isLE_total l

theorem sublist_stableSort {l : List α} {a b : α} (h : [a, b].Sublist l) (hle : (cmp a b).isLE) :
    [a, b].Sublist (stableSort cmp l) :=
  List.sublist_mergeSort (fun _ _ _ => Std.TransCmp.isLE_trans) isLE_total (List.pairwise_pair.2 hle) h

end

/-! ## Several keys -/

/-- The first comparison that tells two apart. -/
def lexicographic : List (α → α → Ordering) → α → α → Ordering
  | [] => fun _ _ => .eq
  | cmp :: cmps => compareLex cmp (lexicographic cmps)

theorem transCmp_swap (cmp : α → α → Ordering) [Std.TransCmp cmp] : Std.TransCmp fun a b => (cmp a b).swap := by
  have hswap : (fun a b => (cmp a b).swap) = fun a b => cmp b a := by
    funext a b
    exact Std.OrientedCmp.eq_swap.symm
  rw [hswap]
  exact Std.TransCmp.opposite

theorem transCmp_on {β : Type} (key : β → α) (cmp : α → α → Ordering) [Std.TransCmp cmp] :
    Std.TransCmp fun a b => cmp (key a) (key b) where
  eq_swap := Std.OrientedCmp.eq_swap
  isLE_trans := Std.TransCmp.isLE_trans

theorem transCmp_lexicographic {cmps : List (α → α → Ordering)} (h : ∀ cmp ∈ cmps, Std.TransCmp cmp) :
    Std.TransCmp (lexicographic cmps) := by
  induction cmps with
  | nil =>
    refine { eq_swap := rfl, isLE_trans := ?_ }
    intro _ _ _ _ _
    rfl
  | cons cmp cmps ih =>
    obtain ⟨hcmp, hcmps⟩ := List.forall_mem_cons.1 h
    have := ih hcmps
    exact inferInstanceAs (Std.TransCmp (compareLex cmp (lexicographic cmps)))

/-- The last resort of all comparisons is that of the positions. -/
theorem withTies_lexicographic (cmps : List (Nat → Nat → Ordering)) (a b : Nat) :
    (lexicographic cmps a b).then (Ord.compare a b) =
      cmps.foldr (fun cmp rest => (cmp a b).then rest) (Ord.compare a b) := by
  induction cmps with
  | nil => rfl
  | cons cmp cmps ih =>
    rw [List.foldr_cons, ← ih, ← Ordering.then_assoc]
    rfl

theorem stableSort_nil (l : List α) : stableSort (lexicographic []) l = l := by
  apply List.mergeSort_of_pairwise
  apply List.pairwise_of_forall
  intro _ _
  rfl

/-! ## A sort -/

def mergeSort (compare : α → α → Ordering) (l : List α) : List α :=
  (l.attach.mergeSort fun a b => (compare a b).isLE).map Subtype.val

theorem mergeSort_perm (compare : α → α → Ordering) (l : List α) : (mergeSort compare l).Perm l := by
  have hperm := (List.mergeSort_perm l.attach fun a b => (compare a b).isLE).map Subtype.val
  rwa [List.attach_map_subtype_val] at hperm

theorem mergeSort_sorted {compare : α → α → Ordering} {l : List α} (h : Orders compare l) :
    Sorted compare (mergeSort compare l) := by
  apply List.pairwise_map.2
  apply List.pairwise_mergeSort
  · intro a b c
    exact h.trans a a.2 b b.2 c c.2
  · intro a b
    rw [h.swap b b.2 a a.2]
    cases compare a b <;> rfl

def merge : UnstableSort where
  sort := mergeSort
  selectNth compare _ := mergeSort compare
  sort_perm _ := mergeSort_perm _ _
  sort_sorted := mergeSort_sorted
  selectNth_perm _ _ := mergeSort_perm _ _
  selectNth_split {_ compare n l} h _ a ha b hb := by
    have hsorted := mergeSort_sorted h
    rw [← List.take_append_drop n (mergeSort compare l)] at hsorted
    exact (List.pairwise_append.1 hsorted).2.2 a ha b hb

/-! ## Ties -/

theorem not_sublist_swap {l : List α} (h : l.Nodup) {a b : α} (hab : [a, b].Sublist l) : ¬ [b, a].Sublist l := by
  induction l with
  | nil => cases hab
  | cons c l ih =>
    obtain ⟨hc, hl⟩ := List.nodup_cons.1 h
    intro hba
    cases hab with
    | cons _ hab =>
      cases hba with
      | cons _ hba => exact ih hl hab hba
      | cons_cons _ hba => exact hc (hab.subset (List.mem_cons_of_mem _ List.mem_cons_self))
    | cons_cons _ hab =>
      cases hba with
      | cons _ hba => exact hc (hba.subset (List.mem_cons_of_mem _ List.mem_cons_self))
      | cons_cons _ hba => exact hc (hab.subset List.mem_cons_self)

theorem sublist_of_lt {l : List Nat} (h : l.Pairwise (· < ·)) {a b : Nat} (ha : a ∈ l) (hb : b ∈ l) (hab : a < b) :
    [a, b].Sublist l := by
  induction l with
  | nil => cases ha
  | cons c l ih =>
    obtain ⟨hc, hl⟩ := List.pairwise_cons.1 h
    rcases List.mem_cons.1 ha with rfl | hal
    · rcases List.mem_cons.1 hb with rfl | hbl
      · exact absurd hab (Nat.lt_irrefl _)
      · exact (List.singleton_sublist.2 hbl).cons_cons _
    · rcases List.mem_cons.1 hb with rfl | hbl
      · exact absurd hab (Nat.lt_asymm (hc a hal))
      · exact (ih hl hal hbl).cons _

section
variable {cmp : Nat → Nat → Ordering} {rows : List Nat}

/-- The comparison, and the position where it does not tell two apart. -/
def withTies (cmp : Nat → Nat → Ordering) (a b : Nat) : Ordering := (cmp a b).then (Ord.compare a b)

theorem strict_withTies (l : List Nat) : Strict (withTies cmp) l := by
  intro a _ b _ h
  rw [withTies, Ordering.then_eq_eq] at h
  exact compare_eq_iff_eq.1 h.2

variable [Std.TransCmp cmp]

instance : Std.TransCmp (withTies cmp) := inferInstanceAs (Std.TransCmp (compareLex cmp Ord.compare))

/-- **Stability.** A sort that breaks ties by position sorts increasing positions stably. -/
theorem sort_withTies (sorts : UnstableSort) (h : rows.Pairwise (· < ·)) :
    sorts.sort (withTies cmp) rows = stableSort cmp rows := by
  apply sorts.sort_eq (orders_of_transCmp rows) (strict_withTies rows) (stableSort_perm rows)
  have hnodup : (stableSort cmp rows).Nodup := (stableSort_perm rows).nodup_iff.2 (h.imp Nat.ne_of_lt)
  apply List.pairwise_iff_forall_sublist.2
  intro a b hab
  have hle : (cmp a b).isLE := List.pairwise_iff_forall_sublist.1 (stableSort_sorted rows) hab
  have ha : a ∈ rows := (stableSort_perm rows).subset (hab.subset List.mem_cons_self)
  have hb : b ∈ rows := (stableSort_perm rows).subset (hab.subset (List.mem_cons_of_mem _ List.mem_cons_self))
  rw [withTies]
  cases hcmp : cmp a b with
  | lt => rfl
  | gt => rw [hcmp] at hle; cases hle
  | eq =>
    rw [Ordering.eq_then, Nat.isLE_compare]
    by_contra hlt
    -- Two equal rows in the wrong order would have been in the right order before.
    have hba : [b, a].Sublist rows := sublist_of_lt h hb ha (Nat.lt_of_not_le hlt)
    have hswap : cmp b a = .eq := by
      have hswap : cmp b a = (cmp a b).swap := Std.OrientedCmp.eq_swap
      rw [hswap, hcmp]
      rfl
    exact not_sublist_swap hnodup hab (sublist_stableSort hba (by rw [hswap]; rfl))

theorem stableSort_congr {cmp' : Nat → Nat → Ordering} [Std.TransCmp cmp'] (h : rows.Pairwise (· < ·))
    (heq : ∀ a ∈ rows, ∀ b ∈ rows, cmp' a b = cmp a b) : stableSort cmp' rows = stableSort cmp rows := by
  rw [← sort_withTies merge h, ← sort_withTies merge h]
  apply merge.sort_congr (orders_of_transCmp rows) (strict_withTies rows)
  intro a ha b hb
  rw [withTies, withTies, heq a ha b hb]

def cachedCmp {κ : Type} (cmpKey : κ → κ → Ordering) (a b : Nat × κ) : Ordering :=
  (cmpKey a.2 b.2).then (Ord.compare a.1 b.1)

theorem sort_cached {κ : Type} (sorts : UnstableSort) (key : Nat → κ) {cmpKey : κ → κ → Ordering}
    (hkey : ∀ a b, cmpKey (key a) (key b) = cmp a b) (h : rows.Pairwise (· < ·)) :
    Orders (cachedCmp cmpKey) (rows.map fun row => (row, key row)) ∧
      Strict (cachedCmp cmpKey) (rows.map fun row => (row, key row)) ∧
      sorts.sort (cachedCmp cmpKey) (rows.map fun row => (row, key row)) =
        (stableSort cmp rows).map fun row => (row, key row) := by
  have hcmp (a b : Nat) : cachedCmp cmpKey (a, key a) (b, key b) = withTies cmp a b := by
    rw [cachedCmp, hkey]
    rfl
  have horders : Orders (cachedCmp cmpKey) (rows.map fun row => (row, key row)) := by
    constructor
    · simp only [List.forall_mem_map, hcmp]
      exact fun a ha b hb => (orders_of_transCmp rows).swap a ha b hb
    · simp only [List.forall_mem_map, hcmp]
      exact fun a ha b hb c hc => (orders_of_transCmp rows).trans a ha b hb c hc
  have hstrict : Strict (cachedCmp cmpKey) (rows.map fun row => (row, key row)) := by
    unfold Strict
    simp only [List.forall_mem_map, hcmp]
    intro a ha b hb heq
    rw [strict_withTies rows a ha b hb heq]
  refine ⟨horders, hstrict, sorts.sort_eq horders hstrict ((stableSort_perm rows).map _) ?_⟩
  apply List.pairwise_map.2
  have horders' : Orders (withTies cmp) rows := orders_of_transCmp rows
  have hsorted := sorts.sort_sorted horders'
  rw [sort_withTies sorts h] at hsorted
  apply hsorted.imp
  intro a b hle
  rwa [hcmp]

end

end UnstableSort
