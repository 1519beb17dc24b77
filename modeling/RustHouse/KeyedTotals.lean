import Mathlib.Algebra.GroupWithZero.Nat
import Mathlib.Algebra.Order.BigOperators.Group.List
import Mathlib.Algebra.Order.Group.Nat
import Mathlib.Data.List.AList

/-!
# Totals over keyed maps

A map from keys to values, updated in place, and a total of a measure of its
values that is kept beside it: an update moves the total by the new measure
less the old one.
-/

namespace KeyedTotals

variable {κ β : Type} [DecidableEq κ]

abbrev Map (κ β : Type) := AList (fun _ : κ => β)

/-- The sum of a measure over the values of a map. -/
def total (f : β → Nat) (m : Map κ β) : Nat := (m.entries.map fun e => f e.2).sum

/-! ## In-place updates -/

theorem kreplace_cons (k k' : κ) (b b' : β) (l : List (Sigma fun _ : κ => β)) :
    List.kreplace k b (⟨k', b'⟩ :: l) = if k = k' then ⟨k, b⟩ :: l else ⟨k', b'⟩ :: List.kreplace k b l := by
  unfold List.kreplace
  split
  · rename_i h; exact List.lookmap_cons_some _ _ (if_pos h)
  · rename_i h; exact List.lookmap_cons_none _ _ (if_neg h)

theorem dlookup_kreplace (k j : κ) (b : β) : ∀ l : List (Sigma fun _ : κ => β),
    (List.kreplace k b l).dlookup j = if k = j then (l.dlookup j).map fun _ => b else l.dlookup j
  | [] => by simp [List.kreplace]
  | ⟨k', b'⟩ :: l => by
    rw [kreplace_cons]
    have ih := dlookup_kreplace k j b l
    by_cases hk : k = k'
    · subst hk
      rw [if_pos rfl]
      by_cases hj : k = j
      · subst hj; simp
      · rw [if_neg hj, List.dlookup_cons_ne _ _ fun h => hj h.symm, List.dlookup_cons_ne _ _ fun h => hj h.symm]
    · rw [if_neg hk]
      by_cases hj : j = k'
      · subst hj; rw [if_neg hk, List.dlookup_cons_eq, List.dlookup_cons_eq]
      · rw [List.dlookup_cons_ne _ _ hj, List.dlookup_cons_ne _ _ hj, ih]

theorem lookup_replace (k j : κ) (b : β) (m : Map κ β) :
    (m.replace k b).lookup j = if k = j then (m.lookup j).map fun _ => b else m.lookup j :=
  dlookup_kreplace k j b m.entries

theorem replace_self {k : κ} {b : β} {m : Map κ β} (h : m.lookup k = some b) : m.replace k b = m :=
  AList.ext (List.kreplace_self m.nodupKeys (AList.mem_lookup_iff.1 h))

/-! ## Totals -/

theorem sum_kreplace (f : β → Nat) (k : κ) (b b' : β) : ∀ l : List (Sigma fun _ : κ => β), l.dlookup k = some b →
    ((List.kreplace k b' l).map fun e => f e.2).sum + f b = (l.map fun e => f e.2).sum + f b'
  | [], h => by simp at h
  | ⟨k', b''⟩ :: l, h => by
    rw [kreplace_cons]
    by_cases hk : k = k'
    · subst hk
      obtain rfl : b'' = b := by simpa using h
      rw [if_pos rfl]
      simp only [List.map_cons, List.sum_cons]; omega
    · rw [List.dlookup_cons_ne _ _ hk] at h
      have ih := sum_kreplace f k b b' l h
      rw [if_neg hk]
      simp only [List.map_cons, List.sum_cons]; omega

/-- An update in place moves the total by the difference of the measures. -/
theorem total_replace (f : β → Nat) {k : κ} {b : β} (b' : β) {m : Map κ β} (h : m.lookup k = some b) :
    total f (m.replace k b') + f b = total f m + f b' :=
  sum_kreplace f k b b' m.entries h

theorem total_insert (f : β → Nat) {k : κ} (b : β) {m : Map κ β} (h : k ∉ m) :
    total f (m.insert k b) = f b + total f m := by
  rw [total, AList.entries_insert_of_notMem h, List.map_cons, List.sum_cons]
  rfl

theorem sum_le_of_dlookup (f : β → Nat) {k : κ} {b : β} : ∀ {l : List (Sigma fun _ : κ => β)}, l.dlookup k = some b →
    f b ≤ (l.map fun e => f e.2).sum
  | [], h => by simp at h
  | ⟨k', b'⟩ :: l, h => by
    rw [List.map_cons, List.sum_cons]
    by_cases hk : k = k'
    · subst hk
      obtain rfl : b' = b := by simpa using h
      exact Nat.le_add_right _ _
    · rw [List.dlookup_cons_ne _ _ hk] at h
      exact Nat.le_trans (sum_le_of_dlookup f h) (Nat.le_add_left _ _)

theorem le_total (f : β → Nat) {k : κ} {b : β} {m : Map κ β} (h : m.lookup k = some b) : f b ≤ total f m :=
  sum_le_of_dlookup f h

theorem sum_kerase (f : β → Nat) (k : κ) (b : β) : ∀ l : List (Sigma fun _ : κ => β), l.dlookup k = some b →
    ((List.kerase k l).map fun e => f e.2).sum + f b = (l.map fun e => f e.2).sum
  | [], h => by simp at h
  | ⟨k', b'⟩ :: l, h => by
    by_cases hk : k = k'
    · subst hk
      obtain rfl : b' = b := by simpa using h
      rw [show List.kerase k (⟨k, b'⟩ :: l) = l from List.kerase_cons_eq rfl]
      simp only [List.map_cons, List.sum_cons]; omega
    · rw [List.dlookup_cons_ne _ _ hk] at h
      have ih := sum_kerase f k b l h
      rw [show List.kerase k (⟨k', b'⟩ :: l) = ⟨k', b'⟩ :: List.kerase k l from List.kerase_cons_ne hk]
      simp only [List.map_cons, List.sum_cons]; omega

/-- A removal takes the measure of what was removed from the total. -/
theorem total_erase (f : β → Nat) {k : κ} {b : β} {m : Map κ β} (h : m.lookup k = some b) :
    total f (m.erase k) + f b = total f m :=
  sum_kerase f k b m.entries h

end KeyedTotals
