import Mathlib.Data.List.Basic

/-!
# First occurrences

A list without the elements that are the same as an earlier one. When being the
same is having the same key, it is enough to look for an earlier one among those
that were kept.
-/

namespace FirstOccurrences

variable {α κ : Type}

/-- The elements that are not the same as one before. -/
def firstOccurrences (same : α → α → Bool) (before : List α) : List α → List α
  | [] => []
  | a :: as =>
    if before.any (same · a) then firstOccurrences same (before ++ [a]) as
    else a :: firstOccurrences same (before ++ [a]) as

/-- Which elements those are. -/
def flags (same : α → α → Bool) (before : List α) : List α → List Bool
  | [] => []
  | a :: as => (!before.any (same · a)) :: flags same (before ++ [a]) as

variable {same same' : α → α → Bool}

theorem firstOccurrences_congr {before as : List α} (h : ∀ a ∈ before ++ as, ∀ b ∈ as, same a b = same' a b) :
    firstOccurrences same before as = firstOccurrences same' before as := by
  induction as generalizing before with
  | nil => rfl
  | cons a as ih =>
    have hany : before.any (same · a) = before.any (same' · a) := by
      rw [Bool.eq_iff_iff, List.any_eq_true, List.any_eq_true]
      refine exists_congr fun b => and_congr_right fun hb => ?_
      rw [h b (List.mem_append_left _ hb) a (List.mem_cons_self ..)]
    have hrest : firstOccurrences same (before ++ [a]) as = firstOccurrences same' (before ++ [a]) as := by
      apply ih
      intro b hb c hc
      rw [List.append_assoc, List.singleton_append] at hb
      exact h b hb c (List.mem_cons_of_mem _ hc)
    rw [firstOccurrences, firstOccurrences, hany, hrest]

theorem firstOccurrences_ne_nil {as : List α} (h : as ≠ []) : firstOccurrences same [] as ≠ [] := by
  cases as with
  | nil => exact absurd rfl h
  | cons a as => exact List.cons_ne_nil _ _

/-- What was kept stands for all that came before. -/
structure Represents (key : α → κ) (kept before : List α) : Prop where
  kept_mem : ∀ k ∈ kept, k ∈ before
  key_mem : ∀ b ∈ before, ∃ k ∈ kept, key k = key b

namespace Represents

variable {key : α → κ} {kept before : List α}

theorem nil : Represents key [] [] := ⟨List.forall_mem_nil _, List.forall_mem_nil _⟩

theorem any_eq (h : Represents key kept before) (hsame : ∀ a b, same a b = true ↔ key a = key b) (a : α) :
    kept.any (same · a) = before.any (same · a) := by
  rw [Bool.eq_iff_iff, List.any_eq_true, List.any_eq_true]
  constructor
  · intro ⟨k, hk, hka⟩
    exact ⟨k, h.kept_mem k hk, hka⟩
  · intro ⟨b, hb, hba⟩
    obtain ⟨k, hk, hkb⟩ := h.key_mem b hb
    exact ⟨k, hk, (hsame k a).2 (hkb.trans ((hsame b a).1 hba))⟩

theorem seen (h : Represents key kept before) (hsame : ∀ a b, same a b = true ↔ key a = key b) {a : α}
    (ha : before.any (same · a) = true) : Represents key kept (before ++ [a]) := by
  refine ⟨fun k hk => List.mem_append_left _ (h.kept_mem k hk), fun b hb => ?_⟩
  obtain hb | hb := List.mem_append.1 hb
  · exact h.key_mem b hb
  · obtain rfl := List.mem_singleton.1 hb
    obtain ⟨b', hb', hsame'⟩ := List.any_eq_true.1 ha
    obtain ⟨k, hk, hkb⟩ := h.key_mem b' hb'
    exact ⟨k, hk, hkb.trans ((hsame b' b).1 hsame')⟩

theorem fresh (h : Represents key kept before) (a : α) : Represents key (kept ++ [a]) (before ++ [a]) := by
  refine ⟨fun k hk => ?_, fun b hb => ?_⟩
  · obtain hk | hk := List.mem_append.1 hk
    · exact List.mem_append_left _ (h.kept_mem k hk)
    · exact List.mem_append_right _ hk
  · obtain hb | hb := List.mem_append.1 hb
    · obtain ⟨k, hk, hkb⟩ := h.key_mem b hb
      exact ⟨k, List.mem_append_left _ hk, hkb⟩
    · exact ⟨b, List.mem_append_right _ hb, rfl⟩

end Represents

end FirstOccurrences
