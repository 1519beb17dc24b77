import Mathlib.Data.List.Basic
import Mathlib.Data.List.Induction
import Mathlib.Data.List.Nodup
import Mathlib.Data.List.Perm.Basic

/-!
# Groups by a key

The elements of a list by their keys, the groups in the order of their first
elements. One more element either begins a group behind the others or comes
behind the elements of its group, which lets a pass keep a state for each group.
-/

namespace KeyedGroups

variable {α κ : Type} [DecidableEq κ]

/-! ## Keys -/

theorem mem_eraseDups {ks : List κ} {k : κ} : k ∈ ks.eraseDups ↔ k ∈ ks := by
  induction ks using List.reverseRecOn with
  | nil => exact Iff.rfl
  | append_singleton ks k' ih =>
    rw [List.eraseDups_append, List.mem_append, ih, List.mem_append]
    by_cases hk : k' ∈ ks <;> simp [List.removeAll, hk]
    intro h
    exact h ▸ hk

theorem eraseDups_concat (ks : List κ) (k : κ) :
    (ks ++ [k]).eraseDups = if k ∈ ks then ks.eraseDups else ks.eraseDups ++ [k] := by
  rw [List.eraseDups_append]
  by_cases hk : k ∈ ks <;> simp [List.removeAll, hk, List.eraseDups_cons]

theorem nodup_eraseDups (ks : List κ) : ks.eraseDups.Nodup := by
  induction ks using List.reverseRecOn with
  | nil => exact List.nodup_nil
  | append_singleton ks k ih =>
    rw [eraseDups_concat]
    split
    · exact ih
    · rename_i hk
      refine List.nodup_append.2 ⟨ih, List.nodup_singleton k, fun a ha b hb heq => ?_⟩
      rw [List.mem_singleton.1 hb] at heq
      exact hk (mem_eraseDups.1 (heq ▸ ha))

variable (key : α → κ)

/-- Every key once, in the order of their first elements. -/
def keys (l : List α) : List κ := (l.map key).eraseDups

/-- The elements of a key. -/
def members (l : List α) (k : κ) : List α := l.filter (key · = k)

def groups (l : List α) : List (List α) := (keys key l).map (members key l)

/-- Which group has the key of an element. -/
def place (l : List α) (x : α) : Option Nat := (keys key l).idxOf? (key x)

variable {key} {l : List α} {x : α} {g : Nat}

theorem mem_keys {k : κ} : k ∈ keys key l ↔ ∃ y ∈ l, key y = k := mem_eraseDups.trans List.mem_map

theorem nodup_keys : (keys key l).Nodup := nodup_eraseDups _

theorem length_groups : (groups key l).length = (keys key l).length := List.length_map ..

@[simp] theorem groups_nil : groups key [] = [] := rfl

theorem place_eq_none : place key l x = none ↔ ∀ y ∈ l, key y ≠ key x := by
  rw [place, List.idxOf?_eq_none_iff, mem_keys]
  simp

theorem place_eq_some : place key l x = some g ↔ (keys key l)[g]? = some (key x) := by
  rw [place, List.idxOf?, List.findIdx?_eq_some_iff_getElem, List.getElem?_eq_some_iff]
  constructor
  · intro h
    obtain ⟨hlt, heq, _⟩ := h
    exact ⟨hlt, eq_of_beq heq⟩
  · intro h
    obtain ⟨hlt, heq⟩ := h
    refine ⟨hlt, beq_iff_eq.2 heq, fun j hj heq' => ?_⟩
    have hsame : (keys key l)[j] = (keys key l)[g] := (eq_of_beq heq').trans heq.symm
    exact Nat.ne_of_lt hj ((nodup_keys.getElem_inj_iff).1 hsame)

theorem place_unique {g' : Nat} (h : place key l x = some g) (h' : place key l x = some g') : g = g' :=
  Option.some.inj (h.symm.trans h')

theorem place_lt (h : place key l x = some g) : g < (groups key l).length := by
  rw [length_groups]
  exact (List.getElem?_eq_some_iff.1 (place_eq_some.1 h)).1

/-! ## One more element -/

theorem members_concat (k : κ) :
    members key (l ++ [x]) k = members key l k ++ if key x = k then [x] else [] := by
  rw [members, List.filter_append]
  by_cases hk : key x = k <;> simp [members, hk]

theorem members_of_ne (h : ∀ y ∈ l, key y ≠ key x) : members key l (key x) = [] := by
  rw [members, List.filter_eq_nil_iff]
  intro y hy
  simpa using h y hy

theorem keys_concat_of_none (h : place key l x = none) : keys key (l ++ [x]) = keys key l ++ [key x] := by
  have hnot : key x ∉ l.map key := by
    rw [List.mem_map]
    intro hmem
    obtain ⟨y, hy, heq⟩ := hmem
    exact place_eq_none.1 h y hy heq
  rw [keys, List.map_append, List.map_singleton, eraseDups_concat, if_neg hnot]
  rfl

theorem keys_concat_of_some (h : place key l x = some g) : keys key (l ++ [x]) = keys key l := by
  have hmem : key x ∈ l.map key := mem_eraseDups.1 (List.mem_of_getElem? (place_eq_some.1 h))
  rw [keys, List.map_append, List.map_singleton, eraseDups_concat, if_pos hmem]
  rfl

theorem groups_concat_of_none (h : place key l x = none) : groups key (l ++ [x]) = groups key l ++ [[x]] := by
  rw [groups, keys_concat_of_none h, List.map_append, List.map_singleton, members_concat, if_pos rfl,
    members_of_ne (place_eq_none.1 h), List.nil_append, groups]
  congr 1
  apply List.map_congr_left
  intro k hk
  obtain ⟨y, hy, rfl⟩ := mem_keys.1 hk
  rw [members_concat, if_neg (place_eq_none.1 h y hy).symm, List.append_nil]

theorem groups_getElem? (h : place key l x = some g) : (groups key l)[g]? = some (members key l (key x)) := by
  rw [groups, List.getElem?_map, place_eq_some.1 h]
  rfl

theorem groups_concat_of_some (h : place key l x = some g) :
    groups key (l ++ [x]) = (groups key l).set g (members key l (key x) ++ [x]) := by
  have hg := place_eq_some.1 h
  rw [groups, keys_concat_of_some h]
  apply List.ext_getElem?
  intro i
  rw [List.getElem?_map, List.getElem?_set]
  by_cases hi : g = i
  · subst hi
    rw [if_pos rfl, if_pos (place_lt h), hg, Option.map_some, members_concat, if_pos rfl]
  · rw [if_neg hi, groups, List.getElem?_map]
    cases hk : (keys key l)[i]? with
    | none => rfl
    | some k =>
      have hne : key x ≠ k := by
        intro heq
        subst heq
        exact hi (place_unique h (place_eq_some.2 hk))
      rw [Option.map_some, Option.map_some, members_concat, if_neg hne, List.append_nil]

/-! ## All groups -/

theorem ne_nil_of_mem_groups {ms : List α} (h : ms ∈ groups key l) : ms ≠ [] := by
  obtain ⟨k, hk, rfl⟩ := List.mem_map.1 h
  obtain ⟨y, hy, rfl⟩ := mem_keys.1 hk
  exact List.ne_nil_of_mem (List.mem_filter.2 ⟨hy, decide_eq_true rfl⟩)

theorem members_cons {k : κ} (h : k ∈ keys key l) : ∃ first rest, members key l k = first :: rest ∧ key first = k := by
  obtain ⟨y, hy, rfl⟩ := mem_keys.1 h
  have hmem : y ∈ members key l (key y) := List.mem_filter.2 ⟨hy, decide_eq_true rfl⟩
  cases hmembers : members key l (key y) with
  | nil =>
    rw [hmembers] at hmem
    exact absurd hmem List.not_mem_nil
  | cons first rest =>
    have hfirst : first ∈ members key l (key y) := hmembers ▸ List.mem_cons_self
    exact ⟨first, rest, rfl, of_decide_eq_true (List.mem_filter.1 hfirst).2⟩

theorem map_groups {β : Type} {f : List α → β} {g : κ → β} (h : ∀ first rest, f (first :: rest) = g (key first)) :
    (groups key l).map f = (keys key l).map g := by
  rw [groups, List.map_map]
  apply List.map_congr_left
  intro k hk
  obtain ⟨first, rest, hmembers, hfirst⟩ := members_cons hk
  rw [Function.comp_apply, hmembers, h, hfirst]

theorem sublist_of_mem_groups {ms : List α} (h : ms ∈ groups key l) : ms.Sublist l := by
  obtain ⟨k, _, rfl⟩ := List.mem_map.1 h
  exact List.filter_sublist

theorem length_groups_le : (groups key l).length ≤ l.length := by
  induction l using List.reverseRecOn with
  | nil => exact Nat.le_refl _
  | append_singleton l x ih =>
    rw [List.length_append]
    cases h : place key l x with
    | none =>
      rw [groups_concat_of_none h, List.length_append]
      exact Nat.add_le_add_right ih 1
    | some g =>
      rw [groups_concat_of_some h, List.length_set]
      exact Nat.le_add_right_of_le ih

end KeyedGroups
