import RustHouse.KeyedTotals
import Mathlib.Data.List.Induction

/-!
# Multimaps

A map from keys to lists of values, built one pair after another: looked up, a key
has the values that came with it, in their order.
-/

namespace Multimap

open KeyedTotals

variable {κ β : Type} [DecidableEq κ]

def push (m : Map κ (List β)) (key : κ) (value : β) : Map κ (List β) :=
  m.insert key ((m.lookup key).getD [] ++ [value])

def ofPairs (pairs : List (κ × β)) : Map κ (List β) := pairs.foldl (fun m pair => push m pair.1 pair.2) ∅

def valuesOf (pairs : List (κ × β)) (key : κ) : List β := (pairs.filter fun pair => pair.1 = key).map (·.2)

/-- A list, unless it is empty. -/
def nonempty (values : List β) : Option (List β) := if values = [] then none else some values

theorem getD_nonempty (values : List β) : (nonempty values).getD [] = values := by
  unfold nonempty
  by_cases h : values = []
  · rw [if_pos h, h]
    rfl
  · rw [if_neg h]
    rfl

theorem valuesOf_append (pairs others : List (κ × β)) (key : κ) :
    valuesOf (pairs ++ others) key = valuesOf pairs key ++ valuesOf others key := by
  rw [valuesOf, List.filter_append, List.map_append]
  rfl

theorem lookup_push (m : Map κ (List β)) (key other : κ) (value : β) :
    (push m key value).lookup other = if other = key then some ((m.lookup key).getD [] ++ [value]) else m.lookup other := by
  by_cases h : other = key
  · rw [if_pos h, h]
    exact AList.lookup_insert _
  · rw [if_neg h]
    exact AList.lookup_insert_ne h

/-- **Lookup.** A key has exactly the values that came with it. -/
theorem lookup_ofPairs (pairs : List (κ × β)) (key : κ) : (ofPairs pairs).lookup key = nonempty (valuesOf pairs key) := by
  unfold ofPairs
  induction pairs using List.reverseRec with
  | nil => rfl
  | append_singleton pairs pair ih =>
    rw [List.foldl_append, List.foldl_cons, List.foldl_nil, lookup_push, valuesOf_append]
    by_cases h : key = pair.1
    · subst h
      have hlast : valuesOf [pair] pair.1 = [pair.2] := by simp [valuesOf]
      rw [if_pos rfl, ih, getD_nonempty, hlast, nonempty, if_neg (List.append_ne_nil_of_right_ne_nil _ (by simp))]
    · have hlast : valuesOf [pair] key = [] := by simp [valuesOf, Ne.symm h]
      rw [if_neg h, ih, hlast, List.append_nil]

end Multimap
