import Mathlib.Data.List.Forall2
import Mathlib.Data.List.Induction
import Mathlib.Order.Defs.LinearOrder
import RustHouse.Exec

/-!
# Reduction of a list by pieces

A pass over a list that may fail is the same as passes over consecutive pieces
of it whose results are merged in order, when one merge is the pass over two
pieces and there is only one way to fail.
-/

namespace OrderedReduction

open Exec

variable {α P ε : Type}

/-! ## Pieces -/

/-- Consecutive pieces, each beginning where the one before it ends. -/
theorem flatMap_pieces (xs : List α) {start size : Nat → Nat} (hzero : start 0 = 0)
    (hnext : ∀ i, start (i + 1) = start i + size i) (n : Nat) :
    ((List.range n).flatMap fun i => (xs.drop (start i)).take (size i)) = xs.take (start n) := by
  induction n with
  | zero => rw [hzero]; rfl
  | succ n ih =>
    rw [List.range_succ, List.flatMap_append, ih, List.flatMap_singleton, hnext, List.take_add]

/-! ## Passes -/

/-- A pass that takes each element into what it has so far. -/
def scanFrom (observe : P → α → Exec ε P) (total : P) : List α → Exec ε P
  | [] => .ok total
  | x :: xs => do
    let total ← observe total x
    scanFrom observe total xs

theorem scanFrom_append (observe : P → α → Exec ε P) (total : P) (xs ys : List α) :
    scanFrom observe total (xs ++ ys) = scanFrom observe total xs >>= fun total => scanFrom observe total ys := by
  induction xs generalizing total with
  | nil => rfl
  | cons x xs ih =>
    rw [List.cons_append, scanFrom, scanFrom]
    cases observe total x with
    | ok total => exact ih total
    | error e => rfl
    | panic => rfl

/-- The results in order; the first that is no value is that of all. -/
def collect : List (Exec ε P) → Exec ε (List P)
  | [] => .ok []
  | x :: xs => do
    let a ← x
    let as ← collect xs
    .ok (a :: as)

theorem collect_eq_ok {xs : List (Exec ε α)} {as : List α} :
    collect xs = .ok as ↔ List.Forall₂ (fun x a => x = .ok a) xs as := by
  induction xs generalizing as with
  | nil =>
    rw [List.forall₂_nil_left_iff, collect, Exec.ok.injEq, eq_comm]
  | cons x xs ih =>
    rw [List.forall₂_cons_left_iff, collect]
    constructor
    · intro h
      obtain ⟨a, ha, h⟩ := Exec.bind_eq_ok.1 h
      obtain ⟨rest, hrest, h⟩ := Exec.bind_eq_ok.1 h
      exact ⟨a, rest, ha, ih.1 hrest, (Exec.ok.inj h).symm⟩
    · intro h
      obtain ⟨a, rest, ha, hrest, rfl⟩ := h
      exact Exec.bind_eq_ok.2 ⟨a, ha, Exec.bind_eq_ok.2 ⟨rest, ih.2 hrest, rfl⟩⟩

theorem collect_forEach {β : Type} {check : α → Exec ε Unit} {f : α → β} (as : List α) :
    collect (as.map fun a => check a >>= fun _ => .ok (f a)) = forEach check as >>= fun _ => .ok (as.map f) := by
  induction as with
  | nil => rfl
  | cons a as ih =>
    rw [List.map_cons, collect, forEach, ih]
    cases check a with
    | ok u => cases forEach check as <;> rfl
    | error e => rfl
    | panic => rfl

/-- How a pass and the merge of two results compute a total: it is checked at every step, and there is one error. -/
structure Tally (α P ε : Type) where
  empty : P
  single : α → P
  join : P → P → P
  good : P → Bool
  error : ε
  observe : P → α → Exec ε P
  merge : P → P → Exec ε P

namespace Tally

variable (tally : Tally α P ε)

/-- The total without the checks. -/
def exact (xs : List α) : P := xs.foldl (fun total x => tally.join total (tally.single x)) tally.empty

def scan (xs : List α) : Exec ε P := scanFrom tally.observe tally.empty xs

/-- The results of a pass by pieces. -/
def reduce (pieces : List P) : Exec ε P := scanFrom tally.merge tally.empty pieces

def checked (total : P) : Exec ε P := if tally.good total then .ok total else .error tally.error

/-- Totals are joined in any grouping. -/
structure Monoidal : Prop where
  empty_join : ∀ a, tally.join tally.empty a = a
  join_empty : ∀ a, tally.join a tally.empty = a
  join_assoc : ∀ a b c, tally.join (tally.join a b) c = tally.join a (tally.join b c)

/-- On lists that fit, a step and a merge are checked, and a total that is good was never bad on the way. -/
structure Lawful (fits : List α → Prop) : Prop extends tally.Monoidal where
  good_empty : tally.good tally.empty
  left : ∀ xs ys, fits (xs ++ ys) → fits xs
  right : ∀ xs ys, fits (xs ++ ys) → fits ys
  good_left : ∀ xs ys, fits (xs ++ ys) → tally.good (tally.join (tally.exact xs) (tally.exact ys)) →
    tally.good (tally.exact xs)
  good_right : ∀ xs ys, fits (xs ++ ys) → tally.good (tally.join (tally.exact xs) (tally.exact ys)) →
    tally.good (tally.exact ys)
  observe : ∀ xs x, fits (xs ++ [x]) → tally.good (tally.exact xs) →
    tally.observe (tally.exact xs) x = tally.checked (tally.join (tally.exact xs) (tally.single x))
  merge : ∀ xs ys, fits (xs ++ ys) → tally.good (tally.exact xs) → tally.good (tally.exact ys) →
    tally.merge (tally.exact xs) (tally.exact ys) = tally.checked (tally.join (tally.exact xs) (tally.exact ys))

variable {tally} {fits : List α → Prop}

theorem checked_of_good {total : P} (h : tally.good total) : tally.checked total = .ok total := if_pos h

theorem checked_of_not {total : P} (h : ¬ tally.good total) : tally.checked total = .error tally.error := if_neg h

@[simp] theorem exact_nil : tally.exact [] = tally.empty := rfl

theorem exact_concat (xs : List α) (x : α) : tally.exact (xs ++ [x]) = tally.join (tally.exact xs) (tally.single x) := by
  rw [exact, List.foldl_append]
  rfl

theorem exact_append (h : tally.Monoidal) (xs ys : List α) :
    tally.exact (xs ++ ys) = tally.join (tally.exact xs) (tally.exact ys) := by
  induction ys using List.reverseRecOn with
  | nil => rw [List.append_nil, exact_nil, h.join_empty]
  | append_singleton ys y ih => rw [← List.append_assoc, exact_concat, exact_concat, ih, h.join_assoc]

theorem Lawful.good_append (h : tally.Lawful fits) {xs ys : List α} (hfits : fits (xs ++ ys))
    (hgood : tally.good (tally.exact (xs ++ ys))) : tally.good (tally.exact xs) ∧ tally.good (tally.exact ys) := by
  rw [exact_append h.toMonoidal] at hgood
  exact ⟨h.good_left xs ys hfits hgood, h.good_right xs ys hfits hgood⟩

theorem scan_eq (h : tally.Lawful fits) {xs : List α} (hfits : fits xs) : tally.scan xs = tally.checked (tally.exact xs) := by
  induction xs using List.reverseRecOn with
  | nil => exact (checked_of_good h.good_empty).symm
  | append_singleton xs x ih =>
    rw [scan, scanFrom_append, ← scan, ih (h.left xs [x] hfits)]
    by_cases hgood : tally.good (tally.exact xs)
    · rw [checked_of_good hgood, Exec.ok_bind, scanFrom, h.observe xs x hfits hgood, exact_concat]
      cases tally.checked (tally.join (tally.exact xs) (tally.single x)) <;> rfl
    · rw [checked_of_not hgood, checked_of_not fun hgood' => hgood (h.good_append hfits hgood').1]
      rfl

theorem collect_scan (h : tally.Lawful fits) {pieces : List (List α)} (hfits : fits pieces.flatten) :
    (collect (pieces.map tally.scan) = .ok (pieces.map tally.exact) ∧ ∀ piece ∈ pieces, tally.good (tally.exact piece)) ∨
      collect (pieces.map tally.scan) = .error tally.error ∧ ¬ tally.good (tally.exact pieces.flatten) := by
  induction pieces with
  | nil => exact .inl ⟨rfl, List.forall_mem_nil _⟩
  | cons piece pieces ih =>
    rw [List.flatten_cons] at hfits ⊢
    rw [List.map_cons, List.map_cons, collect, scan_eq h (h.left _ _ hfits)]
    by_cases hgood : tally.good (tally.exact piece)
    · rw [checked_of_good hgood, Exec.ok_bind]
      obtain ⟨hok, hpieces⟩ | ⟨herror, hbad⟩ := ih (h.right _ _ hfits)
      · exact .inl ⟨by rw [hok]; rfl, List.forall_mem_cons.2 ⟨hgood, hpieces⟩⟩
      · exact .inr ⟨by rw [herror]; rfl, fun hgood => hbad (h.good_append hfits hgood).2⟩
    · exact .inr ⟨by rw [checked_of_not hgood]; rfl, fun hgood' => hgood (h.good_append hfits hgood').1⟩

theorem scanFrom_merge (h : tally.Lawful fits) {done : List α} {pieces : List (List α)}
    (hfits : fits (done ++ pieces.flatten)) (hgood : tally.good (tally.exact done))
    (hpieces : ∀ piece ∈ pieces, tally.good (tally.exact piece)) :
    scanFrom tally.merge (tally.exact done) (pieces.map tally.exact) =
      tally.checked (tally.exact (done ++ pieces.flatten)) := by
  induction pieces generalizing done with
  | nil => rw [List.flatten_nil, List.append_nil, checked_of_good hgood]; rfl
  | cons piece pieces ih =>
    obtain ⟨hpiece, hpieces⟩ := List.forall_mem_cons.1 hpieces
    rw [List.flatten_cons, ← List.append_assoc] at hfits ⊢
    rw [List.map_cons, scanFrom, h.merge _ _ (h.left _ _ hfits) hgood hpiece, ← exact_append h.toMonoidal]
    by_cases hnext : tally.good (tally.exact (done ++ piece))
    · rw [checked_of_good hnext, Exec.ok_bind, ih hfits hnext hpieces]
    · rw [checked_of_not hnext, checked_of_not fun hgood' => hnext (h.good_append hfits hgood').1]
      rfl

/-- **Reduction by pieces** is the pass over the whole list. -/
theorem reduce_pieces (h : tally.Lawful fits) {pieces : List (List α)} (hfits : fits pieces.flatten) :
    (collect (pieces.map tally.scan) >>= tally.reduce) = tally.scan pieces.flatten := by
  rw [scan_eq h hfits]
  obtain ⟨hok, hpieces⟩ | ⟨herror, hbad⟩ := collect_scan h hfits
  · rw [hok, Exec.ok_bind, reduce]
    exact @scanFrom_merge _ _ _ tally fits h [] pieces hfits h.good_empty hpieces
  · rw [herror, checked_of_not hbad]
    rfl

/-! ## Elements that are looked up -/

/-- The pass over positions, where a position without an element panics. -/
def reading {ι : Type} (tally : Tally α P ε) (read : ι → Option α) : Tally ι P ε :=
  { tally with
    single := fun i => (read i).elim tally.empty tally.single
    observe := fun total i => orPanic (read i) >>= tally.observe total }

theorem exact_reading (h : tally.Monoidal) {ι : Type} (read : ι → Option α) (is : List ι) :
    (tally.reading read).exact is = tally.exact (is.filterMap read) := by
  induction is using List.reverseRecOn with
  | nil => rfl
  | append_singleton is i ih =>
    rw [exact_concat, ih, List.filterMap_append, exact_append h]
    cases hi : read i with
    | none => simp only [reading, hi, Option.elim_none, List.filterMap_cons, List.filterMap_nil, exact_nil]
    | some x =>
      simp only [reading, hi, Option.elim_some, List.filterMap_cons, List.filterMap_nil]
      rw [← List.nil_append [x], exact_concat, exact_nil, h.empty_join]

theorem Lawful.reading {ι : Type} (h : tally.Lawful fits) (read : ι → Option α) :
    (tally.reading read).Lawful fun is => (∀ i ∈ is, (read i).isSome) ∧ fits (is.filterMap read) where
  empty_join := h.empty_join
  join_empty := h.join_empty
  join_assoc := h.join_assoc
  good_empty := h.good_empty
  left is js hfits := by
    rw [List.filterMap_append] at hfits
    exact ⟨fun i hi => hfits.1 i (List.mem_append_left _ hi), h.left _ _ hfits.2⟩
  right is js hfits := by
    rw [List.filterMap_append] at hfits
    exact ⟨fun i hi => hfits.1 i (List.mem_append_right _ hi), h.right _ _ hfits.2⟩
  good_left is js hfits hgood := by
    rw [exact_reading h.toMonoidal, exact_reading h.toMonoidal] at hgood
    rw [exact_reading h.toMonoidal]
    exact h.good_left _ _ (List.filterMap_append ▸ hfits.2) hgood
  good_right is js hfits hgood := by
    rw [exact_reading h.toMonoidal, exact_reading h.toMonoidal] at hgood
    rw [exact_reading h.toMonoidal]
    exact h.good_right _ _ (List.filterMap_append ▸ hfits.2) hgood
  observe is i hfits hgood := by
    obtain ⟨x, hx⟩ := Option.isSome_iff_exists.1 (hfits.1 i (List.mem_append_right _ (List.mem_singleton.2 rfl)))
    have hlist := hfits.2
    rw [List.filterMap_append, List.filterMap_cons_some hx, List.filterMap_nil] at hlist
    rw [exact_reading h.toMonoidal] at hgood ⊢
    show (orPanic (read i) >>= tally.observe _) = tally.checked (tally.join _ ((read i).elim tally.empty tally.single))
    rw [hx, orPanic_some, Exec.ok_bind, Option.elim_some]
    exact h.observe _ x hlist hgood
  merge is js hfits hgood hgood' := by
    rw [exact_reading h.toMonoidal] at hgood hgood' ⊢
    rw [exact_reading h.toMonoidal]
    exact h.merge _ _ (List.filterMap_append ▸ hfits.2) hgood hgood'

theorem scan_reading (h : tally.Lawful fits) {ι : Type} {read : ι → Option α} {is : List ι}
    (hread : ∀ i ∈ is, (read i).isSome) (hfits : fits (is.filterMap read)) :
    (tally.reading read).scan is = tally.checked (tally.exact (is.filterMap read)) := by
  rw [scan_eq (h.reading read) ⟨hread, hfits⟩, exact_reading h.toMonoidal]
  rfl

end Tally

/-! ## First extremes -/

section
variable {T K : Type} [LinearOrder K]

/-- The one of two values with the smaller key, the left one of equals. -/
def first (key : T → K) (left right : T) : T := if key right < key left then right else left

theorem first_assoc (key : T → K) (a b c : T) : first key (first key a b) c = first key a (first key b c) := by
  unfold first
  by_cases hab : key b < key a
  · by_cases hbc : key c < key b
    · rw [if_pos hab, if_pos hbc, if_pos (hbc.trans hab)]
    · rw [if_pos hab, if_neg hbc, if_pos hab]
  · by_cases hbc : key c < key b
    · rw [if_neg hab, if_pos hbc]
    · have hac : ¬ key c < key a := not_lt.2 ((not_lt.1 hab).trans (not_lt.1 hbc))
      rw [if_neg hab, if_neg hbc, if_neg hab, if_neg hac]

/-- One of two values that may be missing. -/
def either (choose : T → T → T) : Option T → Option T → Option T
  | some left, some right => some (choose left right)
  | some value, none | none, some value => some value
  | none, none => none

@[simp] theorem either_none (choose : T → T → T) (a : Option T) : either choose a none = a := by
  cases a <;> rfl

@[simp] theorem none_either (choose : T → T → T) (a : Option T) : either choose none a = a := by
  cases a <;> rfl

theorem either_assoc {choose : T → T → T} (h : ∀ a b c, choose (choose a b) c = choose a (choose b c)) (a b c : Option T) :
    either choose (either choose a b) c = either choose a (either choose b c) := by
  cases a <;> cases b <;> cases c <;> first | rfl | exact congrArg some (h _ _ _)

def FirstLeast (key : T → K) (values : List T) : Option T → Prop
  | none => values = []
  | some best => ∃ before after, values = before ++ best :: after ∧ (∀ value ∈ before, key best < key value) ∧
      ∀ value ∈ after, key best ≤ key value

theorem FirstLeast.concat {key : T → K} {values : List T} {best : Option T} (h : FirstLeast key values best) (value : T) :
    FirstLeast key (values ++ [value]) (either (first key) best (some value)) := by
  cases best with
  | none =>
    obtain rfl : values = [] := h
    exact ⟨[], [], rfl, List.forall_mem_nil _, List.forall_mem_nil _⟩
  | some best =>
    obtain ⟨before, after, rfl, hbefore, hafter⟩ := h
    by_cases hless : key value < key best
    · have hfirst : either (first key) (some best) (some value) = some value := congrArg some (if_pos hless)
      rw [hfirst]
      refine ⟨before ++ best :: after, [], rfl, fun other hother => ?_, List.forall_mem_nil _⟩
      rcases List.mem_append.1 hother with hother | hother
      · exact hless.trans (hbefore other hother)
      · rcases List.mem_cons.1 hother with rfl | hother
        · exact hless
        · exact hless.trans_le (hafter other hother)
    · have hfirst : either (first key) (some best) (some value) = some best := congrArg some (if_neg hless)
      rw [hfirst]
      refine ⟨before, after ++ [value], by rw [List.append_assoc]; rfl, hbefore, fun other hother => ?_⟩
      rcases List.mem_append.1 hother with hother | hother
      · exact hafter other hother
      · rw [List.mem_singleton.1 hother]
        exact not_lt.1 hless

end

end OrderedReduction
