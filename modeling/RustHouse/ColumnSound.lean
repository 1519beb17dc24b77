import RustHouse.Column

/-!
# Columns keep their kind and count their bytes

Every mutation of a column keeps its type and its nullability, and what it
reports is by how much the bytes of the values change.
-/

namespace RustHouse.Batch

open Checked Exec Words

/-! ## Row selections -/

theorem validateRowSelectionFrom_eq_ok {inputRows position : Nat} {previous : Option Nat} {rowIndexes : List Nat} :
    validateRowSelectionFrom inputRows position previous rowIndexes = .ok () ↔
      (∀ rowIndex ∈ rowIndexes, rowIndex < inputRows) ∧ (previous.toList ++ rowIndexes).Pairwise (· < ·) := by
  induction rowIndexes generalizing position previous with
  | nil => cases previous <;> simp [validateRowSelectionFrom]
  | cons rowIndex rowIndexes ih =>
    simp only [validateRowSelectionFrom, Exec.bind_eq_ok, rejectIf_eq_ok, exists_and_left, exists_const]
    cases previous with
    | none => simp [ih, and_assoc]
    | some previousRowIndex =>
      simp only [ih, Exec.bind_eq_ok, rejectIf_eq_ok, exists_and_left, exists_const, Option.toList_some]
      simp only [List.forall_mem_cons, List.singleton_append, List.pairwise_cons]
      constructor
      · rintro ⟨hin, hlt, hall, hfirst, hrest⟩
        refine ⟨⟨Nat.lt_of_not_ge hin, hall⟩, ⟨Nat.lt_of_not_ge hlt, ?_⟩, hfirst, hrest⟩
        intro i hi
        exact Nat.lt_trans (Nat.lt_of_not_ge hlt) (hfirst i hi)
      · rintro ⟨⟨hin, hall⟩, ⟨hlt, _⟩, hfirst, hrest⟩
        exact ⟨Nat.not_le.2 hin, Nat.not_le.2 hlt, hall, hfirst, hrest⟩

theorem validateRowSelection_eq_ok {rowIndexes : List Nat} {inputRows : Nat} :
    validateRowSelection rowIndexes inputRows = .ok () ↔
      (∀ rowIndex ∈ rowIndexes, rowIndex < inputRows) ∧ rowIndexes.Pairwise (· < ·) :=
  validateRowSelectionFrom_eq_ok

theorem validateRowSelectionFrom_ne_panic (inputRows position : Nat) (previous : Option Nat) (rowIndexes : List Nat) :
    validateRowSelectionFrom inputRows position previous rowIndexes ≠ .panic := by
  induction rowIndexes generalizing position previous with
  | nil => exact nofun
  | cons rowIndex rowIndexes ih =>
    refine bind_ne_panic (rejectIf_ne_panic _ _) fun _ _ => ?_
    cases previous with
    | none => exact ih _ _
    | some previousRowIndex => exact bind_ne_panic (rejectIf_ne_panic _ _) fun _ _ => ih _ _

/-! ## Deletion -/

theorem mapM_congr_left {α β : Type} {f g : α → Option β} {as : List α} (h : ∀ a ∈ as, f a = g a) :
    as.mapM f = as.mapM g := by
  have hmap : (as.map f).mapM id = (as.map g).mapM id := by rw [List.map_congr_left h]
  rwa [List.mapM_map, List.mapM_map] at hmap

theorem compactDeletedRows_perm {α : Type} {rowIndexes pending : List Nat} {sourceRow position : Nat} {values : List α}
    (remaining : rowIndexes.drop position = pending) (sorted : pending.Pairwise (· < ·))
    (inside : ∀ i ∈ pending, sourceRow ≤ i ∧ i < sourceRow + values.length) :
    ∃ deleted, pending.mapM (fun i => values[i - sourceRow]?) = some deleted ∧
      (compactDeletedRows rowIndexes sourceRow position values ++ deleted).Perm values := by
  induction values generalizing sourceRow position pending with
  | nil =>
    cases pending with
    | nil => exact ⟨[], rfl, .refl _⟩
    | cons i pending => have := inside i (by simp); simp at this; omega
  | cons value values ih =>
    have hhead : rowIndexes[position]? = pending.head? := by rw [← remaining, List.head?_drop]
    rw [compactDeletedRows, hhead]
    have hshift : ∀ i, sourceRow < i → (value :: values)[i - sourceRow]? = values[i - (sourceRow + 1)]? := by
      intro i hi
      rw [show i - sourceRow = i - (sourceRow + 1) + 1 by omega, List.getElem?_cons_succ]
    have hlater : ∀ rest : List Nat, (∀ i ∈ rest, sourceRow < i) →
        rest.mapM (fun i => (value :: values)[i - sourceRow]?) = rest.mapM fun i => values[i - (sourceRow + 1)]? := by
      intro rest hrest
      exact mapM_congr_left fun i hi => hshift i (hrest i hi)
    by_cases hdelete : pending.head? = some sourceRow
    · rw [if_pos hdelete]
      obtain ⟨rest, rfl⟩ : ∃ rest, pending = sourceRow :: rest := by
        cases pending with
        | nil => cases hdelete
        | cons i rest => exact ⟨rest, by rw [Option.some.inj hdelete]⟩
      obtain ⟨hfirst, hrest⟩ := List.pairwise_cons.1 sorted
      have hremaining : rowIndexes.drop (position + 1) = rest := by
        rw [← List.drop_drop, remaining, List.drop_one, List.tail_cons]
      have hinside : ∀ i ∈ rest, sourceRow + 1 ≤ i ∧ i < sourceRow + 1 + values.length := by
        intro i hi
        have hlt := hfirst i hi
        have hin := (inside i (List.mem_cons_of_mem _ hi)).2
        rw [List.length_cons] at hin
        omega
      obtain ⟨deleted, hmap, hperm⟩ := ih hremaining hrest hinside
      refine ⟨value :: deleted, ?_, List.perm_middle.trans (hperm.cons _)⟩
      rw [List.mapM_cons, Nat.sub_self, List.getElem?_cons_zero, hlater rest hfirst, hmap]
      rfl
    · rw [if_neg hdelete]
      have hafter : ∀ i ∈ pending, sourceRow < i := by
        intro i hi
        cases pending with
        | nil => cases hi
        | cons j rest =>
          have hj : sourceRow < j :=
            Nat.lt_of_le_of_ne (inside j (by simp)).1 fun h => hdelete (by rw [h]; rfl)
          rcases List.mem_cons.1 hi with rfl | hi
          · exact hj
          · exact Nat.lt_trans hj ((List.pairwise_cons.1 sorted).1 i hi)
      have hinside : ∀ i ∈ pending, sourceRow + 1 ≤ i ∧ i < sourceRow + 1 + values.length := by
        intro i hi
        have hlt := hafter i hi
        have hin := (inside i hi).2
        rw [List.length_cons] at hin
        omega
      obtain ⟨deleted, hmap, hperm⟩ := ih remaining sorted hinside
      exact ⟨deleted, by rw [hlater pending hafter, hmap], hperm.cons _⟩

theorem forall₂_of_mapM {α β : Type} {f : α → Option β} {as : List α} {bs : List β} (h : as.mapM f = some bs) :
    List.Forall₂ (fun a b => f a = some b) as bs := by
  induction as generalizing bs with
  | nil => obtain rfl : [] = bs := Option.some.inj h; exact .nil
  | cons a as ih =>
    rw [List.mapM_cons] at h
    obtain ⟨b, hb, h⟩ := Option.bind_eq_some_iff.1 h
    obtain ⟨bs, hbs, h⟩ := Option.bind_eq_some_iff.1 h
    obtain rfl : b :: bs = _ := Option.some.inj h
    exact .cons hb (ih hbs)

theorem mapM_map_some {α β γ : Type} {f : α → Option β} (g : β → γ) (as : List α) :
    as.mapM (fun a => (f a).map g) = (as.mapM f).map (List.map g) := by
  induction as with
  | nil => rfl
  | cons a as ih =>
    rw [List.mapM_cons, List.mapM_cons, ih]
    cases f a with
    | none => rfl
    | some b => cases as.mapM f <;> rfl

theorem compactDeletedRows_spec {α : Type} {rowIndexes : List Nat} {values : List α} (weight : α → Nat)
    (sorted : rowIndexes.Pairwise (· < ·)) (inside : ∀ i ∈ rowIndexes, i < values.length) :
    (compactDeletedRows rowIndexes 0 0 values).length + rowIndexes.length = values.length ∧
    ∃ deleted, rowIndexes.mapM (fun i => (values[i]?).map weight) = some deleted ∧
      ((compactDeletedRows rowIndexes 0 0 values).map weight).sum + deleted.sum = (values.map weight).sum := by
  have hinside : ∀ i ∈ rowIndexes, 0 ≤ i ∧ i < 0 + values.length := by
    intro i hi
    rw [Nat.zero_add]
    exact ⟨Nat.zero_le _, inside i hi⟩
  obtain ⟨deleted, hmap, hperm⟩ := compactDeletedRows_perm List.drop_zero sorted hinside
  simp only [Nat.sub_zero] at hmap
  refine ⟨?_, deleted.map weight, by rw [mapM_map_some, hmap]; rfl, ?_⟩
  · rw [(forall₂_of_mapM hmap).length_eq, ← List.length_append, hperm.length_eq]
  · rw [← List.sum_append, ← List.map_append]
    exact (hperm.map weight).sum_eq

namespace Column

/-! ## What a column holds -/

/-- The type of a column, and whether it holds NULL. -/
def kind (column : Column) : DataType × Bool := (column.dataType, column.isNullableInt64)

def Admits (kind : DataType × Bool) : Value → Prop
  | .null dataType => dataType = .int64 ∧ kind = (.int64, true)
  | value => value.dataType = kind.1

theorem push_spec {column : Column} {value : Value} (h : Admits column.kind value) :
    ∃ column' bytes, column.push value = some (column', bytes) ∧ column'.kind = column.kind ∧
      column'.len = column.len + 1 ∧ column'.retainedValueBytesExact = column.retainedValueBytesExact + bytes := by
  cases column <;> cases value <;>
    simp_all [Admits, kind, push, dataType, Value.dataType, isNullableInt64, len, retainedValueBytesExact, Nat.add_mul]

theorem clear_kind (column : Column) : column.clear.kind = column.kind := by
  cases column <;> rfl

theorem clear_len (column : Column) : column.clear.len = 0 := by
  cases column <;> rfl

theorem clear_retainedValueBytesExact (column : Column) : column.clear.retainedValueBytesExact = 0 := by
  cases column <;> rfl

theorem deleteRows_spec {column : Column} {rowIndexes : List Nat} (sorted : rowIndexes.Pairwise (· < ·))
    (inside : ∀ i ∈ rowIndexes, i < column.len) :
    ∃ column' bytes, column.deleteRows rowIndexes = some (column', bytes) ∧ column'.kind = column.kind ∧
      column'.len + rowIndexes.length = column.len ∧
      column'.retainedValueBytesExact + bytes = column.retainedValueBytesExact := by
  cases column with
  | string values =>
    obtain ⟨hlen, deleted, hmap, hsum⟩ := compactDeletedRows_spec stringLen sorted inside
    refine ⟨string (compactDeletedRows rowIndexes 0 0 values), deleted.sum, ?_, rfl, hlen, hsum⟩
    simp only [deleteRows, deletedValueBytes, hmap]
    rfl
  | bool values =>
    have hlen := (compactDeletedRows_spec (fun _ => 1) sorted inside).1
    exact ⟨_, _, rfl, rfl, hlen, hlen⟩
  | _ values =>
    have hlen := (compactDeletedRows_spec (fun _ => 1) sorted inside).1
    exact ⟨_, _, rfl, rfl, hlen, by simp only [retainedValueBytesExact, ← Nat.add_mul, hlen]⟩

/-! ## Replacement -/

def stringBytesFrom (row : Nat) : Column → Nat
  | string values => ((values.drop row).map stringLen).sum
  | _ => 0

theorem stringBytesFrom_antitone (column : Column) {row row' : Nat} (h : row ≤ row') :
    column.stringBytesFrom row' ≤ column.stringBytesFrom row := by
  cases column with
  | string values =>
    obtain ⟨n, rfl⟩ := Nat.exists_eq_add_of_le h
    have hsub : ((values.drop row).drop n).Sublist (values.drop row) := List.drop_sublist _ _
    rw [List.drop_drop] at hsub
    exact (hsub.map stringLen).sum_le_sum fun _ _ => Nat.zero_le _
  | _ => exact Nat.le_refl _

theorem stringBytesFrom_le (column : Column) : column.stringBytesFrom 0 ≤ column.retainedValueBytesExact := by
  cases column with
  | string values => exact Nat.le_refl _
  | _ => exact Nat.zero_le _

theorem setIndex_of_lt {α : Type} {values : List α} {row : Nat} (h : row < values.length) (value : α) :
    setIndex values row value = some (values.set row value) := if_pos h

theorem sum_map_set {α : Type} (weight : α → Nat) {values : List α} {row : Nat} (h : row < values.length) (value : α) :
    ((values.set row value).map weight).sum + weight values[row] = (values.map weight).sum + weight value := by
  induction values generalizing row with
  | nil => cases h
  | cons first values ih =>
    cases row with
    | zero => simp; omega
    | succ row =>
      have := ih (Nat.lt_of_succ_lt_succ h)
      simp only [List.set_cons_succ, List.map_cons, List.sum_cons, List.getElem_cons_succ]
      omega

theorem replaceValue_spec {column : Column} {value : Value} {row : Nat} (h : Admits column.kind value)
    (inside : row < column.len) :
    ∃ column' removed added, column.replaceValue row value = some (column', removed, added) ∧
      column'.kind = column.kind ∧ column'.len = column.len ∧
      column'.retainedValueBytesExact + removed = column.retainedValueBytesExact + added ∧
      removed + column'.stringBytesFrom (row + 1) ≤ column.stringBytesFrom row := by
  cases column with
  | string values =>
    cases value with
    | string value =>
      refine ⟨.string (values.set row value), stringLen values[row], stringLen value, ?_, rfl, List.length_set,
        sum_map_set stringLen inside value, ?_⟩
      · simp only [replaceValue, List.getElem?_eq_getElem inside, setIndex_of_lt inside]
        rfl
      · simp only [stringBytesFrom, List.drop_set_of_lt (Nat.lt_succ_self row)]
        rw [List.drop_eq_getElem_cons inside]
        exact Nat.le_refl _
    | _ => simp [Admits, kind, dataType, Value.dataType] at h
  | _ values =>
    cases value <;>
      simp_all [Admits, kind, replaceValue, dataType, Value.dataType, isNullableInt64, len, retainedValueBytesExact,
        setIndex_of_lt, stringBytesFrom]

theorem replaceValues_spec {column : Column} {replacements : List (Nat × Value)} (removed added first : Nat)
    (admits : ∀ replacement ∈ replacements, Admits column.kind replacement.2)
    (inside : ∀ replacement ∈ replacements, first ≤ replacement.1 ∧ replacement.1 < column.len)
    (sorted : (replacements.map Prod.fst).Pairwise (· < ·)) :
    ∃ column' removed' added', column.replaceValues removed added replacements = some (column', removed', added') ∧
      column'.kind = column.kind ∧ column'.len = column.len ∧
      column'.retainedValueBytesExact + removed' + added = column.retainedValueBytesExact + added' + removed ∧
      removed' ≤ removed + column.stringBytesFrom first := by
  induction replacements generalizing column removed added first with
  | nil => exact ⟨column, removed, added, rfl, rfl, rfl, by omega, Nat.le_add_right _ _⟩
  | cons replacement replacements ih =>
    obtain ⟨row, value⟩ := replacement
    obtain ⟨hadmits, hadmitsRest⟩ := List.forall_mem_cons.1 admits
    obtain ⟨⟨hfirst, hrow⟩, hinside⟩ := List.forall_mem_cons.1 inside
    obtain ⟨hafter, hsorted⟩ := List.pairwise_cons.1 sorted
    obtain ⟨middle, removedHere, addedHere, hvalue, hkind, hlen, hbytes, hremoved⟩ := replaceValue_spec hadmits hrow
    obtain ⟨column', removed', added', hvalues, hkind', hlen', hbytes', hremoved'⟩ :=
      ih (removed + removedHere) (added + addedHere) (row + 1)
        (fun r hr => hkind ▸ hadmitsRest r hr)
        (fun r hr => ⟨hafter r.1 (List.mem_map_of_mem hr), hlen ▸ (hinside r hr).2⟩) hsorted
    have htail : column.stringBytesFrom row ≤ column.stringBytesFrom first := stringBytesFrom_antitone column hfirst
    change removedHere + middle.stringBytesFrom (row + 1) ≤ column.stringBytesFrom row at hremoved
    refine ⟨column', removed', added', ?_, hkind'.trans hkind, hlen'.trans hlen, by omega, by omega⟩
    simp only [replaceValues, hvalue]
    exact hvalues

end Column

end RustHouse.Batch
