import RustHouse.CatalogSound
import RustHouse.DatabaseRuns
import RustHouse.FirstOccurrences
import RustHouse.MutationRows
import RustHouse.UnionJoin

/-!
# First occurrences and products

Values that are equal feed the same bytes to a hasher, whatever the sign of a
zero, so that a set of keys holds the rows that were kept. UNION DISTINCT then
keeps the first occurrence of every row, and CROSS JOIN returns the first rows of
the product.
-/

namespace RustHouse.Batch

open Words FirstOccurrences
open Checked (usizeMax saturatingAdd saturatingMul checkedMul)
open Exec (getOr orPanic rejectIf orPanic_some)

/-! ## Equality of values -/

theorem DataType.index_inj {left right : DataType} (h : left.index = right.index) : left = right := by
  cases left <;> cases right <;> first | rfl | cases h

namespace F64

/-- A number with the positive zero for both. -/
def canonical (x : F64) : F64 := if x.bits.toNat % 2 ^ 63 = 0 then .zero else x

theorem canonical_inj {left right : F64} : left.canonical = right.canonical ↔ left.orderKey = right.orderKey := by
  have hl := @totalKey_zero left
  have hr := @totalKey_zero right
  unfold canonical orderKey
  by_cases hleft : left.bits.toNat % 2 ^ 63 = 0
  · rw [if_pos hleft, if_pos hleft]
    by_cases hright : right.bits.toNat % 2 ^ 63 = 0
    · rw [if_pos hright, if_pos hright]
      exact ⟨fun _ => rfl, fun _ => rfl⟩
    · rw [if_neg hright, if_neg hright]
      constructor
      · rintro rfl
        exact absurd rfl hright
      · omega
  · rw [if_neg hleft, if_neg hleft]
    by_cases hright : right.bits.toNat % 2 ^ 63 = 0
    · rw [if_pos hright, if_pos hright]
      constructor
      · rintro rfl
        exact absurd rfl hleft
      · omega
    · rw [if_neg hright, if_neg hright]
      exact ⟨congrArg totalKey, totalKey_inj⟩

theorem canonicalFloatBits_eq (x : F64) : canonicalFloatBits x = x.canonical.bits := by
  unfold canonicalFloatBits canonical
  by_cases hzero : x.bits.toNat % 2 ^ 63 = 0
  · rw [if_pos hzero, if_pos (partialCmp_zeros hzero rfl)]
    rfl
  · rw [if_neg hzero, if_neg]
    intro h
    obtain rfl | ⟨hx, -⟩ := partialCmp_eq_eq h
    · exact hzero rfl
    · exact hzero hx

end F64

namespace Value

def canonical : Value → Value
  | float64 value => float64 value.canonical
  | value => value

theorem variantIndex_canonical (value : Value) : value.canonical.variantIndex = value.variantIndex := by
  cases value <;> rfl

theorem cmp_of_variants {left right : Value} (h : left.variantIndex ≠ right.variantIndex) : left.cmp right ≠ .eq := by
  have hcompare : compare left.variantIndex right.variantIndex ≠ .eq := fun heq => h (compare_eq_iff_eq.1 heq)
  cases left <;> cases right <;> first | exact hcompare | exact absurd rfl h

/-- **Equality** is that of canonical values. -/
theorem eq_iff (left right : Value) : left.eq right = true ↔ left.canonical = right.canonical := by
  rw [eq, decide_eq_true_eq]
  by_cases hvariant : left.variantIndex = right.variantIndex
  · cases left with
    | null leftType =>
      cases right with
      | null rightType =>
        rw [cmp, compare_eq_iff_eq]
        exact ⟨fun h => congrArg null (DataType.index_inj h), fun h => congrArg DataType.index (null.inj h)⟩
      | _ => cases hvariant
    | int64 leftValue =>
      cases right with
      | int64 rightValue =>
        rw [cmp, compare_eq_iff_eq, Int64.toInt_inj]
        exact ⟨congrArg int64, int64.inj⟩
      | _ => cases hvariant
    | float64 leftValue =>
      cases right with
      | float64 rightValue =>
        rw [cmp, F64.floatCmp_eq, compare_eq_iff_eq, ← F64.canonical_inj]
        exact ⟨congrArg float64, float64.inj⟩
      | _ => cases hvariant
    | bool leftValue =>
      cases right with
      | bool rightValue => cases leftValue <;> cases rightValue <;> decide
      | _ => cases hvariant
    | string leftValue =>
      cases right with
      | string rightValue =>
        rw [cmp, Std.compare_eq_iff_eq]
        exact ⟨congrArg string, string.inj⟩
      | _ => cases hvariant
  · refine ⟨fun h => absurd h (cmp_of_variants hvariant), fun h => absurd ?_ hvariant⟩
    rw [← variantIndex_canonical left, ← variantIndex_canonical right, h]

theorem hashBytes_canonical (value : Value) : value.hashBytes = match value.canonical with
    | float64 value => 2 :: u64Bytes value.bits
    | value => value.hashBytes := by
  cases value with
  | float64 value => rw [hashBytes, F64.canonicalFloatBits_eq]; rfl
  | _ => rfl

/-- **Hashing is consistent with equality.** -/
theorem hashBytes_of_eq (left right : Value) (h : left.eq right = true) : left.hashBytes = right.hashBytes := by
  rw [hashBytes_canonical left, hashBytes_canonical right, (eq_iff left right).1 h]

end Value

def rowKey (row : List Value) : List Value := row.map Value.canonical

theorem sliceEq_iff (left right : List Value) : sliceEq left right = true ↔ rowKey left = rowKey right := by
  induction left generalizing right with
  | nil =>
    cases right with
    | nil => exact ⟨fun _ => rfl, fun _ => rfl⟩
    | cons value right => exact ⟨fun h => absurd h (by simp [sliceEq]), fun h => by cases h⟩
  | cons value left ih =>
    cases right with
    | nil => exact ⟨fun h => absurd h (by simp [sliceEq]), fun h => by cases h⟩
    | cons value' right =>
      have hcons : sliceEq (value :: left) (value' :: right) = (value.eq value' && sliceEq left right) := by
        simp only [sliceEq, List.length_cons, List.zip_cons_cons, List.all_cons, Nat.add_right_cancel_iff]
        cases value.eq value' <;> simp
      rw [hcons, Bool.and_eq_true, Value.eq_iff, ih]
      exact List.cons_eq_cons.symm

theorem length_of_sliceEq {left right : List Value} (h : sliceEq left right = true) : left.length = right.length := by
  have hkey := congrArg List.length ((sliceEq_iff left right).1 h)
  rwa [rowKey, rowKey, List.length_map, List.length_map] at hkey

theorem sliceHashBytes_of_eq (left right : List Value) (h : sliceEq left right = true) :
    sliceHashBytes left = sliceHashBytes right := by
  have hkey := (sliceEq_iff left right).1 h
  have hcanonical (values : List Value) : values.flatMap Value.hashBytes =
      (rowKey values).flatMap fun value => match value with
        | .float64 value => 2 :: u64Bytes value.bits
        | value => value.hashBytes := by
    rw [rowKey, List.flatMap_map]
    exact List.flatMap_congr fun value _ => value.hashBytes_canonical
  rw [sliceHashBytes, sliceHashBytes, length_of_sliceEq h, hcanonical left, hcanonical right, hkey]

/-! ## Sets of keys -/

section
variable (hasher : Bytes → UInt64)

theorem setContains_eq {κ : Type} {hashBytes : κ → Bytes} {eq : κ → κ → Bool}
    (hconsistent : ∀ stored key, eq stored key = true → hashBytes stored = hashBytes key) (keys : List κ) (key : κ) :
    setContains hasher hashBytes eq keys key = keys.any (eq · key) := by
  unfold setContains
  congr 1
  funext stored
  cases heq : eq stored key with
  | false => rw [Bool.and_false]
  | true => rw [Bool.and_true, hconsistent stored key heq, decide_eq_true rfl]

theorem setInsert_eq {κ : Type} {hashBytes : κ → Bytes} {eq : κ → κ → Bool}
    (hconsistent : ∀ stored key, eq stored key = true → hashBytes stored = hashBytes key) {keys : List κ} {key : κ}
    (hfresh : keys.any (eq · key) = false) : setInsert hasher hashBytes eq keys key = keys ++ [key] := by
  rw [setInsert, setContains_eq hasher hconsistent, hfresh]
  rfl

namespace UnionDistinctKeys

/-- The set holds the rows that were kept, each with a value for every column. -/
def Holds (columnCount : Nat) (kept : List (List Value)) : UnionDistinctKeys → Prop
  | empty present => columnCount = 0 ∧ present = !kept.isEmpty
  | one keys => columnCount = 1 ∧ kept = keys.map fun value => [value]
  | multiple keys => 2 ≤ columnCount ∧ kept = keys

theorem holds_new (columnCount : Nat) : (new columnCount).Holds columnCount [] := by
  match columnCount with
  | 0 => exact ⟨rfl, rfl⟩
  | 1 => exact ⟨rfl, rfl⟩
  | n + 2 => exact ⟨Nat.le_add_left 2 n, rfl⟩

theorem sliceEq_singleton (left right : Value) : sliceEq [left] [right] = left.eq right := by
  rw [Bool.eq_iff_iff, sliceEq_iff, Value.eq_iff]
  exact ⟨fun h => List.head_eq_of_cons_eq h, fun h => congrArg (fun value => [value]) h⟩

theorem pairKey_eq {row : List Value} (h : row.length = 2) : pairKey row = .ok row := by
  match row, h with
  | [_, _], _ => rfl

theorem contains_eq {columnCount : Nat} {kept : List (List Value)} {keys : UnionDistinctKeys} {row : List Value}
    (hholds : keys.Holds columnCount kept) (hkept : ∀ k ∈ kept, k.length = columnCount) (hrow : row.length = columnCount)
    (probe : List Value) : ∃ probe', keys.contains hasher row probe = .ok (kept.any (sliceEq · row), probe') ∧
      (2 < columnCount → probe' = row) := by
  cases keys with
  | empty present =>
    obtain ⟨rfl, rfl⟩ := hholds
    obtain rfl := List.eq_nil_of_length_eq_zero hrow
    refine ⟨probe, ?_, fun h => absurd h (by decide)⟩
    cases kept with
    | nil => rfl
    | cons k kept =>
      obtain rfl := List.eq_nil_of_length_eq_zero (hkept k (List.mem_cons_self ..))
      rfl
  | one keys =>
    obtain ⟨rfl, rfl⟩ := hholds
    obtain ⟨value, rfl⟩ := List.length_eq_one_iff.1 hrow
    refine ⟨probe, ?_, fun h => absurd h (by decide)⟩
    rw [contains, List.any_map]
    simp only [Function.comp_def, sliceEq_singleton]
    exact congrArg (fun present => Exec.ok (present, probe)) (setContains_eq hasher Value.hashBytes_of_eq keys value)
  | multiple keys =>
    obtain ⟨htwo, rfl⟩ := hholds
    by_cases hpair : row.length = 2
    · refine ⟨probe, ?_, fun h => absurd h (by omega)⟩
      rw [contains, if_pos hpair, pairKey_eq hpair, Exec.ok_bind, setContains_eq hasher sliceHashBytes_of_eq]
    · refine ⟨row, ?_, fun _ => rfl⟩
      rw [contains, if_neg hpair, setContains_eq hasher sliceHashBytes_of_eq]

theorem insert_eq {columnCount : Nat} {kept : List (List Value)} {keys : UnionDistinctKeys} {row probe : List Value}
    (hholds : keys.Holds columnCount kept) (hrow : row.length = columnCount) (hprobe : 2 < columnCount → probe = row)
    (hfresh : kept.any (sliceEq · row) = false) :
    ∃ keys', keys.insert hasher row probe = .ok keys' ∧ keys'.Holds columnCount (kept ++ [row]) := by
  cases keys with
  | empty present =>
    refine ⟨empty true, rfl, hholds.1, ?_⟩
    cases kept <;> rfl
  | one keys =>
    obtain ⟨rfl, rfl⟩ := hholds
    obtain ⟨value, rfl⟩ := List.length_eq_one_iff.1 hrow
    rw [List.any_map] at hfresh
    simp only [Function.comp_def, sliceEq_singleton] at hfresh
    refine ⟨one (keys ++ [value]), ?_, rfl, by rw [List.map_append]; rfl⟩
    exact congrArg (fun keys => Exec.ok (one keys)) (setInsert_eq hasher Value.hashBytes_of_eq hfresh)
  | multiple keys =>
    obtain ⟨htwo, rfl⟩ := hholds
    refine ⟨multiple (kept ++ [row]), ?_, htwo, rfl⟩
    by_cases hpair : row.length = 2
    · rw [insert, if_pos hpair, pairKey_eq hpair, Exec.ok_bind, setInsert_eq hasher sliceHashBytes_of_eq hfresh]
    · rw [insert, if_neg hpair, hprobe (by omega), setInsert_eq hasher sliceHashBytes_of_eq hfresh]

end UnionDistinctKeys

/-! ## Limits -/

def groupKeyCells (columnCount groups : Nat) : Nat :=
  min ((if columnCount > 2 then columnCount else 0) + groups * columnCount) usizeMax

def GroupsFit (columnCount : Nat) (limits : QueryResultLimits) (groups : Nat) : Prop :=
  enforceGroupLimits (min groups usizeMax) (groupKeyCells columnCount groups) limits = .ok ()

theorem enforceGroupLimits_eq_ok {groups keyCells : Nat} {limits : QueryResultLimits} :
    enforceGroupLimits groups keyCells limits = .ok () ↔ groups ≤ limits.maxGroups ∧ keyCells ≤ limits.maxGroupKeyCells ∧
      saturatingMul keyCells estimatedGroupKeyCellBytes ≤ limits.maxGroupKeyBytes := by
  simp only [enforceGroupLimits, enforceResourceLimit, Exec.bind_eq_ok, Exec.rejectIf_eq_ok, Nat.not_lt, gt_iff_lt,
    exists_and_left, exists_const]

theorem enforceGroupLimits_ne_panic (groups keyCells : Nat) (limits : QueryResultLimits) :
    enforceGroupLimits groups keyCells limits ≠ .panic :=
  Exec.bind_ne_panic (Exec.rejectIf_ne_panic _ _) fun _ _ =>
    Exec.bind_ne_panic (Exec.rejectIf_ne_panic _ _) fun _ _ => Exec.rejectIf_ne_panic _ _

theorem GroupsFit.mono {columnCount groups groups' : Nat} {limits : QueryResultLimits}
    (h : GroupsFit columnCount limits groups') (hle : groups ≤ groups') : GroupsFit columnCount limits groups := by
  rw [GroupsFit, enforceGroupLimits_eq_ok] at h ⊢
  have hcells : groupKeyCells columnCount groups ≤ groupKeyCells columnCount groups' := by
    have hmul := Nat.mul_le_mul_right columnCount hle
    unfold groupKeyCells
    omega
  have hbytes : saturatingMul (groupKeyCells columnCount groups) estimatedGroupKeyCellBytes ≤
      saturatingMul (groupKeyCells columnCount groups') estimatedGroupKeyCellBytes := by
    have hmul := Nat.mul_le_mul_right estimatedGroupKeyCellBytes hcells
    unfold saturatingMul
    omega
  omega

theorem groupKeyCells_succ (columnCount groups : Nat) :
    saturatingAdd (groupKeyCells columnCount groups) columnCount = groupKeyCells columnCount (groups + 1) := by
  unfold groupKeyCells saturatingAdd
  rw [Nat.succ_mul]
  omega

theorem groupKeyCells_first (columnCount : Nat) :
    saturatingAdd (if columnCount > 2 then columnCount else 0) columnCount = groupKeyCells columnCount 1 := by
  rw [groupKeyCells, Nat.one_mul]
  rfl

/-! ## First occurrences -/

theorem retainRows_eq {limits : QueryResultLimits} {columnCount cells : Nat} {keys : UnionDistinctKeys}
    {kept before rows : List (List Value)} (hholds : keys.Holds columnCount kept) (hrep : Represents rowKey kept before)
    (hkept : ∀ k ∈ kept, k.length = columnCount) (hrows : ∀ row ∈ rows, row.length = columnCount) (probe : List Value)
    (hcells : saturatingAdd cells columnCount = groupKeyCells columnCount (kept.length + 1)) :
    (firstOccurrences sliceEq before rows = [] ∨
        GroupsFit columnCount limits (kept.length + (firstOccurrences sliceEq before rows).length) →
      retainRows hasher limits columnCount keys probe (min kept.length usizeMax) cells rows =
        .ok (flags sliceEq before rows)) ∧
    (¬ (firstOccurrences sliceEq before rows = [] ∨
        GroupsFit columnCount limits (kept.length + (firstOccurrences sliceEq before rows).length)) →
      ∃ e, retainRows hasher limits columnCount keys probe (min kept.length usizeMax) cells rows = .error e) := by
  induction rows generalizing keys kept before probe cells with
  | nil => exact ⟨fun _ => rfl, fun h => absurd (.inl rfl) h⟩
  | cons row rows ih =>
    obtain ⟨hrow, hrest⟩ := List.forall_mem_cons.1 hrows
    obtain ⟨probe', hcontains, hprobe⟩ := UnionDistinctKeys.contains_eq hasher hholds hkept hrow probe
    rw [hrep.any_eq sliceEq_iff] at hcontains
    rw [retainRows, hcontains, Exec.ok_bind, firstOccurrences, flags]
    dsimp only
    cases hseen : before.any (sliceEq · row) with
    | true =>
      obtain ⟨hok, herror⟩ := ih hholds (hrep.seen sliceEq_iff hseen) hkept hrest probe' hcells
      simp only [↓reduceIte]
      refine ⟨fun h => ?_, fun h => ?_⟩
      · rw [hok h]
        rfl
      · obtain ⟨e, he⟩ := herror h
        rw [he]
        exact ⟨e, rfl⟩
    | false =>
      have hcount : saturatingAdd (min kept.length usizeMax) 1 = min (kept.length + 1) usizeMax := by
        unfold saturatingAdd
        omega
      have hfresh : kept.any (sliceEq · row) = false := (hrep.any_eq sliceEq_iff row).trans hseen
      obtain ⟨keys', hinsert, hholds'⟩ := UnionDistinctKeys.insert_eq hasher hholds hrow hprobe hfresh
      have hkept' : ∀ k ∈ kept ++ [row], k.length = columnCount := by
        intro k hk
        obtain hk | hk := List.mem_append.1 hk
        · exact hkept k hk
        · exact List.mem_singleton.1 hk ▸ hrow
      have hlength : (kept ++ [row]).length = kept.length + 1 := List.length_append
      have hcells' : saturatingAdd (groupKeyCells columnCount (kept.length + 1)) columnCount =
          groupKeyCells columnCount ((kept ++ [row]).length + 1) := by
        rw [hlength]
        exact groupKeyCells_succ ..
      obtain ⟨hok, herror⟩ := ih hholds' (hrep.fresh row) hkept' hrest probe' hcells'
      rw [hlength] at hok herror
      simp only [Bool.false_eq_true, ↓reduceIte, hcount, hcells, List.length_cons, reduceCtorEq, false_or]
      have hcomm : kept.length + ((firstOccurrences sliceEq (before ++ [row]) rows).length + 1) =
          kept.length + 1 + (firstOccurrences sliceEq (before ++ [row]) rows).length := by
        omega
      rw [hcomm]
      by_cases hfits : GroupsFit columnCount limits (kept.length + 1)
      · have hchecked : enforceGroupLimits (min (kept.length + 1) usizeMax) (groupKeyCells columnCount (kept.length + 1))
            limits = .ok () := hfits
        rw [hchecked, Exec.ok_bind, hinsert, Exec.ok_bind]
        refine ⟨fun h => ?_, fun h => ?_⟩
        · rw [hok (.inr h)]
          rfl
        · have hnot : ¬ (firstOccurrences sliceEq (before ++ [row]) rows = [] ∨ GroupsFit columnCount limits
              (kept.length + 1 + (firstOccurrences sliceEq (before ++ [row]) rows).length)) := by
            rintro (hnil | hfit)
            · rw [hnil] at h
              exact h hfits
            · exact h hfit
          obtain ⟨e, he⟩ := herror hnot
          rw [he]
          exact ⟨e, rfl⟩
      · refine ⟨fun h => absurd (h.mono (Nat.le_add_right ..)) hfits, fun _ => ?_⟩
        cases hchecked : enforceGroupLimits (min (kept.length + 1) usizeMax)
            (groupKeyCells columnCount (kept.length + 1)) limits with
        | ok u => exact absurd hchecked hfits
        | error e => exact ⟨e, rfl⟩
        | panic => exact absurd hchecked (enforceGroupLimits_ne_panic _ _ _)

theorem retain_flags (same : List Value → List Value → Bool) (before rows : List (List Value)) :
    retain rows (flags same before rows) = .ok (firstOccurrences same before rows) := by
  induction rows generalizing before with
  | nil => rfl
  | cons row rows ih =>
    rw [flags, retain, ih, Exec.ok_bind, firstOccurrences]
    cases before.any (same · row) <;> rfl

/-- **Deduplication** keeps the first occurrences, or fails when there are too many groups. -/
theorem deduplicateUnionRows_eq (limits : QueryResultLimits) {columnCount : Nat} {rows : List (List Value)}
    (hrows : ∀ row ∈ rows, row.length = columnCount) :
    (rows = [] ∨ GroupsFit columnCount limits (firstOccurrences sliceEq [] rows).length →
      deduplicateUnionRows hasher rows columnCount limits = .ok (firstOccurrences sliceEq [] rows)) ∧
    (¬ (rows = [] ∨ GroupsFit columnCount limits (firstOccurrences sliceEq [] rows).length) →
      ∃ e, deduplicateUnionRows hasher rows columnCount limits = .error e) := by
  by_cases hempty : rows = []
  · subst hempty
    exact ⟨fun _ => rfl, fun h => absurd (.inl rfl) h⟩
  · have hnonempty : rows.isEmpty = false := List.isEmpty_eq_false_iff.2 hempty
    have hfirst := @firstOccurrences_ne_nil _ sliceEq _ hempty
    obtain ⟨hok, herror⟩ := @retainRows_eq hasher limits _ _ _ _ _ _ (UnionDistinctKeys.holds_new columnCount) .nil
      (List.forall_mem_nil _) hrows [] (groupKeyCells_first columnCount)
    rw [List.length_nil, Nat.zero_add, Nat.zero_min] at hok herror
    rw [deduplicateUnionRows, hnonempty, if_neg Bool.false_ne_true]
    simp only [groupKeyCells_first]
    by_cases hone : GroupsFit columnCount limits 1
    · have hchecked : enforceGroupLimits 1 (groupKeyCells columnCount 1) limits = .ok () := hone
      rw [hchecked, Exec.ok_bind, unionDistinctRetainedRows]
      refine ⟨fun h => ?_, fun h => ?_⟩
      · rw [hok (.inr (h.resolve_left hempty)), Exec.ok_bind, retain_flags]
      · obtain ⟨e, he⟩ := herror fun hor => hor.elim hfirst fun hfit => h (.inr hfit)
        rw [he]
        exact ⟨e, rfl⟩
    · refine ⟨fun h => ?_, fun _ => ?_⟩
      · exact absurd ((h.resolve_left hempty).mono (List.length_pos_iff.2 hfirst)) hone
      · cases hchecked : enforceGroupLimits 1 (groupKeyCells columnCount 1) limits with
        | ok u => exact absurd hchecked hone
        | error e => exact ⟨e, rfl⟩
        | panic => exact absurd hchecked (enforceGroupLimits_ne_panic _ _ _)

end

/-! ## UNION DISTINCT -/

/-- Values that a query takes for the same: NULL is equal to NULL, and zeros are equal whatever their sign. -/
def sameValue : Value → Value → Bool
  | .null _, .null _ => true
  | .int64 left, .int64 right => left = right
  | .float64 left, .float64 right => left = right || (left.bits.toNat % 2 ^ 63 = 0 && right.bits.toNat % 2 ^ 63 = 0)
  | .bool left, .bool right => left = right
  | .string left, .string right => left = right
  | _, _ => false

def sameRow : List Value → List Value → Bool
  | [], [] => true
  | left :: lefts, right :: rights => sameValue left right && sameRow lefts rights
  | _, _ => false

/-- Every row has a value for every column, of the type of the column. -/
def QueryResult.Typed (result : QueryResult) : Prop :=
  ∀ row ∈ result.rows, row.map Value.dataType = result.columns.map ResultColumn.dataType

theorem sameFloat_iff (left right : F64) :
    (left = right || (left.bits.toNat % 2 ^ 63 = 0 && right.bits.toNat % 2 ^ 63 = 0) : Bool) = true ↔
      left.canonical = right.canonical := by
  rw [Bool.or_eq_true, Bool.and_eq_true, decide_eq_true_eq, decide_eq_true_eq, decide_eq_true_eq]
  unfold F64.canonical
  by_cases hleft : left.bits.toNat % 2 ^ 63 = 0
  · by_cases hright : right.bits.toNat % 2 ^ 63 = 0
    · rw [if_pos hleft, if_pos hright]
      exact ⟨fun _ => rfl, fun _ => .inr ⟨hleft, hright⟩⟩
    · rw [if_pos hleft, if_neg hright]
      refine ⟨?_, fun h => absurd (h ▸ rfl) hright⟩
      rintro (rfl | ⟨-, hzero⟩)
      · exact absurd hleft hright
      · exact absurd hzero hright
  · rw [if_neg hleft]
    by_cases hright : right.bits.toNat % 2 ^ 63 = 0
    · rw [if_pos hright]
      refine ⟨?_, fun h => absurd (h ▸ rfl) hleft⟩
      rintro (rfl | ⟨hzero, -⟩)
      · exact absurd hright hleft
      · exact absurd hzero hleft
    · rw [if_neg hright]
      exact ⟨fun h => h.resolve_right fun hzero => hleft hzero.1, .inl⟩

theorem sameValue_of_variants {left right : Value} (h : left.variantIndex ≠ right.variantIndex) :
    sameValue left right = false := by
  cases left <;> cases right <;> first | rfl | exact absurd rfl h

theorem eq_of_variants {left right : Value} (h : left.variantIndex ≠ right.variantIndex) : left.eq right = false :=
  decide_eq_false (Value.cmp_of_variants h)

theorem eq_of_types {left right : Value} (h : left.dataType = right.dataType) : left.eq right = sameValue left right := by
  by_cases hvariant : left.variantIndex = right.variantIndex
  · rw [Bool.eq_iff_iff, Value.eq_iff]
    cases left with
    | null leftType =>
      cases right with
      | null rightType => exact ⟨fun _ => rfl, fun _ => congrArg Value.null h⟩
      | _ => cases hvariant
    | int64 left =>
      cases right with
      | int64 right =>
        rw [sameValue, decide_eq_true_eq]
        exact ⟨Value.int64.inj, congrArg Value.int64⟩
      | _ => cases hvariant
    | float64 left =>
      cases right with
      | float64 right =>
        rw [sameValue, sameFloat_iff]
        exact ⟨Value.float64.inj, congrArg Value.float64⟩
      | _ => cases hvariant
    | bool left =>
      cases right with
      | bool right =>
        rw [sameValue, decide_eq_true_eq]
        exact ⟨Value.bool.inj, congrArg Value.bool⟩
      | _ => cases hvariant
    | string left =>
      cases right with
      | string right =>
        rw [sameValue, decide_eq_true_eq]
        exact ⟨Value.string.inj, congrArg Value.string⟩
      | _ => cases hvariant
  · rw [sameValue_of_variants hvariant, eq_of_variants hvariant]

theorem sliceEq_of_types {left right : List Value} (h : left.map Value.dataType = right.map Value.dataType) :
    sliceEq left right = sameRow left right := by
  induction left generalizing right with
  | nil =>
    cases right with
    | nil => rfl
    | cons value right => cases h
  | cons value left ih =>
    cases right with
    | nil => cases h
    | cons value' right =>
      obtain ⟨hvalue, hrest⟩ := List.cons_eq_cons.1 h
      rw [sameRow, ← ih hrest, ← eq_of_types hvalue, Bool.eq_iff_iff, sliceEq_iff, Bool.and_eq_true, sliceEq_iff, Value.eq_iff]
      exact List.cons_eq_cons

theorem validateUnionTypes_ok {operation : String} {index : Nat} {columns : List (ResultColumn × ResultColumn)}
    (h : validateUnionTypes operation index columns = .ok ()) : ∀ pair ∈ columns, pair.1.dataType = pair.2.dataType := by
  induction columns generalizing index with
  | nil => exact List.forall_mem_nil _
  | cons pair columns ih =>
    obtain ⟨_, htype, hrest⟩ := Exec.bind_eq_ok.1 h
    exact List.forall_mem_cons.2 ⟨Classical.byContradiction fun hne => Exec.rejectIf_eq_ok.1 htype hne, ih hrest⟩

theorem validateUnionSchema_ok {operation : String} {left right : List ResultColumn}
    (h : validateUnionSchema operation left right = .ok ()) :
    left.map ResultColumn.dataType = right.map ResultColumn.dataType := by
  obtain ⟨_, hsizes, htypes⟩ := Exec.bind_eq_ok.1 h
  have hpairs := validateUnionTypes_ok htypes
  have hlength : left.length = right.length := Classical.byContradiction fun hne => Exec.rejectIf_eq_ok.1 hsizes hne
  clear h hsizes htypes
  induction left generalizing right with
  | nil =>
    obtain rfl := List.eq_nil_of_length_eq_zero hlength.symm
    rfl
  | cons column left ih =>
    obtain ⟨column', right, rfl⟩ := List.exists_cons_of_length_eq_add_one hlength.symm
    rw [List.zip_cons_cons] at hpairs
    obtain ⟨hcolumn, hrest⟩ := List.forall_mem_cons.1 hpairs
    exact List.cons_eq_cons.2 ⟨hcolumn, ih hrest (Nat.succ.inj hlength)⟩

/-- **UNION DISTINCT** keeps the first occurrences among the rows on the left and then those on the right. -/
theorem executeUnionDistinct_eq (hasher : Bytes → UInt64)
    {executeSelect : Select → Option SelectResultPrefix → Exec Error QueryResult} {left right : Select}
    (limits : QueryResultLimits) {leftResult rightResult : QueryResult}
    (hleft : executeSelect left none = .ok leftResult)
    (hright : executeSelect right (some (.fromResult leftResult "UNION DISTINCT")) = .ok rightResult)
    (hschema : validateUnionSchema "UNION DISTINCT" leftResult.columns rightResult.columns = .ok ())
    (hleftTyped : leftResult.Typed) (hrightTyped : rightResult.Typed) :
    (leftResult.rows ++ rightResult.rows = [] ∨ GroupsFit leftResult.columns.length limits
        (firstOccurrences sameRow [] (leftResult.rows ++ rightResult.rows)).length →
      executeUnionDistinct executeSelect hasher left right limits =
        .ok ⟨leftResult.columns, firstOccurrences sameRow [] (leftResult.rows ++ rightResult.rows)⟩) ∧
    (¬ (leftResult.rows ++ rightResult.rows = [] ∨ GroupsFit leftResult.columns.length limits
        (firstOccurrences sameRow [] (leftResult.rows ++ rightResult.rows)).length) →
      ∃ e, executeUnionDistinct executeSelect hasher left right limits = .error e) := by
  have htypes : ∀ row ∈ leftResult.rows ++ rightResult.rows,
      row.map Value.dataType = leftResult.columns.map ResultColumn.dataType := by
    intro row hrow
    obtain hrow | hrow := List.mem_append.1 hrow
    · exact hleftTyped row hrow
    · exact (hrightTyped row hrow).trans (validateUnionSchema_ok hschema).symm
  have hlengths : ∀ row ∈ leftResult.rows ++ rightResult.rows, row.length = leftResult.columns.length := by
    intro row hrow
    have hlength := congrArg List.length (htypes row hrow)
    rwa [List.length_map, List.length_map] at hlength
  have hsame : firstOccurrences sliceEq [] (leftResult.rows ++ rightResult.rows) =
      firstOccurrences sameRow [] (leftResult.rows ++ rightResult.rows) := by
    apply firstOccurrences_congr
    intro a ha b hb
    exact sliceEq_of_types ((htypes a ha).trans (htypes b hb).symm)
  obtain ⟨hok, herror⟩ := deduplicateUnionRows_eq hasher limits hlengths
  rw [hsame] at hok herror
  rw [executeUnionDistinct, executeUnionOperands, hleft, Exec.ok_bind, hright, Exec.ok_bind, Exec.ok_bind]
  refine ⟨fun h => ?_, fun h => ?_⟩
  · rw [hok h]
    rfl
  · obtain ⟨e, he⟩ := herror h
    rw [he]
    exact ⟨e, rfl⟩

/-! ## CROSS JOIN -/

/-- The product of two lists of rows: every row on the left with each on the right, in this order. -/
def product (leftRows rightRows : List (List Value)) : List (List Value) :=
  leftRows.flatMap fun left => rightRows.map fun right => left ++ right

section
variable {left right : Table} {rowCount : Nat}

theorem joinRightRows_eq {leftRow : Nat} {leftValues : List Value} (hleft : left.rowValues leftRow = some leftValues)
    {rightRows : List Nat} {rightValues : List (List Value)} (hright : rightRows.mapM right.rowValues = some rightValues)
    {rows : List (List Value)} (hrows : rows.length ≤ rowCount) :
    ∃ stopped, joinRightRows left right rowCount leftRow rows rightRows =
        .ok (rows ++ (rightValues.map (leftValues ++ ·)).take (rowCount - rows.length), stopped) ∧
      (stopped = true → rowCount ≤ rows.length + rightValues.length) := by
  induction rightRows generalizing rightValues rows with
  | nil =>
    rw [List.mapM_nil] at hright
    obtain rfl := Option.some.inj hright
    refine ⟨false, ?_, fun h => by cases h⟩
    rw [List.map_nil, List.take_nil, List.append_nil]
    rfl
  | cons rightRow rightRows ih =>
    rw [List.mapM_cons] at hright
    obtain ⟨first, hfirst, hright⟩ := Option.bind_eq_some_iff.1 hright
    obtain ⟨rest, hrest, hright⟩ := Option.bind_eq_some_iff.1 hright
    obtain rfl := Option.some.inj hright
    rw [joinRightRows]
    by_cases hfull : rows.length = rowCount
    · refine ⟨true, ?_, fun _ => ?_⟩
      · rw [if_pos hfull, hfull, Nat.sub_self, List.take_zero, List.append_nil]
      · rw [hfull]
        exact Nat.le_add_right ..
    · have hlength : (rows ++ [leftValues ++ first]).length = rows.length + 1 := List.length_append
      have hroom : rowCount - rows.length = (rowCount - (rows.length + 1)) + 1 := by omega
      have hrows' : (rows ++ [leftValues ++ first]).length ≤ rowCount := by omega
      obtain ⟨stopped, hloop, hstopped⟩ := ih hrest hrows'
      refine ⟨stopped, ?_, fun h => ?_⟩
      · rw [if_neg hfull, hleft, orPanic_some, Exec.ok_bind, hfirst, orPanic_some, Exec.ok_bind, hloop, hlength, hroom,
          List.map_cons, List.take_succ_cons, List.append_assoc]
        rfl
      · have hle := hstopped h
        rw [hlength] at hle
        rw [List.length_cons]
        omega

theorem joinLeftRows_eq {rightValues : List (List Value)} (hright : right.rows = some rightValues) {leftRows : List Nat}
    {leftValues : List (List Value)} (hleft : leftRows.mapM left.rowValues = some leftValues) {rows : List (List Value)}
    (hrows : rows.length ≤ rowCount) : joinLeftRows left right rowCount rows leftRows =
      .ok (rows ++ (product leftValues rightValues).take (rowCount - rows.length)) := by
  induction leftRows generalizing leftValues rows with
  | nil =>
    rw [List.mapM_nil] at hleft
    obtain rfl := Option.some.inj hleft
    rw [product, List.flatMap_nil, List.take_nil, List.append_nil]
    rfl
  | cons leftRow leftRows ih =>
    rw [List.mapM_cons] at hleft
    obtain ⟨first, hfirst, hleft⟩ := Option.bind_eq_some_iff.1 hleft
    obtain ⟨rest, hrest, hleft⟩ := Option.bind_eq_some_iff.1 hleft
    obtain rfl := Option.some.inj hleft
    obtain ⟨stopped, hloop, hstopped⟩ := joinRightRows_eq hfirst hright hrows
    have hpairs : (rightValues.map (first ++ ·)).length = rightValues.length := List.length_map _
    have htake : ((rightValues.map (first ++ ·)).take (rowCount - rows.length)).length =
        min (rowCount - rows.length) rightValues.length := by
      rw [List.length_take, hpairs]
    have hproduct : product (first :: rest) rightValues = rightValues.map (first ++ ·) ++ product rest rightValues :=
      List.flatMap_cons
    rw [joinLeftRows, hloop, Exec.ok_bind, hproduct, List.take_append, hpairs, ← List.append_assoc]
    dsimp only
    by_cases h : stopped = true
    · have hzero : rowCount - rows.length - rightValues.length = 0 := by
        have hle := hstopped h
        omega
      rw [if_pos h, hzero, List.take_zero, List.append_nil]
    · have hroom : (rows ++ (rightValues.map (first ++ ·)).take (rowCount - rows.length)).length ≤ rowCount := by
        rw [List.length_append, htake]
        omega
      rw [if_neg h, ih hrest hroom, List.length_append, htake]
      congr 3
      omega

end

/-! ## Bytes of strings -/

section
variable {declared declared' : List Declared} {left right t : Table}

theorem rowValues_total (h : Table.Consistent declared t) {row : Nat} (hrow : row < t.rowCount) :
    ∃ values, t.rowValues row = some values := by
  refine Table.mapM_total fun column hcolumn => column_value column ?_
  rw [h.columns_len column hcolumn]
  exact hrow

theorem addStringBytes_ne_panic (h : Table.Consistent declared t) (weight bytes : Nat) {rows : List Nat}
    (hrows : ∀ row ∈ rows, row < t.rowCount) : addStringBytes t weight bytes rows ≠ .panic := by
  induction rows generalizing bytes with
  | nil => exact Exec.ok_ne_panic _
  | cons row rows ih =>
    obtain ⟨hrow, hrest⟩ := List.forall_mem_cons.1 hrows
    obtain ⟨values, hvalues⟩ := rowValues_total h hrow
    rw [addStringBytes, stringBytesAt, hvalues]
    exact ih _ hrest

theorem crossJoinStringBytes_ne_panic (hleft : Table.Consistent declared left) (hright : Table.Consistent declared' right)
    {rowCount : Nat} (hle : rowCount ≤ left.rowCount * right.rowCount) : crossJoinStringBytes left right rowCount ≠ .panic := by
  rw [crossJoinStringBytes]
  by_cases hzero : rowCount = 0
  · rw [if_pos hzero]
    exact Exec.ok_ne_panic _
  · have hpositive : 0 < right.rowCount := by
      by_contra hnone
      rw [Nat.eq_zero_of_not_pos hnone, Nat.mul_zero] at hle
      exact hzero (Nat.le_zero.1 hle)
    have hcomplete : rowCount / right.rowCount ≤ left.rowCount := by
      rw [Nat.mul_comm] at hle
      exact Nat.div_le_of_le_mul hle
    have hpart := Nat.mod_lt rowCount hpositive
    have hinside : ∀ {count : Nat} {t : Table}, count ≤ t.rowCount → ∀ row ∈ List.range count, row < t.rowCount :=
      fun hcount row hrow => Nat.lt_of_lt_of_le (List.mem_range.1 hrow) hcount
    have hpartialRight (bytes : Nat) :
        addStringBytes right 1 bytes (List.range (rowCount % right.rowCount)) ≠ .panic :=
      addStringBytes_ne_panic hright _ _ (hinside (Nat.le_of_lt hpart))
    have hwholeRight : addStringBytes right 1 0 (List.range right.rowCount) ≠ .panic :=
      addStringBytes_ne_panic hright _ _ (hinside (Nat.le_refl _))
    rw [if_neg hzero]
    refine Exec.bind_ne_panic (addStringBytes_ne_panic hleft _ _ (hinside hcomplete)) fun bytes _ => ?_
    dsimp only
    by_cases hpartial : rowCount % right.rowCount > 0
    · have hlast : addStringBytes left (rowCount % right.rowCount) bytes [rowCount / right.rowCount] ≠ .panic := by
        refine addStringBytes_ne_panic hleft _ _ fun row hrow => ?_
        rw [List.mem_singleton.1 hrow, Nat.div_lt_iff_lt_mul hpositive]
        refine Nat.lt_of_le_of_ne hle fun heq => ?_
        rw [heq, Nat.mul_mod_left] at hpartial
        exact Nat.lt_irrefl 0 hpartial
      rw [if_pos hpartial]
      refine Exec.bind_ne_panic hlast fun bytes _ => ?_
      by_cases hsome : rowCount / right.rowCount > 0
      · rw [if_pos hsome]
        exact Exec.bind_ne_panic hwholeRight fun _ _ => hpartialRight _
      · rw [if_neg hsome]
        exact hpartialRight _
    · rw [if_neg hpartial, Exec.ok_bind]
      by_cases hsome : rowCount / right.rowCount > 0
      · rw [if_pos hsome]
        exact Exec.bind_ne_panic hwholeRight fun _ _ => hpartialRight _
      · rw [if_neg hsome]
        exact hpartialRight _

end

/-- How many rows of a product a limit leaves. -/
def limitedRows (left right : Table) (limit : Option Nat) : Nat :=
  limit.elim (left.rowCount * right.rowCount) fun limit => min limit (left.rowCount * right.rowCount)

def crossJoinColumns (left right : Table) : List ResultColumn :=
  (left.schema ++ right.schema).map ColumnDef.resultColumn

/-- The tables and the product that remains are within the limits of the query. Only a product without a limit
has to have a size. -/
structure CrossJoinFits (left right : Table) (limit : Option Nat) (limits : QueryResultLimits) : Prop where
  scanLeft : left.rowCount ≤ limits.maxScanRows
  scanRight : right.rowCount ≤ limits.maxScanRows
  count : limit = none → left.rowCount * right.rowCount ≤ usizeMax
  result : validateCrossJoinResultLimits left right (limitedRows left right limit) (crossJoinColumns left right) limits =
    .ok ()

section
variable {db : Database} {left right : Table}

/-- A limit is a size: it is the smaller one when the product is not. -/
theorem limitedCartesianRowCount_some {leftRows rightRows limit : Nat} (hlimit : limit ≤ usizeMax) :
    limitedCartesianRowCount leftRows rightRows (some limit) = .ok (min limit (leftRows * rightRows)) := by
  rw [limitedCartesianRowCount]
  by_cases hfits : leftRows * rightRows ≤ usizeMax
  · rw [Checked.checkedMul_of_le hfits, Nat.min_comm]
    rfl
  · rw [checkedMul, if_neg hfits, Nat.min_eq_left (by omega)]
    rfl

theorem limitedCartesianRowCount_eq_ok {limit : Option Nat} (hlimit : ∀ n, limit = some n → n ≤ usizeMax) {rowCount : Nat} :
    limitedCartesianRowCount left.rowCount right.rowCount limit = .ok rowCount ↔
      (limit = none → left.rowCount * right.rowCount ≤ usizeMax) ∧ rowCount = limitedRows left right limit := by
  cases limit with
  | none =>
    rw [limitedCartesianRowCount, Exec.getOr_eq_ok, Checked.checkedMul_eq_some]
    exact and_congr_left fun _ => ⟨fun h _ => h, fun h => h rfl⟩
  | some limit =>
    rw [limitedCartesianRowCount_some (hlimit limit rfl)]
    exact ⟨fun h => ⟨fun hnone => absurd hnone (Option.some_ne_none limit), (Exec.ok.inj h).symm⟩,
      fun h => congrArg Exec.ok h.2.symm⟩

theorem limitedRows_le (left right : Table) (limit : Option Nat) :
    limitedRows left right limit ≤ left.rowCount * right.rowCount := by
  cases limit with
  | none => exact Nat.le_refl _
  | some limit => exact Nat.min_le_right ..

theorem validateCrossJoinResultLimits_ne_panic {declared declared' : List Declared} (hleft : Table.Consistent declared left)
    (hright : Table.Consistent declared' right) {rowCount : Nat} (hle : rowCount ≤ left.rowCount * right.rowCount)
    (columns : List ResultColumn) (limits : QueryResultLimits) :
    validateCrossJoinResultLimits left right rowCount columns limits ≠ .panic := by
  refine Exec.bind_ne_panic ?_ fun _ _ => Exec.bind_ne_panic (crossJoinStringBytes_ne_panic hleft hright hle) fun _ _ =>
    Exec.rejectIf_ne_panic _ _
  exact Exec.bind_ne_panic (Exec.rejectIf_ne_panic _ _) fun _ _ => Exec.bind_ne_panic (Exec.rejectIf_ne_panic _ _)
    fun _ _ => Exec.bind_ne_panic (Exec.rejectIf_ne_panic _ _) fun _ _ => Exec.ok_ne_panic _

/-- **CROSS JOIN** returns the first rows of the product of the rows of both tables. -/
theorem executeCrossJoin_eq (h : db.Reachable) {crossJoin : CrossJoin}
    (hlimit : ∀ limit, crossJoin.limit = some limit → limit ≤ usizeMax) (limits : QueryResultLimits)
    (hleft : db.catalog.table crossJoin.leftTable = .ok left) (hright : db.catalog.table crossJoin.rightTable = .ok right) :
    ∃ leftRows rightRows, left.rows = some leftRows ∧ right.rows = some rightRows ∧
      (CrossJoinFits left right crossJoin.limit limits → executeCrossJoin db.catalog crossJoin limits =
        .ok ⟨crossJoinColumns left right, (product leftRows rightRows).take (limitedRows left right crossJoin.limit)⟩) ∧
      (¬ CrossJoinFits left right crossJoin.limit limits →
        ∃ e, executeCrossJoin db.catalog crossJoin limits = .error e) := by
  obtain ⟨declared, hleftConsistent, -⟩ := h.sound.good _ _ (Exec.getOr_eq_ok.1 hleft)
  obtain ⟨declared', hrightConsistent, -⟩ := h.sound.good _ _ (Exec.getOr_eq_ok.1 hright)
  obtain ⟨leftRows, hleftRows⟩ := hleftConsistent.rows_total
  obtain ⟨rightRows, hrightRows⟩ := hrightConsistent.rows_total
  have hloop (rowCount : Nat) : joinLeftRows left right rowCount [] (List.range left.rowCount) =
      .ok ((product leftRows rightRows).take rowCount) := joinLeftRows_eq hrightRows hleftRows (Nat.zero_le _)
  refine ⟨leftRows, rightRows, hleftRows, hrightRows, ?_⟩
  rw [executeCrossJoin, hleft, Exec.ok_bind, hright, Exec.ok_bind]
  refine ⟨fun hfits => ?_, fun hfits => ?_⟩
  · have hscanLeft : enforceScanLimit left limits "SELECT scanned rows" = .ok () :=
      Exec.rejectIf_of_not (Nat.not_lt.2 hfits.scanLeft)
    have hscanRight : enforceScanLimit right limits "SELECT scanned rows" = .ok () :=
      Exec.rejectIf_of_not (Nat.not_lt.2 hfits.scanRight)
    rw [hscanLeft, Exec.ok_bind, hscanRight, Exec.ok_bind, (limitedCartesianRowCount_eq_ok hlimit).2 ⟨hfits.count, rfl⟩]
    dsimp only
    rw [Exec.ok_bind, ← crossJoinColumns, hfits.result, Exec.ok_bind, hloop]
    rfl
  · generalize hrun : (do
      enforceScanLimit left limits "SELECT scanned rows"
      enforceScanLimit right limits "SELECT scanned rows"
      let columns := (left.schema ++ right.schema).map ColumnDef.resultColumn
      let rowCount ← limitedCartesianRowCount left.rowCount right.rowCount crossJoin.limit
      validateCrossJoinResultLimits left right rowCount columns limits
      let rows ← joinLeftRows left right rowCount [] (List.range left.rowCount)
      Exec.ok (⟨columns, rows⟩ : QueryResult)) = outcome
    cases outcome with
    | error e => exact ⟨e, rfl⟩
    | ok result =>
      obtain ⟨_, hscanLeft, hrun⟩ := Exec.bind_eq_ok.1 hrun
      obtain ⟨_, hscanRight, hrun⟩ := Exec.bind_eq_ok.1 hrun
      obtain ⟨rowCount, hcount, hrun⟩ := Exec.bind_eq_ok.1 hrun
      obtain ⟨_, hresult, _⟩ := Exec.bind_eq_ok.1 hrun
      obtain ⟨hsize, rfl⟩ := (limitedCartesianRowCount_eq_ok hlimit).1 hcount
      exact absurd ⟨Nat.not_lt.1 (Exec.rejectIf_eq_ok.1 hscanLeft), Nat.not_lt.1 (Exec.rejectIf_eq_ok.1 hscanRight), hsize,
        hresult⟩ hfits
    | panic =>
      refine absurd hrun (Exec.bind_ne_panic (Exec.rejectIf_ne_panic _ _) fun _ _ =>
        Exec.bind_ne_panic (Exec.rejectIf_ne_panic _ _) fun _ _ => Exec.bind_ne_panic ?_ fun rowCount hcount =>
          Exec.bind_ne_panic ?_ fun _ _ => ?_)
      · cases crossJoin.limit with
        | none => exact Exec.getOr_ne_panic _ _
        | some limit => exact Exec.ok_ne_panic _
      · obtain ⟨-, rfl⟩ := (limitedCartesianRowCount_eq_ok hlimit).1 hcount
        exact validateCrossJoinResultLimits_ne_panic hleftConsistent hrightConsistent (limitedRows_le ..) _ _
      · rw [hloop]
        exact Exec.ok_ne_panic _

end

/-- **UNION DISTINCT and CROSS JOIN.** The rows of two operands without those that are the same as an earlier one, and
the first rows of the product of two tables, in the order of the left one, as many as the limit leaves; or an error if
and only if a limit of the query is exceeded. -/
theorem union_distinct_and_cross_join :
    (∀ (hasher : Bytes → UInt64) (executeSelect : Select → Option SelectResultPrefix → Exec Error QueryResult)
      (left right : Select) (limits : QueryResultLimits) (leftResult rightResult : QueryResult),
      executeSelect left none = .ok leftResult →
      executeSelect right (some (.fromResult leftResult "UNION DISTINCT")) = .ok rightResult →
      validateUnionSchema "UNION DISTINCT" leftResult.columns rightResult.columns = .ok () →
      leftResult.Typed → rightResult.Typed →
      (leftResult.rows ++ rightResult.rows = [] ∨ GroupsFit leftResult.columns.length limits
          (firstOccurrences sameRow [] (leftResult.rows ++ rightResult.rows)).length →
        executeUnionDistinct executeSelect hasher left right limits =
          .ok ⟨leftResult.columns, firstOccurrences sameRow [] (leftResult.rows ++ rightResult.rows)⟩) ∧
      (¬ (leftResult.rows ++ rightResult.rows = [] ∨ GroupsFit leftResult.columns.length limits
          (firstOccurrences sameRow [] (leftResult.rows ++ rightResult.rows)).length) →
        ∃ e, executeUnionDistinct executeSelect hasher left right limits = .error e)) ∧
    (∀ (db : Database), db.Reachable → ∀ (crossJoin : CrossJoin), (∀ limit, crossJoin.limit = some limit → limit ≤ usizeMax) →
      ∀ (limits : QueryResultLimits) (left right : Table), db.catalog.table crossJoin.leftTable = .ok left →
      db.catalog.table crossJoin.rightTable = .ok right →
      ∃ leftRows rightRows, left.rows = some leftRows ∧ right.rows = some rightRows ∧
        (CrossJoinFits left right crossJoin.limit limits → executeCrossJoin db.catalog crossJoin limits =
          .ok ⟨crossJoinColumns left right, (product leftRows rightRows).take (limitedRows left right crossJoin.limit)⟩) ∧
        (¬ CrossJoinFits left right crossJoin.limit limits →
          ∃ e, executeCrossJoin db.catalog crossJoin limits = .error e)) := by
  refine ⟨?_, ?_⟩
  · intro hasher executeSelect left right limits leftResult rightResult hleft hright hschema hleftTyped hrightTyped
    exact executeUnionDistinct_eq hasher limits hleft hright hschema hleftTyped hrightTyped
  · intro db h crossJoin hlimit limits left right hleft hright
    exact executeCrossJoin_eq h hlimit limits hleft hright

/-- Two operands with a NULL each and zeros of both signs. -/
def zeroOperand (bits : UInt64) : QueryResult where
  columns := [⟨"x", .float64⟩, ⟨"n", .int64⟩]
  rows := [[.float64 ⟨bits⟩, .null .int64], [.float64 ⟨bits⟩, .int64 1]]

def zeroSelect (table : String) : Select :=
  { distinct := false, items := [], table, predicate := none, groupBy := [], having := none, orderBy := [], limit := none,
    offset := none }

def zeroSelects (select : Select) (_ : Option SelectResultPrefix) : Exec Error QueryResult :=
  .ok (zeroOperand (if select.table = "l" then 0 else 0x8000000000000000))

def tableSample (db : Database) : Bool :=
  match db.catalog.table "t" with
  | .ok t => t.rowCount = 1 ∧ t.rows = some [[.int64 1]] ∧
    validateCrossJoinResultLimits t t 1 (crossJoinColumns t t) .default = .ok ()
  | _ => false

theorem joinSample_outcome : (Database.runSample .new).map (fun outcome => tableSample outcome.2) = some true := by
  decide +kernel

theorem union_distinct_and_cross_join_sample :
    executeUnionDistinct zeroSelects (fun _ => 0) (zeroSelect "l") (zeroSelect "r") .default = .ok (zeroOperand 0) ∧
    ∃ outcome db t, Database.runSample .new = some (outcome, db) ∧ db.catalog.table "t" = .ok t ∧
      executeCrossJoin db.catalog ⟨"t", "t", some usizeMax⟩ .default =
        .ok ⟨crossJoinColumns t t, [[.int64 1, .int64 1]]⟩ := by
  refine ⟨?_, ?_⟩
  · have hunion := union_distinct_and_cross_join.1 (fun _ => 0) zeroSelects (zeroSelect "l") (zeroSelect "r") .default
      (zeroOperand 0) (zeroOperand 0x8000000000000000) rfl rfl rfl (by unfold QueryResult.Typed; decide)
      (by unfold QueryResult.Typed; decide)
    refine (hunion.1 (.inr ?_)).trans (by decide)
    unfold GroupsFit
    decide
  · obtain ⟨⟨outcome, db⟩, hrun, hvalues⟩ := Option.map_eq_some_iff.1 joinSample_outcome
    unfold tableSample at hvalues
    dsimp only at hvalues
    split at hvalues
    · rename_i t ht
      obtain ⟨hcount, hrows, hvalid⟩ := of_decide_eq_true hvalues
      have hlimited : limitedRows t t (some usizeMax) = 1 := by
        rw [limitedRows, hcount]
        decide
      obtain ⟨leftRows, rightRows, hleft, hright, hjoin, -⟩ := union_distinct_and_cross_join.2 db (.script .new hrun)
        ⟨"t", "t", some usizeMax⟩ (fun limit h => Option.some.inj h ▸ Nat.le_refl _) .default t t ht ht
      obtain rfl := Option.some.inj (hrows.symm.trans hleft)
      obtain rfl := Option.some.inj (hrows.symm.trans hright)
      refine ⟨outcome, db, t, hrun, ht, (hjoin ⟨?_, ?_, fun h => absurd h (Option.some_ne_none _), ?_⟩).trans ?_⟩
      · rw [hcount]
        decide
      · rw [hcount]
        decide
      · rw [hlimited]
        exact hvalid
      · rw [hlimited]
        rfl
    · cases hvalues

end RustHouse.Batch
