import RustHouse.OneColumn

/-!
# Queries of one column are what they say

A statement answers with the values it selects from the column, or fails when one
of the bounds that its operators consume is exceeded.
-/

namespace RustHouse.OneColumn

open Checked Exec

/-! ## Answers -/

/-- A computation that fails exactly when a condition holds, and else answers. -/
structure Answers {ε α : Type} (result : Exec ε α) (refused : Prop) (answer : α) : Prop where
  fails : refused → ∃ e, result = .error e
  returns : ¬ refused → result = .ok answer

namespace Answers

variable {ε δ α β : Type} {x : Exec ε α} {f : α → Exec ε β} {c d : Prop} {a : α} {b : β}

theorem ok : Answers (.ok a : Exec ε α) False a := ⟨False.elim, fun _ => rfl⟩

theorem of_eq (h : x = .ok a) : Answers x False a := ⟨False.elim, fun _ => h⟩

theorem reject [Decidable c] {e : ε} : Answers (rejectIf c e) c () where
  fails h := ⟨e, rejectIf_of h⟩
  returns h := rejectIf_of_not h

theorem bind (hx : Answers x c a) (hf : Answers (f a) d b) : Answers (x >>= f) (c ∨ d) b where
  fails h := by
    by_cases hc : c
    · obtain ⟨e, he⟩ := hx.fails hc
      exact ⟨e, by rw [he]; rfl⟩
    · obtain ⟨e, he⟩ := hf.fails (h.resolve_left hc)
      exact ⟨e, by rw [hx.returns hc]; exact he⟩
  returns h := by
    rw [hx.returns fun hc => h (.inl hc)]
    exact hf.returns fun hd => h (.inr hd)

theorem mapError {g : ε → δ} (hx : Answers x c a) : Answers (mapError g x) c a where
  fails h := by
    obtain ⟨e, he⟩ := hx.fails h
    exact ⟨g e, by rw [he]; rfl⟩
  returns h := by
    rw [hx.returns h]
    rfl

theorem congr (h : c ↔ d) (hx : Answers x c a) : Answers x d a :=
  ⟨fun hd => hx.fails (h.2 hd), fun hd => hx.returns fun hc => hd (h.1 hc)⟩

end Answers

/-! ## Scans -/

section
variable {values : List (Option Int64)} {limits : ScanLimits} {accepts : Option Int64 → Bool}

def matchingPositions (values : List (Option Int64)) (accepts : Option Int64 → Bool) : List (Option Int64 × Nat) :=
  values.zipIdx.filter fun row => accepts row.1

theorem matchingPositions_fst : (matchingPositions values accepts).map (·.1) = values.filter accepts := by
  have hfilter := List.filter_map (f := Prod.fst) (p := accepts) (l := values.zipIdx)
  rw [List.zipIdx_map_fst] at hfilter
  exact hfilter.symm

theorem length_matchingPositions : (matchingPositions values accepts).length = (values.filter accepts).length := by
  rw [← matchingPositions_fst, List.length_map]

theorem foldlM_scanRow (rows : List (Option Int64 × Nat)) {found : List Nat} (hfound : found.length ≤ limits.maxResultRows) :
    rows.foldlM (scanRow limits accepts) found =
      if found.length + (rows.filter fun row => accepts row.1).length > limits.maxResultRows then
        .error (.resultLimitExceeded (saturatingAdd limits.maxResultRows 1) limits.maxResultRows)
      else .ok (found ++ (rows.filter fun row => accepts row.1).map (·.2)) := by
  induction rows generalizing found with
  | nil => simp [hfound, pure]
  | cons row rows ih =>
    rw [List.foldlM_cons, scanRow]
    by_cases haccepts : accepts row.1 = true
    · rw [if_pos haccepts, List.filter_cons, if_pos haccepts]
      by_cases hfull : found.length = limits.maxResultRows
      · rw [rejectIf_of hfull, if_pos (by simp [hfull]), hfull]
        rfl
      · rw [rejectIf_of_not hfull, Exec.ok_bind, Exec.ok_bind, ih (by simp; omega)]
        simp [Nat.add_assoc, Nat.add_comm 1]
    · rw [if_neg haccepts, List.filter_cons, if_neg haccepts, Exec.ok_bind, ih hfound]

theorem scanMatchingRows_eq : scanMatchingRows values limits accepts =
    if values.length > limits.maxInputRows then .error (.inputLimitExceeded values.length limits.maxInputRows)
    else if (values.filter accepts).length > limits.maxResultRows then
      .error (.resultLimitExceeded (saturatingAdd limits.maxResultRows 1) limits.maxResultRows)
    else .ok ((matchingPositions values accepts).map (·.2)) := by
  unfold scanMatchingRows
  by_cases hinput : values.length > limits.maxInputRows
  · rw [rejectIf_of hinput, if_pos hinput]
    rfl
  · rw [rejectIf_of_not hinput, if_neg hinput, Exec.ok_bind, foldlM_scanRow _ (Nat.zero_le _), List.length_nil,
      Nat.zero_add, List.nil_append]
    rw [show (values.zipIdx.filter fun row => accepts row.1) = matchingPositions values accepts from rfl,
      length_matchingPositions]

end

theorem valuesAt_positions {ε : Type} {values : List (Option Int64)} {rows : List (Option Int64 × Nat)}
    (h : ∀ row ∈ rows, row ∈ values.zipIdx) : (valuesAt values (rows.map (·.2)) : Exec ε _) = .ok (rows.map (·.1)) := by
  have hread : (rows.map (·.2)).mapM (fun rowIndex => values[rowIndex]?) = some (rows.map (·.1)) := by
    induction rows with
    | nil => rfl
    | cons row rows ih =>
      have hrow : values[row.2]? = some row.1 := List.mem_zipIdx_iff_getElem?.1 (h row (List.mem_cons_self ..))
      have hrest := ih fun other hother => h other (List.mem_cons_of_mem _ hother)
      rw [List.map_cons, List.mapM_cons, hrow, hrest]
      rfl
  rw [valuesAt, hread, orPanic_some]

def matching (values : List (Option Int64)) : Option (Option Int64 → Bool) → List (Option Int64)
  | none => values
  | some accepts => values.filter accepts

/-- The bounds of a scan, which a statement without a condition does not run. -/
def ScanExceeded (values : List (Option Int64)) (condition : Option (Option Int64 → Bool)) (limits : ScanLimits) :
    Prop :=
  condition.isSome ∧
    (values.length > limits.maxInputRows ∨ (matching values condition).length > limits.maxResultRows)

theorem scan_answers (values : List (Option Int64)) (accepts : Option Int64 → Bool) (limits : ScanLimits) :
    Answers (scanMatchingRows values limits accepts) (ScanExceeded values (some accepts) limits)
      ((matchingPositions values accepts).map (·.2)) := by
  rw [scanMatchingRows_eq]
  simp only [ScanExceeded, matching, Option.isSome_some, true_and]
  constructor
  · intro h
    by_cases hinput : values.length > limits.maxInputRows
    · exact ⟨_, if_pos hinput⟩
    · rw [if_neg hinput, if_pos (h.resolve_left hinput)]
      exact ⟨_, rfl⟩
  · intro h
    rw [not_or] at h
    rw [if_neg h.1, if_neg h.2]

theorem mem_of_matching {values : List (Option Int64)} {accepts : Option Int64 → Bool} {row : Option Int64 × Nat}
    (h : row ∈ matchingPositions values accepts) : row ∈ values.zipIdx := (List.mem_filter.1 h).1

/-! ## Ordering -/

/-- Which of two values goes before the other, or may. -/
def before (direction : OrderDirection) (nullOrder : NullOrder) : Option Int64 → Option Int64 → Bool
  | none, none => true
  | none, some _ => nullOrder = .first
  | some _, none => nullOrder = .last
  | some a, some b =>
    match direction with
    | .asc => a ≤ b
    | .desc => b ≤ a

def stablyOrdered (direction : OrderDirection) (nullOrder : NullOrder) (values : List (Option Int64)) :
    List (Option Int64) :=
  values.mergeSort (before direction nullOrder)

section
variable {direction : OrderDirection} {nullOrder : NullOrder}

theorem before_trans (a b c : Option Int64) (hab : before direction nullOrder a b = true)
    (hbc : before direction nullOrder b c = true) : before direction nullOrder a c = true := by
  cases a <;> cases b <;> cases c <;> cases direction <;> cases nullOrder <;>
    simp_all only [before, decide_eq_true_eq, reduceCtorEq, decide_true, decide_false, Bool.false_eq_true]
  · exact Int64.le_trans hab hbc
  · exact Int64.le_trans hab hbc
  · exact Int64.le_trans hbc hab
  · exact Int64.le_trans hbc hab

theorem before_total (a b : Option Int64) :
    (before direction nullOrder a b || before direction nullOrder b a) = true := by
  cases a <;> cases b <;> cases direction <;> cases nullOrder <;> simp [before, Int64.le_total]

theorem xor_two_pow_63 {n : Nat} (h : n < 2 ^ 64) : n ^^^ 2 ^ 63 = if n < 2 ^ 63 then n + 2 ^ 63 else n - 2 ^ 63 := by
  have hmod : (n ^^^ 2 ^ 63) % 2 ^ 63 = n % 2 ^ 63 := by rw [Nat.xor_mod_two_pow, Nat.mod_self, Nat.xor_zero]
  have hdiv : (n ^^^ 2 ^ 63) / 2 ^ 63 = n / 2 ^ 63 ^^^ 1 := by rw [Nat.xor_div_two_pow, Nat.div_self (by decide)]
  obtain hbit | hbit : n / 2 ^ 63 = 0 ∨ n / 2 ^ 63 = 1 := by omega
  · rw [hbit, Nat.zero_xor] at hdiv
    rw [if_pos (by omega)]
    omega
  · rw [hbit, Nat.xor_self] at hdiv
    rw [if_neg (by omega)]
    omega

theorem ascendingRank_toNat (value : Int64) : ((OrderKey.ascendingRank value).toNat : Int) = value.toInt + 2 ^ 63 := by
  have hrank : (OrderKey.ascendingRank value).toNat = value.toUInt64.toNat ^^^ 2 ^ 63 := by
    rw [OrderKey.ascendingRank, UInt64.toNat_xor]
    rfl
  have hvalue : value.toInt = value.toUInt64.toBitVec.toInt := rfl
  have hbits : value.toUInt64.toBitVec.toNat = value.toUInt64.toNat := rfl
  have hlt := value.toUInt64.toNat_lt
  rw [hrank, xor_two_pow_63 hlt, hvalue, BitVec.toInt_eq_toNat_cond]
  split <;> omega

theorem key_le_iff {a b : OrderKey} : a ≤ b ↔ a.nullRank < b.nullRank ∨ a.nullRank = b.nullRank ∧
    (a.valueRank.toNat < b.valueRank.toNat ∨ a.valueRank.toNat = b.valueRank.toNat ∧ a.sourceIndex ≤ b.sourceIndex) := by
  rw [show a ≤ b ↔ a.fields ≤ b.fields from Iff.rfl, OrderKey.fields, OrderKey.fields, Prod.Lex.toLex_le_toLex,
    Prod.Lex.toLex_le_toLex]

/-- Keys stand in the order of their values, and of their positions where the values are equal. -/
theorem new_le_new (a b : Option Int64 × Nat) :
    OrderKey.new a.1 a.2 direction nullOrder ≤ OrderKey.new b.1 b.2 direction nullOrder ↔
      List.zipIdxLE (before direction nullOrder) a b = true := by
  obtain ⟨a, i⟩ := a
  obtain ⟨b, j⟩ := b
  rw [key_le_iff]
  cases a with
  | none =>
    cases b with
    | none => cases nullOrder <;> simp [OrderKey.new, List.zipIdxLE, before]
    | some b => cases nullOrder <;> simp [OrderKey.new, List.zipIdxLE, before]
  | some a =>
    cases b with
    | none => cases nullOrder <;> simp [OrderKey.new, List.zipIdxLE, before]
    | some b =>
      have hrankA := ascendingRank_toNat a
      have hrankB := ascendingRank_toNat b
      have hboundA := UInt64.toNat_lt (OrderKey.ascendingRank a)
      have hboundB := UInt64.toNat_lt (OrderKey.ascendingRank b)
      cases direction with
      | asc => cases nullOrder <;> simp [OrderKey.new, List.zipIdxLE, before, Int64.le_iff_toInt_le] <;> grind
      | desc => cases nullOrder <;> simp [OrderKey.new, List.zipIdxLE, before, Int64.le_iff_toInt_le] <;> grind

def orderedPositions (direction : OrderDirection) (nullOrder : NullOrder) (values : List (Option Int64)) :
    List (Option Int64 × Nat) :=
  values.zipIdx.mergeSort (List.zipIdxLE (before direction nullOrder))

theorem orderedPositions_fst (values : List (Option Int64)) :
    (orderedPositions direction nullOrder values).map (·.1) = stablyOrdered direction nullOrder values :=
  List.mergeSort_zipIdx

theorem mem_of_ordered {values : List (Option Int64)} {row : Option Int64 × Nat}
    (h : row ∈ orderedPositions direction nullOrder values) : row ∈ values.zipIdx := List.mem_mergeSort.1 h

theorem sorted_keys (values : List (Option Int64)) :
    (values.zipIdx.map fun row => OrderKey.new row.1 row.2 direction nullOrder).insertionSort (· ≤ ·) =
      (orderedPositions direction nullOrder values).map fun row => OrderKey.new row.1 row.2 direction nullOrder := by
  have hordered := List.pairwise_mergeSort (List.zipIdxLE_trans (@before_trans direction nullOrder))
    (List.zipIdxLE_total before_total) values.zipIdx
  apply List.Perm.eq_of_sortedLE
  · exact List.sortedLE_insertionSort
  · exact (List.pairwise_map.2 (hordered.imp fun h => (new_le_new _ _).2 h)).sortedLE
  · exact (List.perm_insertionSort _ _).trans ((List.mergeSort_perm _ _).map _).symm

/-- **Top rows.** Ordering returns the positions of the first values of the column in order. -/
theorem orderNullableI64_eq (values : List (Option Int64)) (limit : Nat) (limits : OrderLimits) :
    orderNullableI64 values direction nullOrder limit limits =
      if values.length > limits.maxInputRows then .error (.inputLimitExceeded values.length limits.maxInputRows)
      else if limit > limits.maxLimit then .error (.limitExceeded limit limits.maxLimit)
      else .ok (((orderedPositions direction nullOrder values).take limit).map (·.2)) := by
  unfold orderNullableI64
  by_cases hinput : values.length > limits.maxInputRows
  · rw [rejectIf_of hinput, if_pos hinput]
    rfl
  by_cases hlimit : limit > limits.maxLimit
  · rw [rejectIf_of_not hinput, rejectIf_of hlimit, if_neg hinput, if_pos hlimit]
    rfl
  rw [rejectIf_of_not hinput, rejectIf_of_not hlimit, if_neg hinput, if_neg hlimit, Exec.ok_bind, Exec.ok_bind]
  have hlength : (orderedPositions direction nullOrder values).length = values.length := by
    rw [orderedPositions, List.length_mergeSort, List.length_zipIdx]
  by_cases hnothing : limit = 0 ∨ values.isEmpty
  · have hnone : (orderedPositions direction nullOrder values).take limit = [] := by
      rw [List.take_eq_nil_iff]
      refine hnothing.imp_right fun hempty => ?_
      rw [← List.length_eq_zero_iff, hlength, List.length_eq_zero_iff]
      exact List.isEmpty_iff.1 hempty
    rw [if_pos hnothing, hnone]
    rfl
  · rw [if_neg hnothing]
    dsimp only
    rw [BoundedHeap.smallest_eq, sorted_keys, ← List.map_take, List.map_map, ← hlength,
      ← List.take_eq_take_min]
    rfl

def sortedRows (direction : OrderDirection) (nullOrder : NullOrder) (values : List (Option Int64)) : List Nat :=
  (List.range values.length).mergeSort fun i j => before direction nullOrder (values.getD i none) (values.getD j none)

theorem sortedRows_eq (values : List (Option Int64)) :
    sortedRows direction nullOrder values = (orderedPositions direction nullOrder values).map (·.2) := by
  let earlier (i j : Nat) : Bool := before direction nullOrder (values.getD i none) (values.getD j none)
  -- Both sides are the rows under this order, which breaks ties by position.
  let earlierRow (i j : Nat) : Bool := List.zipIdxLE earlier (i, i) (j, j)
  have hrows : (List.range values.length).zipIdx = (List.range values.length).map fun i => (i, i) := by
    apply List.ext_getElem
    · simp
    · intro i hi _
      simp
  have hvalues : values.zipIdx = (List.range values.length).map fun i => (values.getD i none, i) := by
    apply List.ext_getElem
    · simp
    · intro i hi _
      rw [List.length_zipIdx] at hi
      simp [List.getD_eq_getElem?_getD, hi]
  have hrowKeys : ((List.range values.length).mergeSort earlierRow).map (fun i => (i, i)) =
      ((List.range values.length).map fun i => (i, i)).mergeSort (List.zipIdxLE earlier) :=
    List.map_mergeSort fun _ _ _ _ => rfl
  have hvalueKeys : ((List.range values.length).mergeSort earlierRow).map (fun i => (values.getD i none, i)) =
      ((List.range values.length).map fun i => (values.getD i none, i)).mergeSort
        (List.zipIdxLE (before direction nullOrder)) :=
    List.map_mergeSort fun _ _ _ _ => rfl
  have hsorted : sortedRows direction nullOrder values = (List.range values.length).mergeSort earlierRow := by
    rw [sortedRows, ← List.mergeSort_zipIdx, hrows, ← hrowKeys, List.map_map]
    exact List.map_id _
  rw [hsorted, orderedPositions, hvalues, ← hvalueKeys, List.map_map]
  exact (List.map_id _).symm

theorem order_answers (values : List (Option Int64)) (limit : Nat) (limits : OrderLimits) :
    Answers (orderNullableI64 values direction nullOrder limit limits)
      (values.length > limits.maxInputRows ∨ limit > limits.maxLimit)
      (((orderedPositions direction nullOrder values).take limit).map (·.2)) := by
  rw [orderNullableI64_eq]
  constructor
  · intro h
    by_cases hinput : values.length > limits.maxInputRows
    · exact ⟨_, if_pos hinput⟩
    · rw [if_neg hinput, if_pos (h.resolve_left hinput)]
      exact ⟨_, rfl⟩
  · intro h
    rw [not_or] at h
    rw [if_neg h.1, if_neg h.2]

end

/-- **Bounded top-k.** The heap of the best rows ends with the first rows of the stably sorted column. -/
theorem order_is_sort_then_take (values : List (Option Int64)) (direction : OrderDirection) (nullOrder : NullOrder)
    (limit : Nat) (limits : OrderLimits) (hinput : values.length ≤ limits.maxInputRows) (hlimit : limit ≤ limits.maxLimit) :
    orderNullableI64 values direction nullOrder limit limits =
      .ok ((sortedRows direction nullOrder values).take limit) := by
  rw [orderNullableI64_eq, if_neg (Nat.not_lt.2 hinput), if_neg (Nat.not_lt.2 hlimit), sortedRows_eq, List.map_take]

theorem order_is_sort_then_take_extremes :
    orderNullableI64 [some Int64.minValue, none, some Int64.maxValue, some Int64.minValue] .desc .last 3 ⟨4, 3⟩ =
      .ok ((sortedRows .desc .last [some Int64.minValue, none, some Int64.maxValue, some Int64.minValue]).take 3) :=
  order_is_sort_then_take _ _ _ _ _ (by decide) (by decide)

/-! ## Aggregates -/

/-- The rows of an optional condition. -/
def selectionOf (values : List (Option Int64)) : Option (Option Int64 → Bool) → RowSelection
  | none => .all
  | some accepts => .indices ((matchingPositions values accepts).map (·.2))

def AggregateExceeded (values : List (Option Int64)) (condition : Option (Option Int64 → Bool))
    (limits : AggregateLimits) : Prop :=
  values.length > limits.maxInputRows ∨ (matching values condition).length > limits.maxSelectedRows

theorem validateSelectionFrom_increasing {inputRows : Nat} {rows : List Nat} (hbound : ∀ row ∈ rows, row < inputRows)
    (hincreasing : rows.Pairwise (· < ·)) (selectionPosition : Nat) {previous : Option Nat}
    (hprevious : ∀ before ∈ previous, ∀ row ∈ rows, before < row) :
    validateSelectionFrom inputRows selectionPosition previous rows = .ok () := by
  induction rows generalizing selectionPosition previous with
  | nil => rfl
  | cons row rows ih =>
    obtain ⟨hrow, hrows⟩ := List.forall_mem_cons.1 hbound
    obtain ⟨hfirst, hrest⟩ := List.pairwise_cons.1 hincreasing
    have hpreceding : validatePrevious selectionPosition row previous = .ok () := by
      cases previous with
      | none => rfl
      | some before =>
        exact rejectIf_of_not (Nat.not_le.2 (hprevious before rfl row (List.mem_cons_self ..)))
    rw [validateSelectionFrom, rejectIf_of_not (Nat.not_le.2 hrow), hpreceding]
    exact ih hrows hrest _ fun before hbefore other hother => by
      obtain rfl := Option.mem_some.1 hbefore
      exact hfirst other hother

section
variable (values : List (Option Int64)) (condition : Option (Option Int64 → Bool))

theorem validateSelection_of_scan : validateSelection values.length (selectionOf values condition) = .ok () := by
  cases condition with
  | none => rfl
  | some accepts =>
    apply validateSelectionFrom_increasing
    · intro row hrow
      obtain ⟨position, hposition, rfl⟩ := List.mem_map.1 hrow
      exact (List.getElem?_eq_some_iff.1 (List.mem_zipIdx_iff_getElem?.1 (mem_of_matching hposition))).1
    · have hpositions : (values.zipIdx.map (·.2)).Pairwise (· < ·) := by
        rw [List.zipIdx_map_snd]
        exact List.pairwise_lt_range'
      exact hpositions.sublist (List.filter_sublist.map _)
    · intro before hbefore
      cases hbefore

theorem selectedValues_of_scan {ε : Type} :
    (selectedValues values (selectionOf values condition) : Exec ε _) = .ok (matching values condition) := by
  cases condition with
  | none => rfl
  | some accepts =>
    exact (valuesAt_positions fun _ => mem_of_matching).trans (congrArg _ matchingPositions_fst)

theorem rowCount_of_scan : (selectionOf values condition).rowCount values.length = (matching values condition).length := by
  cases condition with
  | none => rfl
  | some accepts => exact (List.length_map _).trans length_matchingPositions

theorem validate_answers (limits : AggregateLimits) :
    Answers (validateAggregateInput values.length (selectionOf values condition) limits)
      (AggregateExceeded values condition limits) (matching values condition).length := by
  unfold validateAggregateInput
  rw [rowCount_of_scan, validateSelection_of_scan]
  refine .congr ?_ (.bind .reject (.bind .reject (.bind .ok .ok)))
  rw [or_false, or_false, AggregateExceeded]

theorem count_answers (limits : AggregateLimits) :
    Answers (countNullableI64 values (selectionOf values condition) limits) (AggregateExceeded values condition limits)
      ⟨(matching values condition).length, ((matching values condition).filter Option.isSome).length⟩ := by
  unfold countNullableI64
  rw [selectedValues_of_scan]
  refine .congr ?_ (.bind (validate_answers values condition limits) (.bind .ok .ok))
  rw [or_false, or_false]

theorem min_answers (limits : AggregateLimits) :
    Answers (minNullableI64 values (selectionOf values condition) limits) (AggregateExceeded values condition limits)
      (matching values condition).reduceOption.min? := by
  unfold minNullableI64
  rw [selectedValues_of_scan]
  refine .congr ?_ (.bind (validate_answers values condition limits) (.bind .ok .ok))
  rw [or_false, or_false]

end

def exactSum (values : List (Option Int64)) : Option Int :=
  if values.reduceOption = [] then none else some (values.reduceOption.map Int64.toInt).sum

/-- A sum that no `Int64` represents. -/
def SumOverflows (values : List (Option Int64)) : Prop := ∃ sum ∈ exactSum values, ¬ ∃ v : Int64, v.toInt = sum

theorem foldl_aggregateStep (values : List Int64) (counted : Nat × Int) :
    values.foldl aggregateStep counted = (counted.1 + values.length, counted.2 + (values.map Int64.toInt).sum) := by
  induction values generalizing counted with
  | nil => simp
  | cons value values ih =>
    rw [List.foldl_cons, ih, aggregateStep]
    simp only [List.length_cons, List.map_cons, List.sum_cons, Prod.mk.injEq]
    omega

theorem tryInt64_toInt (v : Int64) : tryInt64 v.toInt = some v := by
  rw [tryInt64, if_pos ⟨Int64.minValue_le_toInt v, Int64.toInt_le v⟩, Int64.ofInt_toInt]

theorem tryInt64_eq_none {n : Int} (h : ¬ ∃ v : Int64, v.toInt = n) : tryInt64 n = none := by
  refine if_neg fun ⟨hlow, hhigh⟩ => h ⟨Int64.ofInt n, Int64.toInt_ofInt_of_le hlow ?_⟩
  have : Int64.maxValue.toInt = 2 ^ 63 - 1 := rfl
  omega

theorem finalSum_answers (values : List (Option Int64)) :
    Answers (finalSum values.reduceOption.length (values.reduceOption.map Int64.toInt).sum) (SumOverflows values)
      ((exactSum values).map Int64.ofInt) := by
  unfold finalSum SumOverflows exactSum
  by_cases hnone : values.reduceOption = []
  · simp only [hnone, List.length_nil, if_true]
    exact .congr (by simp) .ok
  · have hcount : values.reduceOption.length ≠ 0 := fun h => hnone (List.length_eq_zero_iff.1 h)
    rw [if_neg hcount, if_neg hnone]
    constructor
    · intro ⟨sum, hsum, hoverflow⟩
      obtain rfl := Option.mem_some.1 hsum
      exact ⟨_, by rw [tryInt64_eq_none hoverflow]; rfl⟩
    · intro h
      obtain ⟨v, hv⟩ := not_not.1 fun hoverflow => h ⟨_, rfl, hoverflow⟩
      rw [← hv, tryInt64_toInt, getOr_some, Option.map_some, Int64.ofInt_toInt]
      rfl

theorem aggregateValues_answers (values : List (Option Int64)) (countStar : Nat) :
    Answers (aggregateValues values countStar) (SumOverflows values)
      ⟨countStar, values.reduceOption.length, (exactSum values).map Int64.ofInt⟩ := by
  unfold aggregateValues
  simp only [foldl_aggregateStep, Nat.zero_add, Int.zero_add]
  refine .congr ?_ (.bind (finalSum_answers values) .ok)
  rw [or_false]

theorem sum_answers (values : List (Option Int64)) (condition : Option (Option Int64 → Bool)) (limits : AggregateLimits) :
    Answers (aggregateNullableI64 values (selectionOf values condition) limits)
      (AggregateExceeded values condition limits ∨ SumOverflows (matching values condition))
      ⟨(matching values condition).length, (matching values condition).reduceOption.length,
        (exactSum (matching values condition)).map Int64.ofInt⟩ := by
  unfold aggregateNullableI64
  rw [selectedValues_of_scan]
  refine .congr ?_ (.bind (validate_answers values condition limits) (.bind .ok (aggregateValues_answers _ _)))
  rw [false_or]

/-! ## Statements -/

def ComparisonPredicate.matches (predicate : ComparisonPredicate) (value : Option Int64) : Bool :=
  value.any (predicate.operator.matches · predicate.value)

def SelectPredicate.matches : SelectPredicate → Option Int64 → Bool
  | .comparison predicate => predicate.matches
  | .nullness predicate => predicate.predicate.matches

section
variable (expectedTableName : String) (table : Int64Table)

def Unknown (tableName : String) (columnNames : List String) : Prop :=
  tableName ≠ expectedTableName ∨ ∃ name ∈ columnNames, name ≠ table.schema.column.name

theorem checkTable_answers (name : String) : Answers (checkTable expectedTableName name) (name ≠ expectedTableName) () :=
  .reject

theorem checkColumn_answers (name : String) :
    Answers (checkColumn table name) (name ≠ table.schema.column.name) () := .reject

theorem checkColumnOf_answers (name : Option String) :
    Answers (checkColumnOf table name) (∃ n ∈ name, n ≠ table.schema.column.name) () := by
  cases name with
  | none => exact .congr (by simp) .ok
  | some name => exact .congr (by simp) (checkColumn_answers table name)

theorem comparedRows_answers (values : List (Option Int64)) (predicate : Option ComparisonPredicate) (limits : ScanLimits) :
    Answers (comparedRows values predicate limits)
      (ScanExceeded values (predicate.map ComparisonPredicate.matches) limits)
      (selectionOf values (predicate.map ComparisonPredicate.matches)) := by
  cases predicate with
  | none => exact .congr (by simp [ScanExceeded]) .ok
  | some predicate =>
    refine .congr ?_ (.bind (.mapError (scan_answers values predicate.matches limits)) .ok)
    rw [or_false]
    rfl

/-! ### Scalar aggregates -/

def ScalarCountStatement.condition (statement : ScalarCountStatement) : Option (Option Int64 → Bool) :=
  statement.predicate.map ComparisonPredicate.matches

def ScalarCountStatement.columnNames (statement : ScalarCountStatement) : List String :=
  statement.argument.columnName.toList ++ (statement.predicate.map (·.columnName)).toList

/-- `COUNT(*)` counts the selected values, `COUNT(column)` those that are not NULL. -/
def ScalarCountStatement.count (statement : ScalarCountStatement) (values : List (Option Int64)) : Nat :=
  match statement.argument with
  | .star => (matching values statement.condition).length
  | .column _ => ((matching values statement.condition).filter Option.isSome).length

def ScalarSumStatement.condition (statement : ScalarSumStatement) : Option (Option Int64 → Bool) :=
  statement.predicate.map ComparisonPredicate.matches

def ScalarSumStatement.columnNames (statement : ScalarSumStatement) : List String :=
  statement.columnName :: (statement.predicate.map (·.columnName)).toList

theorem executeScalarCount_answers (statement : ScalarCountStatement) (scanLimits : ScanLimits)
    (aggregateLimits : AggregateLimits) :
    Answers (executeScalarCountWithLimits expectedTableName table statement scanLimits aggregateLimits)
      (Unknown expectedTableName table statement.tableName statement.columnNames ∨
        ScanExceeded table.values statement.condition scanLimits ∨
        AggregateExceeded table.values statement.condition aggregateLimits)
      (statement.count table.values) := by
  have hanswer : (if statement.argument.columnName.isSome then
      ((matching table.values statement.condition).filter Option.isSome).length
      else (matching table.values statement.condition).length) = statement.count table.values := by
    unfold ScalarCountStatement.count
    cases statement.argument <;> rfl
  unfold executeScalarCountWithLimits
  rw [← hanswer]
  refine .congr ?_ (.bind (checkTable_answers ..) (.bind (checkColumnOf_answers ..) (.bind (checkColumnOf_answers ..)
    (.bind (comparedRows_answers ..) (.bind (.mapError (count_answers ..)) .ok)))))
  simp only [or_false, Unknown, ScalarCountStatement.columnNames, List.mem_append, Option.mem_toList, or_and_right,
    exists_or, or_assoc]
  rfl

theorem executeScalarSum_answers (statement : ScalarSumStatement) (scanLimits : ScanLimits)
    (aggregateLimits : AggregateLimits) :
    Answers (executeScalarSumWithLimits expectedTableName table statement scanLimits aggregateLimits)
      (Unknown expectedTableName table statement.tableName statement.columnNames ∨
        ScanExceeded table.values statement.condition scanLimits ∨
        AggregateExceeded table.values statement.condition aggregateLimits ∨
        SumOverflows (matching table.values statement.condition))
      ((exactSum (matching table.values statement.condition)).map Int64.ofInt) := by
  unfold executeScalarSumWithLimits
  refine .congr ?_ (.bind (checkTable_answers ..) (.bind (checkColumn_answers ..) (.bind (checkColumnOf_answers ..)
    (.bind (comparedRows_answers ..) (.bind (.mapError (sum_answers ..)) .ok)))))
  simp only [or_false, Unknown, ScalarSumStatement.columnNames, List.mem_cons, Option.mem_toList, or_and_right,
    exists_or, exists_eq_left, or_assoc]
  rfl

theorem executeScalarMin_answers (statement : ScalarMinStatement) (limits : AggregateLimits) :
    Answers (executeScalarMin expectedTableName table statement limits)
      (Unknown expectedTableName table statement.tableName [statement.columnName] ∨
        AggregateExceeded table.values none limits)
      table.values.reduceOption.min? := by
  unfold executeScalarMin
  refine .congr ?_ (.bind (checkTable_answers ..) (.bind (checkColumn_answers ..) (.mapError (min_answers _ none _))))
  simp only [Unknown, List.mem_singleton, exists_eq_left, or_assoc]

/-! ### Selections -/

def SelectStatement.condition (statement : SelectStatement) : Option (Option Int64 → Bool) :=
  statement.predicate.map SelectPredicate.matches

def SelectStatement.columnNames (statement : SelectStatement) : List String :=
  statement.columnName :: ((statement.predicate.map SelectPredicate.columnName).toList ++
    (statement.orderBy.map (·.columnName)).toList)

def SelectStatement.ordered (statement : SelectStatement) (values : List (Option Int64)) : List (Option Int64) :=
  match statement.orderBy with
  | none => matching values statement.condition
  | some orderBy => stablyOrdered orderBy.direction orderBy.nullOrder (matching values statement.condition)

/-- The first of them, as many as the statement asks for. -/
def SelectStatement.rows (statement : SelectStatement) (values : List (Option Int64)) : List (Option Int64) :=
  match statement.limit with
  | none => statement.ordered values
  | some limit => (statement.ordered values).take limit

/-- The bounds of an ordering, which a statement without `ORDER BY` does not run. -/
def SelectStatement.OrderExceeded (statement : SelectStatement) (values : List (Option Int64))
    (limits : OrderLimits) : Prop :=
  statement.orderBy.isSome ∧ ((matching values statement.condition).length > limits.maxInputRows ∨
    statement.limit.getD values.length > limits.maxLimit)

theorem length_matching_le (values : List (Option Int64)) (condition : Option (Option Int64 → Bool)) :
    (matching values condition).length ≤ values.length := by
  cases condition with
  | none => exact le_refl _
  | some accepts => exact List.length_filter_le ..

theorem SelectStatement.rows_eq (statement : SelectStatement) (values : List (Option Int64)) :
    statement.rows values = (statement.ordered values).take (statement.limit.getD values.length) := by
  unfold SelectStatement.rows
  cases statement.limit with
  | some limit => rfl
  | none =>
    have hlength : (statement.ordered values).length = (matching values statement.condition).length := by
      unfold SelectStatement.ordered stablyOrdered
      cases statement.orderBy with
      | none => rfl
      | some orderBy => exact List.length_mergeSort _
    exact (List.take_of_length_le (hlength.trans_le (length_matching_le ..))).symm

theorem scanSelectPredicate_eq (values : List (Option Int64)) (predicate : SelectPredicate) (limits : ScanLimits) :
    scanSelectPredicate values predicate limits = scanMatchingRows values limits predicate.matches := by
  cases predicate <;> rfl

theorem orderInput_answers (values : List (Option Int64)) (predicate : Option SelectPredicate) (limits : ScanLimits) :
    Answers (orderInput values predicate limits) (ScanExceeded values (predicate.map SelectPredicate.matches) limits)
      (matching values (predicate.map SelectPredicate.matches)) := by
  cases predicate with
  | none => exact .congr (by simp [ScanExceeded]) .ok
  | some predicate =>
    have hvalues := selectedValues_of_scan (ε := SelectExecutionError) values (some predicate.matches)
    unfold orderInput
    simp only [scanSelectPredicate_eq]
    refine .congr ?_ (.bind (.mapError (scan_answers values predicate.matches limits)) (.of_eq hvalues))
    rw [or_false]
    rfl

theorem executeOrdered_answers (orderBy : OrderByClause) (predicate : Option SelectPredicate) (limit : Nat)
    (scanLimits : ScanLimits) (orderLimits : OrderLimits) :
    Answers (executeOrdered table orderBy predicate limit scanLimits orderLimits)
      (orderBy.columnName ≠ table.schema.column.name ∨
        ScanExceeded table.values (predicate.map SelectPredicate.matches) scanLimits ∨
        (matching table.values (predicate.map SelectPredicate.matches)).length > orderLimits.maxInputRows ∨
        limit > orderLimits.maxLimit)
      ((stablyOrdered orderBy.direction orderBy.nullOrder
        (matching table.values (predicate.map SelectPredicate.matches))).take limit) := by
  have hselected (input : List (Option Int64)) :
      (valuesAt input (((orderedPositions orderBy.direction orderBy.nullOrder input).take limit).map (·.2)) :
        Exec SelectExecutionError _) = .ok ((stablyOrdered orderBy.direction orderBy.nullOrder input).take limit) := by
    rw [valuesAt_positions fun _ hrow => mem_of_ordered (List.mem_of_mem_take hrow), List.map_take,
      orderedPositions_fst]
  unfold executeOrdered
  refine .congr ?_ (.bind (checkColumn_answers ..) (.bind (orderInput_answers ..)
    (.bind (.mapError (order_answers ..)) (.of_eq (hselected _)))))
  rw [or_false]

theorem executeUnordered_answers (predicate : Option SelectPredicate) (limit : Nat) (scanLimits : ScanLimits) :
    Answers (executeUnordered table predicate limit scanLimits)
      (ScanExceeded table.values (predicate.map SelectPredicate.matches) scanLimits)
      ((matching table.values (predicate.map SelectPredicate.matches)).take limit) := by
  cases predicate with
  | none =>
    refine .congr (by simp [ScanExceeded]) (.of_eq ?_)
    rw [executeUnordered, ← List.take_eq_take_min]
    rfl
  | some predicate =>
    have hselected : (valuesAt table.values (((matchingPositions table.values predicate.matches).map (·.2)).take limit) :
        Exec SelectExecutionError _) = .ok ((table.values.filter predicate.matches).take limit) := by
      rw [← List.map_take, valuesAt_positions fun _ hrow => mem_of_matching (List.mem_of_mem_take hrow), List.map_take,
        matchingPositions_fst]
    unfold executeUnordered
    simp only [scanSelectPredicate_eq]
    refine .congr ?_ (.bind (.mapError (scan_answers ..)) (.of_eq hselected))
    rw [or_false]
    rfl

theorem executeSelect_answers (statement : SelectStatement) (scanLimits : ScanLimits) (orderLimits : OrderLimits) :
    Answers (executeSelectWithOrderLimits expectedTableName table statement scanLimits orderLimits)
      (Unknown expectedTableName table statement.tableName statement.columnNames ∨
        ScanExceeded table.values statement.condition scanLimits ∨ statement.OrderExceeded table.values orderLimits)
      (statement.rows table.values) := by
  have hnames : Unknown expectedTableName table statement.tableName statement.columnNames ↔
      statement.tableName ≠ expectedTableName ∨ statement.columnName ≠ table.schema.column.name ∨
        (∃ n ∈ statement.predicate.map SelectPredicate.columnName, n ≠ table.schema.column.name) ∨
        ∃ n ∈ statement.orderBy.map (·.columnName), n ≠ table.schema.column.name := by
    simp only [Unknown, SelectStatement.columnNames, List.mem_cons, List.mem_append, Option.mem_toList, or_and_right,
      exists_or, exists_eq_left, Option.mem_def]
  rw [statement.rows_eq, hnames]
  unfold executeSelectWithOrderLimits SelectStatement.ordered SelectStatement.OrderExceeded
  cases horder : statement.orderBy with
  | none =>
    refine .congr ?_ (.bind (checkTable_answers ..) (.bind (checkColumn_answers ..) (.bind (checkColumnOf_answers ..)
      (executeUnordered_answers ..))))
    simp [SelectStatement.condition, or_assoc]
  | some orderBy =>
    refine .congr ?_ (.bind (checkTable_answers ..) (.bind (checkColumn_answers ..) (.bind (checkColumnOf_answers ..)
      (executeOrdered_answers ..))))
    simp [SelectStatement.condition, or_assoc]

end

/-- **One-column queries.** A statement answers with the first values of those it selects, in its order, and the
aggregates with those of the values it selects; each fails exactly on an unknown name or an exceeded bound. -/
theorem one_column_queries (expectedTableName : String) (table : Int64Table) (scanLimits : ScanLimits)
    (orderLimits : OrderLimits) (aggregateLimits : AggregateLimits) :
    (∀ statement : SelectStatement,
      Answers (executeSelectWithOrderLimits expectedTableName table statement scanLimits orderLimits)
        (Unknown expectedTableName table statement.tableName statement.columnNames ∨
          ScanExceeded table.values statement.condition scanLimits ∨ statement.OrderExceeded table.values orderLimits)
        (statement.rows table.values)) ∧
    (∀ statement : ScalarCountStatement,
      Answers (executeScalarCountWithLimits expectedTableName table statement scanLimits aggregateLimits)
        (Unknown expectedTableName table statement.tableName statement.columnNames ∨
          ScanExceeded table.values statement.condition scanLimits ∨
          AggregateExceeded table.values statement.condition aggregateLimits)
        (statement.count table.values)) ∧
    (∀ statement : ScalarSumStatement,
      Answers (executeScalarSumWithLimits expectedTableName table statement scanLimits aggregateLimits)
        (Unknown expectedTableName table statement.tableName statement.columnNames ∨
          ScanExceeded table.values statement.condition scanLimits ∨
          AggregateExceeded table.values statement.condition aggregateLimits ∨
          SumOverflows (matching table.values statement.condition))
        ((exactSum (matching table.values statement.condition)).map Int64.ofInt)) ∧
    (∀ statement : ScalarMinStatement,
      Answers (executeScalarMin expectedTableName table statement aggregateLimits)
        (Unknown expectedTableName table statement.tableName [statement.columnName] ∨
          AggregateExceeded table.values none aggregateLimits)
        table.values.reduceOption.min?) ∧
    ∀ predicate : SelectPredicate,
      Answers (scanSelectPredicate table.values predicate scanLimits)
        (ScanExceeded table.values (some predicate.matches) scanLimits)
        ((matchingPositions table.values predicate.matches).map (·.2)) ∧
      Answers (minNullableI64 table.values (.indices ((matchingPositions table.values predicate.matches).map (·.2)))
          aggregateLimits)
        (AggregateExceeded table.values (some predicate.matches) aggregateLimits)
        (table.values.filter predicate.matches).reduceOption.min? := by
  refine ⟨fun statement => executeSelect_answers _ _ _ _ _, fun statement => executeScalarCount_answers _ _ _ _ _,
    fun statement => executeScalarSum_answers _ _ _ _ _, fun statement => executeScalarMin_answers _ _ _ _,
    fun predicate => ⟨?_, min_answers _ (some predicate.matches) _⟩⟩
  rw [scanSelectPredicate_eq]
  exact scan_answers _ _ _

/-- A plain projection of two values, where a scan may look at one only. -/
theorem one_column_queries_plain :
    let table : Int64Table := ⟨.int64 "value" true, [some 7, none], 2, by decide, by decide⟩
    let statement : SelectStatement := ⟨"value", "readings", none, none, none⟩
    table.values.length > (ScanLimits.mk 1 1).maxInputRows ∧
      executeSelectWithOrderLimits "readings" table statement ⟨1, 1⟩ ⟨1, 1⟩ = .ok [some 7, none] := by
  decide

end RustHouse.OneColumn
