import RustHouse.Multimap
import RustHouse.Snapshot
import Mathlib.Data.List.ReduceOption

/-!
# Equi-joins of two columns

Inner and left outer joins of two nullable `Int64` columns: the right rows are
indexed by their values, the output pairs are counted against their bound, and
only then are they built.
-/

namespace RustHouse.OneColumn

open Checked Exec KeyedTotals

structure JoinLimits where
  maxInputRows : Nat
  maxOutputPairs : Nat
  deriving DecidableEq, Repr

structure JoinRowPair where
  leftRow : Nat
  rightRow : Nat
  deriving DecidableEq, Repr

structure LeftOuterJoinRowPair where
  leftRow : Nat
  rightRow : Option Nat
  deriving DecidableEq, Repr

inductive JoinError where
  | leftInputLimitExceeded (rows maxRows : Nat)
  | rightInputLimitExceeded (rows maxRows : Nat)
  | outputLimitExceeded (pairs maxPairs : Nat)
  deriving DecidableEq, Repr

abbrev RowIndex := Map Int64 (List Nat)

def indexRightRow (rightRowsByValue : RowIndex) (row : Option Int64 × Nat) : RowIndex :=
  match row.1 with
  | some value => Multimap.push rightRowsByValue value row.2
  | none => rightRowsByValue

def indexRightRows (right : List (Option Int64)) : RowIndex := right.zipIdx.foldl indexRightRow ∅

def validateInputLimits (leftRows rightRows maxInputRows : Nat) : Exec JoinError Unit := do
  rejectIf (leftRows > maxInputRows) (.leftInputLimitExceeded leftRows maxInputRows)
  rejectIf (rightRows > maxInputRows) (.rightInputLimitExceeded rightRows maxInputRows)

/-- The difference of two sizes, a panic below zero. -/
def subtract (a b : Nat) : Exec JoinError Nat := if b ≤ a then .ok (a - b) else .panic

def countMatchingRows (maxOutputPairs outputPairs matchingRows : Nat) : Exec JoinError Nat := do
  let room ← subtract maxOutputPairs outputPairs
  rejectIf (matchingRows > room) (.outputLimitExceeded (saturatingAdd maxOutputPairs 1) maxOutputPairs)
  .ok (outputPairs + matchingRows)

section
variable (left right : List (Option Int64)) (rightRowsByValue : RowIndex)

def countOutputPairs (maxOutputPairs : Nat) : Exec JoinError Nat :=
  (left.reduceOption.map fun value => (rightRowsByValue.lookup value).elim 0 List.length).foldlM
    (countMatchingRows maxOutputPairs) 0

def countLeftOuterOutputPairs (maxOutputPairs : Nat) : Exec JoinError Nat :=
  (left.map fun value => (value.bind rightRowsByValue.lookup).elim 1 List.length).foldlM
    (countMatchingRows maxOutputPairs) 0

def emitPairs : List JoinRowPair :=
  left.zipIdx.flatMap fun row =>
    match row.1.bind rightRowsByValue.lookup with
    | none => []
    | some rightRows => rightRows.map (JoinRowPair.mk row.2)

def emitLeftOuterPairs : List LeftOuterJoinRowPair :=
  left.zipIdx.flatMap fun row =>
    match row.1.bind rightRowsByValue.lookup with
    | none => [⟨row.2, none⟩]
    | some rightRows => rightRows.map fun rightRow => ⟨row.2, some rightRow⟩

def innerEquiJoinNullableI64 (limits : JoinLimits) : Exec JoinError (List JoinRowPair) := do
  validateInputLimits left.length right.length limits.maxInputRows
  let rightRowsByValue := indexRightRows right
  let _outputPairs ← countOutputPairs left rightRowsByValue limits.maxOutputPairs
  .ok (emitPairs left rightRowsByValue)

def leftOuterEquiJoinNullableI64 (limits : JoinLimits) : Exec JoinError (List LeftOuterJoinRowPair) := do
  validateInputLimits left.length right.length limits.maxInputRows
  let rightRowsByValue := indexRightRows right
  let _outputPairs ← countLeftOuterOutputPairs left rightRowsByValue limits.maxOutputPairs
  .ok (emitLeftOuterPairs left rightRowsByValue)

end

/-! ## The nested loop -/

section
variable (left right : List (Option Int64))

def rightRowsOf (value : Option Int64) : List Nat :=
  match value with
  | none => []
  | some v => (right.zipIdx.filter fun row => row.1 = some v).map (·.2)

def innerPairs : List JoinRowPair :=
  left.zipIdx.flatMap fun row => (rightRowsOf right row.1).map (JoinRowPair.mk row.2)

def leftOuterPairs : List LeftOuterJoinRowPair :=
  left.zipIdx.flatMap fun row =>
    if rightRowsOf right row.1 = [] then [⟨row.2, none⟩]
    else (rightRowsOf right row.1).map fun rightRow => ⟨row.2, some rightRow⟩

/-! ## Counting -/

theorem countMatchingRows_foldlM {maxOutputPairs : Nat} (sizes : List Nat) {outputPairs : Nat}
    (h : outputPairs ≤ maxOutputPairs) :
    sizes.foldlM (countMatchingRows maxOutputPairs) outputPairs =
      if outputPairs + sizes.sum > maxOutputPairs then
        .error (.outputLimitExceeded (saturatingAdd maxOutputPairs 1) maxOutputPairs)
      else .ok (outputPairs + sizes.sum) := by
  induction sizes generalizing outputPairs with
  | nil =>
    rw [List.sum_nil, Nat.add_zero, if_neg (Nat.not_lt.2 h)]
    rfl
  | cons size sizes ih =>
    rw [List.foldlM_cons, countMatchingRows, subtract, if_pos h, Exec.ok_bind, List.sum_cons, ← Nat.add_assoc]
    by_cases hsize : size > maxOutputPairs - outputPairs
    · rw [rejectIf_of hsize, if_pos (by omega)]
      rfl
    · rw [rejectIf_of_not hsize, Exec.ok_bind, Exec.ok_bind, ih (by omega)]

/-! ## The index -/

theorem indexRightRows_eq : indexRightRows right =
    Multimap.ofPairs (right.zipIdx.filterMap fun row => row.1.map (·, row.2)) := by
  have hstep (rows : List (Option Int64 × Nat)) (m : RowIndex) : rows.foldl indexRightRow m =
      (rows.filterMap fun row => row.1.map (·, row.2)).foldl (fun m pair => Multimap.push m pair.1 pair.2) m := by
    induction rows generalizing m with
    | nil => rfl
    | cons row rows ih =>
      obtain ⟨value, position⟩ := row
      cases value with
      | none => exact ih m
      | some value => exact ih _
  exact hstep _ _

theorem lookup_indexRightRows (value : Int64) :
    (indexRightRows right).lookup value = Multimap.nonempty (rightRowsOf right (some value)) := by
  have hvalues (rows : List (Option Int64 × Nat)) :
      Multimap.valuesOf (rows.filterMap fun row => row.1.map (·, row.2)) value =
        (rows.filter fun row => row.1 = some value).map (·.2) := by
    induction rows with
    | nil => rfl
    | cons row rows ih =>
      obtain ⟨other, position⟩ := row
      cases other with
      | none => simpa using ih
      | some other =>
        by_cases h : other = value
        · simpa [Multimap.valuesOf, h] using ih
        · simpa [Multimap.valuesOf, h] using ih
  rw [indexRightRows_eq, Multimap.lookup_ofPairs, hvalues]
  rfl

theorem lookup_bind (value : Option Int64) :
    value.bind (indexRightRows right).lookup = Multimap.nonempty (rightRowsOf right value) := by
  cases value with
  | none => rfl
  | some value => exact lookup_indexRightRows right value

theorem emitPairs_eq : emitPairs left (indexRightRows right) = innerPairs left right := by
  unfold emitPairs innerPairs
  refine List.flatMap_congr fun row _ => ?_
  rw [lookup_bind]
  unfold Multimap.nonempty
  by_cases h : rightRowsOf right row.1 = []
  · rw [if_pos h, h]
    rfl
  · rw [if_neg h]

theorem emitLeftOuterPairs_eq : emitLeftOuterPairs left (indexRightRows right) = leftOuterPairs left right := by
  unfold emitLeftOuterPairs leftOuterPairs
  refine List.flatMap_congr fun row _ => ?_
  rw [lookup_bind]
  unfold Multimap.nonempty
  by_cases h : rightRowsOf right row.1 = []
  · rw [if_pos h, if_pos h]
  · rw [if_neg h, if_neg h]

/-! ## Sizes -/

theorem length_flatMap_zipIdx {γ : Type} (f : Option Int64 × Nat → List γ) (size : Option Int64 → Nat)
    (h : ∀ row, (f row).length = size row.1) : (left.zipIdx.flatMap f).length = (left.map size).sum := by
  have hsizes : (left.zipIdx.map fun row => (f row).length) = (left.zipIdx.map (·.1)).map size := by
    rw [List.map_map]
    exact List.map_congr_left fun row _ => h row
  rw [List.length_flatMap, hsizes, List.zipIdx_map_fst]

theorem countOutputPairs_eq (maxOutputPairs : Nat) : countOutputPairs left (indexRightRows right) maxOutputPairs =
    if (innerPairs left right).length > maxOutputPairs then
      .error (.outputLimitExceeded (saturatingAdd maxOutputPairs 1) maxOutputPairs)
    else .ok (innerPairs left right).length := by
  have hsize (values : List (Option Int64)) :
      (values.reduceOption.map fun value => ((indexRightRows right).lookup value).elim 0 List.length).sum =
        (values.map fun value => (rightRowsOf right value).length).sum := by
    induction values with
    | nil => rfl
    | cons value values ih =>
      cases value with
      | none =>
        rw [List.reduceOption_cons_of_none, List.map_cons, List.sum_cons, ih]
        exact (Nat.zero_add _).symm
      | some value =>
        have hone : ((indexRightRows right).lookup value).elim 0 List.length =
            (rightRowsOf right (some value)).length := by
          rw [lookup_indexRightRows]
          unfold Multimap.nonempty
          by_cases h : rightRowsOf right (some value) = []
          · rw [if_pos h, h]
            rfl
          · rw [if_neg h]
            rfl
        rw [List.reduceOption_cons_of_some, List.map_cons, List.map_cons, List.sum_cons, List.sum_cons, ih, hone]
  have hlength : (innerPairs left right).length = (left.map fun value => (rightRowsOf right value).length).sum :=
    length_flatMap_zipIdx left _ _ fun row => List.length_map _
  rw [countOutputPairs, countMatchingRows_foldlM _ (Nat.zero_le _), hsize, Nat.zero_add, hlength]

theorem countLeftOuterOutputPairs_eq (maxOutputPairs : Nat) :
    countLeftOuterOutputPairs left (indexRightRows right) maxOutputPairs =
      if (leftOuterPairs left right).length > maxOutputPairs then
        .error (.outputLimitExceeded (saturatingAdd maxOutputPairs 1) maxOutputPairs)
      else .ok (leftOuterPairs left right).length := by
  have hlength : (leftOuterPairs left right).length =
      (left.map fun value => (value.bind (indexRightRows right).lookup).elim 1 List.length).sum := by
    refine length_flatMap_zipIdx left _ _ fun row => ?_
    rw [lookup_bind]
    unfold Multimap.nonempty
    by_cases h : rightRowsOf right row.1 = []
    · rw [if_pos h, if_pos h]
      rfl
    · rw [if_neg h, if_neg h]
      exact List.length_map _
  rw [countLeftOuterOutputPairs, countMatchingRows_foldlM _ (Nat.zero_le _), Nat.zero_add, hlength]

/-! ## What the nested loop returns -/

def JoinRowPair.Before (p q : JoinRowPair) : Prop :=
  p.leftRow < q.leftRow ∨ p.leftRow = q.leftRow ∧ p.rightRow < q.rightRow

def LeftOuterJoinRowPair.Before (p q : LeftOuterJoinRowPair) : Prop :=
  p.leftRow < q.leftRow ∨ p.leftRow = q.leftRow ∧ ∃ i j, p.rightRow = some i ∧ q.rightRow = some j ∧ i < j

theorem positions_increasing (values : List (Option Int64)) : values.zipIdx.Pairwise fun a b => a.2 < b.2 := by
  have h : (values.zipIdx.map (·.2)).Pairwise (· < ·) := by
    rw [List.zipIdx_map_snd]
    exact List.pairwise_lt_range'
  exact List.pairwise_map.1 h

theorem mem_rightRowsOf {value : Option Int64} {row : Nat} :
    row ∈ rightRowsOf right value ↔ ∃ v, value = some v ∧ right[row]? = some (some v) := by
  cases value with
  | none => simp [rightRowsOf]
  | some v => simp [rightRowsOf, List.mem_zipIdx_iff_getElem?]

theorem rightRowsOf_increasing (value : Option Int64) : (rightRowsOf right value).Pairwise (· < ·) := by
  cases value with
  | none => exact List.Pairwise.nil
  | some v => exact List.pairwise_map.2 ((positions_increasing right).sublist List.filter_sublist)

theorem mem_innerPairs {l r : Nat} :
    ⟨l, r⟩ ∈ innerPairs left right ↔ ∃ v, left[l]? = some (some v) ∧ right[r]? = some (some v) := by
  simp only [innerPairs, List.mem_flatMap, List.mem_map, mem_rightRowsOf, JoinRowPair.mk.injEq, Prod.exists,
    List.mem_zipIdx_iff_getElem?]
  constructor
  · rintro ⟨value, position, hleft, row, ⟨v, rfl, hright⟩, rfl, rfl⟩
    exact ⟨v, hleft, hright⟩
  · rintro ⟨v, hleft, hright⟩
    exact ⟨some v, l, hleft, r, ⟨v, rfl, hright⟩, rfl, rfl⟩

theorem innerPairs_ordered : (innerPairs left right).Pairwise JoinRowPair.Before := by
  refine List.pairwise_flatMap.2 ⟨fun row _ => ?_, (positions_increasing left).imp fun hlt p hp q hq => ?_⟩
  · exact List.pairwise_map.2 ((rightRowsOf_increasing right row.1).imp fun hlt => .inr ⟨rfl, hlt⟩)
  · obtain ⟨_, _, rfl⟩ := List.mem_map.1 hp
    obtain ⟨_, _, rfl⟩ := List.mem_map.1 hq
    exact .inl hlt

def leftOuterRow (row : Option Int64 × Nat) : List LeftOuterJoinRowPair :=
  if rightRowsOf right row.1 = [] then [⟨row.2, none⟩]
  else (rightRowsOf right row.1).map fun rightRow => ⟨row.2, some rightRow⟩

theorem mem_leftOuterRow {row : Option Int64 × Nat} {pair : LeftOuterJoinRowPair} :
    pair ∈ leftOuterRow right row ↔ pair.leftRow = row.2 ∧
      (pair.rightRow = none ∧ rightRowsOf right row.1 = [] ∨ ∃ r ∈ rightRowsOf right row.1, pair.rightRow = some r) := by
  obtain ⟨l, r⟩ := pair
  unfold leftOuterRow
  by_cases h : rightRowsOf right row.1 = []
  · simp [h]
  · simp [h]
    grind

theorem mem_leftOuterPairs {pair : LeftOuterJoinRowPair} :
    pair ∈ leftOuterPairs left right ↔ ∃ value, left[pair.leftRow]? = some value ∧
      (pair.rightRow = none ∧ rightRowsOf right value = [] ∨ ∃ r ∈ rightRowsOf right value, pair.rightRow = some r) := by
  rw [show leftOuterPairs left right = left.zipIdx.flatMap (leftOuterRow right) from rfl, List.mem_flatMap]
  simp only [mem_leftOuterRow, Prod.exists, List.mem_zipIdx_iff_getElem?]
  constructor
  · rintro ⟨value, _, hleft, rfl, h⟩
    exact ⟨value, hleft, h⟩
  · rintro ⟨value, hleft, h⟩
    exact ⟨value, _, hleft, rfl, h⟩

theorem mem_leftOuterPairs_some {l r : Nat} :
    ⟨l, some r⟩ ∈ leftOuterPairs left right ↔ ∃ v, left[l]? = some (some v) ∧ right[r]? = some (some v) := by
  rw [mem_leftOuterPairs]
  constructor
  · intro ⟨value, hleft, h⟩
    obtain ⟨r', hr', hsome⟩ := h.resolve_left fun hnone => by cases hnone.1
    obtain rfl := Option.some.inj hsome
    obtain ⟨v, rfl, hright⟩ := (mem_rightRowsOf right).1 hr'
    exact ⟨v, hleft, hright⟩
  · intro ⟨v, hleft, hright⟩
    exact ⟨some v, hleft, .inr ⟨r, (mem_rightRowsOf right).2 ⟨v, rfl, hright⟩, rfl⟩⟩

theorem mem_leftOuterPairs_none {l : Nat} :
    ⟨l, none⟩ ∈ leftOuterPairs left right ↔
      ∃ value, left[l]? = some value ∧ ∀ v, value = some v → some v ∉ right := by
  rw [mem_leftOuterPairs]
  refine exists_congr fun value => and_congr_right fun _ => ?_
  have hunmatched : rightRowsOf right value = [] ↔ ∀ v, value = some v → some v ∉ right := by
    rw [List.eq_nil_iff_forall_not_mem]
    constructor
    · intro h v hv hmem
      obtain ⟨row, hrow⟩ := List.mem_iff_getElem?.1 hmem
      exact h row ((mem_rightRowsOf right).2 ⟨v, hv, hrow⟩)
    · intro h row hrow
      obtain ⟨v, hv, hright⟩ := (mem_rightRowsOf right).1 hrow
      exact h v hv (List.mem_of_getElem? hright)
  rw [hunmatched]
  simp

theorem leftOuterPairs_ordered : (leftOuterPairs left right).Pairwise LeftOuterJoinRowPair.Before := by
  refine List.pairwise_flatMap.2 ⟨fun row _ => ?_, (positions_increasing left).imp fun hlt p hp q hq => ?_⟩
  · by_cases h : rightRowsOf right row.1 = []
    · rw [if_pos h]
      exact List.pairwise_singleton _ _
    · rw [if_neg h]
      exact List.pairwise_map.2
        ((rightRowsOf_increasing right row.1).imp fun hlt => .inr ⟨rfl, _, _, rfl, rfl, hlt⟩)
  · have hp' := (mem_leftOuterRow right).1 hp
    have hq' := (mem_leftOuterRow right).1 hq
    exact .inl (by rw [hp'.1, hq'.1]; exact hlt)

/-- **Hash joins.** Within the input limit the joins return the pairs of the nested loop, ordered by left row and then
by right row, or fail exactly when there are more of them than the output limit; the count before is their number. -/
theorem hash_joins_are_nested_loops (limits : JoinLimits) (hleft : left.length ≤ limits.maxInputRows)
    (hright : right.length ≤ limits.maxInputRows) :
    (∃ pairs : List JoinRowPair,
      (∀ l r, ⟨l, r⟩ ∈ pairs ↔ ∃ v, left[l]? = some (some v) ∧ right[r]? = some (some v)) ∧
      pairs.Pairwise JoinRowPair.Before ∧
      innerEquiJoinNullableI64 left right limits =
        (if pairs.length > limits.maxOutputPairs then
          .error (.outputLimitExceeded (saturatingAdd limits.maxOutputPairs 1) limits.maxOutputPairs)
        else .ok pairs) ∧
      (pairs.length ≤ limits.maxOutputPairs →
        countOutputPairs left (indexRightRows right) limits.maxOutputPairs = .ok pairs.length)) ∧
    ∃ pairs : List LeftOuterJoinRowPair,
      (∀ l r, ⟨l, some r⟩ ∈ pairs ↔ ∃ v, left[l]? = some (some v) ∧ right[r]? = some (some v)) ∧
      (∀ l, ⟨l, none⟩ ∈ pairs ↔ ∃ value, left[l]? = some value ∧ ∀ v, value = some v → some v ∉ right) ∧
      pairs.Pairwise LeftOuterJoinRowPair.Before ∧
      leftOuterEquiJoinNullableI64 left right limits =
        (if pairs.length > limits.maxOutputPairs then
          .error (.outputLimitExceeded (saturatingAdd limits.maxOutputPairs 1) limits.maxOutputPairs)
        else .ok pairs) ∧
      (pairs.length ≤ limits.maxOutputPairs →
        countLeftOuterOutputPairs left (indexRightRows right) limits.maxOutputPairs = .ok pairs.length) := by
  have hinputs : validateInputLimits left.length right.length limits.maxInputRows = .ok () := by
    rw [validateInputLimits, rejectIf_of_not (Nat.not_lt.2 hleft), rejectIf_of_not (Nat.not_lt.2 hright)]
    rfl
  refine ⟨⟨innerPairs left right, fun l r => mem_innerPairs left right, innerPairs_ordered left right, ?_, ?_⟩,
    ⟨leftOuterPairs left right, fun l r => mem_leftOuterPairs_some left right,
      fun l => mem_leftOuterPairs_none left right, leftOuterPairs_ordered left right, ?_, ?_⟩⟩
  · rw [innerEquiJoinNullableI64, hinputs, Exec.ok_bind]
    dsimp only
    rw [countOutputPairs_eq, emitPairs_eq]
    split <;> rfl
  · intro h
    rw [countOutputPairs_eq, if_neg (Nat.not_lt.2 h)]
  · rw [leftOuterEquiJoinNullableI64, hinputs, Exec.ok_bind]
    dsimp only
    rw [countLeftOuterOutputPairs_eq, emitLeftOuterPairs_eq]
    split <;> rfl
  · intro h
    rw [countLeftOuterOutputPairs_eq, if_neg (Nat.not_lt.2 h)]

theorem hash_joins_are_nested_loops_duplicates :
    ∃ pairs : List JoinRowPair,
      (∀ l r, ⟨l, r⟩ ∈ pairs ↔ ∃ v, [some 4, none, some (4 : Int64)][l]? = some (some v) ∧
        [some 4, some 9, some (4 : Int64), none][r]? = some (some v)) ∧
      innerEquiJoinNullableI64 [some 4, none, some 4] [some 4, some 9, some 4, none] ⟨4, 4⟩ =
        (if pairs.length > 4 then .error (.outputLimitExceeded 5 4) else .ok pairs) := by
  obtain ⟨⟨pairs, hmem, _, hresult, _⟩, _⟩ := hash_joins_are_nested_loops [some 4, none, some 4]
    [some 4, some 9, some 4, none] ⟨4, 4⟩ (by decide) (by decide)
  exact ⟨pairs, hmem, hresult⟩

end

end RustHouse.OneColumn
