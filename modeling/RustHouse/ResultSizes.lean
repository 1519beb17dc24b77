import RustHouse.SelectRows

/-!
# Sizes of results

A result is admitted before it is built: its rows, cells and bytes are counted
from what it will be made of. The counts are those of the finished result.
-/

namespace RustHouse.Batch

open Checked Exec Words

/-! ## Bytes of a result -/

theorem saturatingAdd_saturated (a b : Nat) : saturatingAdd (min a usizeMax) b = min (a + b) usizeMax := by
  unfold saturatingAdd
  omega

theorem saturatingAdd_both (a b : Nat) : saturatingAdd (min a usizeMax) (min b usizeMax) = min (a + b) usizeMax := by
  unfold saturatingAdd
  omega

theorem saturatingMul_both (a b c : Nat) : saturatingMul (saturatingMul a b) c = min (a * b * c) usizeMax := by
  by_cases hle : a * b ≤ usizeMax
  · rw [saturatingMul_of_le hle, saturatingMul]
  · have hge : usizeMax ≤ a * b := Nat.le_of_not_le hle
    rw [saturatingMul, saturatingMul, Nat.min_eq_right hge]
    cases c with
    | zero => rfl
    | succ c =>
      rw [Nat.min_eq_right (Nat.le_mul_of_pos_right _ (Nat.succ_pos c))]
      exact (Nat.min_eq_right (hge.trans (Nat.le_mul_of_pos_right _ (Nat.succ_pos c)))).symm

def textBytes (values : List Value) : Nat := (values.map Value.stringBytes).sum

theorem textBytes_append (values more : List Value) : textBytes (values ++ more) = textBytes values + textBytes more := by
  simp [textBytes]

def QueryResult.exactBytes (result : QueryResult) : Nat :=
  result.columns.length * sizeOfResultColumn + (result.columns.map fun column => stringLen column.name).sum +
    result.rows.length * sizeOfRow + result.rows.flatten.length * sizeOfValue + textBytes result.rows.flatten

theorem foldl_saturating {α : Type} {step : Nat → α → Nat} {part : α → Nat}
    (h : ∀ bytes a, step (min bytes usizeMax) a = min (bytes + part a) usizeMax) (as : List α) (bytes : Nat) :
    as.foldl step (min bytes usizeMax) = min (bytes + (as.map part).sum) usizeMax := by
  induction as generalizing bytes with
  | nil => rfl
  | cons a as ih => rw [List.foldl_cons, h, ih, List.map_cons, List.sum_cons, Nat.add_assoc]

theorem sum_rowBytes (rows : List (List Value)) :
    (rows.map fun row => row.length * sizeOfValue + textBytes row).sum =
      rows.flatten.length * sizeOfValue + textBytes rows.flatten := by
  induction rows with
  | nil => rfl
  | cons row rows ih =>
    rw [List.map_cons, List.sum_cons, ih, List.flatten_cons, List.length_append, textBytes_append, Nat.add_mul]
    omega

/-- **The bytes that a result is measured to have** are exact, up to the largest number of them. -/
theorem QueryResult.estimatedRetainedBytes_eq (result : QueryResult) :
    result.estimatedRetainedBytes = min result.exactBytes usizeMax := by
  have hfixed : saturatingAdd (saturatingAdd (saturatingMul result.columns.length sizeOfResultColumn)
      ((result.columns.map fun column => stringLen column.name).foldl saturatingAdd 0))
      (saturatingMul result.rows.length sizeOfRow) =
      min (result.columns.length * sizeOfResultColumn + (result.columns.map fun column => stringLen column.name).sum +
        result.rows.length * sizeOfRow) usizeMax := by
    rw [foldl_saturatingAdd_zero, saturatingMul, saturatingMul, saturatingAdd_both, saturatingAdd_both]
  rw [QueryResult.estimatedRetainedBytes, hfixed, exactBytes, Nat.add_assoc _ _ (textBytes _), ← sum_rowBytes]
  apply foldl_saturating
  intro bytes row
  have hcells : saturatingAdd (min bytes usizeMax) (saturatingMul row.length sizeOfValue) =
      min (bytes + row.length * sizeOfValue) usizeMax := saturatingAdd_both _ _
  rw [hcells, ← Nat.add_assoc]
  apply foldl_saturating
  intro bytes value
  cases value with
  | string text => exact saturatingAdd_saturated _ _
  | _ => rfl

/-! ## Limits -/

/-- **A result is within the limits**: its rows, its cells, and its bytes, as they are measured when it is there. -/
structure QueryResult.Within (limits : QueryResultLimits) (result : QueryResult) : Prop where
  rows : min result.rows.length usizeMax ≤ limits.maxRows
  values : min result.rows.flatten.length usizeMax ≤ limits.maxValues
  bytes : result.estimatedRetainedBytes ≤ limits.maxBytes

/-- Every row has a value for every column. -/
def QueryResult.Rectangular (result : QueryResult) : Prop := ∀ row ∈ result.rows, row.length = result.columns.length

theorem flatten_length {rows : List (List Value)} {n : Nat} (h : ∀ row ∈ rows, row.length = n) :
    rows.flatten.length = rows.length * n := by
  rw [List.length_flatten, List.map_eq_replicate_iff.2 h, List.sum_replicate_nat]

/-- The rows of a query behind those of the left operand of a UNION, if it has one. -/
def QueryResult.behind (left : Option QueryResult) (result : QueryResult) : QueryResult :=
  left.elim result fun first => { first with rows := first.rows ++ result.rows }

theorem enforceResourceLimit_eq_ok {resource : String} {actual max : Nat} {u : Unit} :
    enforceResourceLimit resource actual max = .ok u ↔ actual ≤ max := by
  rw [enforceResourceLimit, rejectIf_eq_ok, not_lt]

theorem enforceResourceLimit_ne_panic (resource : String) (actual max : Nat) :
    enforceResourceLimit resource actual max ≠ .panic := rejectIf_ne_panic _ _

def shapeBytes (rowCount valuesPerRow : Nat) (columns : List ResultColumn) : Nat :=
  columns.length * sizeOfResultColumn + (columns.map fun column => stringLen column.name).sum + rowCount * sizeOfRow +
    rowCount * valuesPerRow * sizeOfValue

theorem validateResultShape_eq_ok {rowCount valuesPerRow bytes : Nat} {columns : List ResultColumn}
    {limits : QueryResultLimits} {resources : QueryResultResources} :
    validateResultShape rowCount valuesPerRow columns limits resources = .ok bytes ↔
      rowCount ≤ limits.maxRows ∧ min (rowCount * valuesPerRow) usizeMax ≤ limits.maxValues ∧
        bytes = min (shapeBytes rowCount valuesPerRow columns) usizeMax ∧ bytes ≤ limits.maxBytes := by
  have hbytes : saturatingAdd (saturatingAdd (saturatingAdd (saturatingMul columns.length sizeOfResultColumn)
      ((columns.map fun column => stringLen column.name).foldl saturatingAdd 0)) (saturatingMul rowCount sizeOfRow))
      (saturatingMul (saturatingMul rowCount valuesPerRow) sizeOfValue) =
        min (shapeBytes rowCount valuesPerRow columns) usizeMax := by
    rw [foldl_saturatingAdd_zero, saturatingMul_both, saturatingMul, saturatingAdd_both, saturatingMul,
      saturatingAdd_both, saturatingAdd_both]
    rfl
  simp only [validateResultShape, validateResultShapeParts, Exec.bind_eq_ok, enforceResourceLimit_eq_ok, hbytes]
  constructor
  · intro h
    obtain ⟨_, hrows, _, hvalues, _, hfits, h⟩ := h
    obtain rfl := Exec.ok.inj h
    exact ⟨hrows, hvalues, rfl, hfits⟩
  · intro h
    obtain ⟨hrows, hvalues, rfl, hfits⟩ := h
    exact ⟨(), hrows, (), hvalues, (), hfits, rfl⟩

theorem validateResultShape_ne_panic (rowCount valuesPerRow : Nat) (columns : List ResultColumn)
    (limits : QueryResultLimits) (resources : QueryResultResources) :
    validateResultShape rowCount valuesPerRow columns limits resources ≠ .panic := by
  apply bind_ne_panic (enforceResourceLimit_ne_panic _ _ _)
  intro _ _
  apply bind_ne_panic (enforceResourceLimit_ne_panic _ _ _)
  intro _ _
  apply bind_ne_panic (enforceResourceLimit_ne_panic _ _ _)
  intro _ _
  exact ok_ne_panic _

/-! ## Charges -/

/-- A total that grows is within the limit at every step if it is so at the end. -/
theorem chargeBytes_eq_ok {maxBytes bytes total : Nat} {charges : List (Option Nat)}
    (hbytes : min bytes usizeMax ≤ maxBytes) :
    chargeBytes maxBytes (min bytes usizeMax) (charges.map some) = .ok total ↔
      total = min (bytes + (charges.map fun charge => charge.getD 0).sum) usizeMax ∧ total ≤ maxBytes := by
  induction charges generalizing bytes with
  | nil =>
    rw [List.map_nil, chargeBytes, Exec.ok.injEq]
    constructor
    · intro h
      subst h
      exact ⟨rfl, hbytes⟩
    · intro h
      exact h.1.symm
  | cons charge charges ih =>
    cases charge with
    | none => simpa [chargeBytes] using ih hbytes
    | some length =>
      rw [List.map_cons, chargeBytes, saturatingAdd_saturated, Exec.bind_eq_ok, List.map_cons, List.sum_cons,
        ← Nat.add_assoc]
      constructor
      · intro h
        obtain ⟨_, hstep, h⟩ := h
        exact (ih (enforceResourceLimit_eq_ok.1 hstep)).1 h
      · intro h
        have hstep : min (bytes + length) usizeMax ≤ maxBytes := by
          obtain ⟨rfl, hle⟩ := h
          refine le_trans ?_ hle
          rw [Option.getD_some]
          omega
        exact ⟨(), enforceResourceLimit_eq_ok.2 hstep, (ih hstep).2 h⟩

theorem chargeBytes_ne_panic (maxBytes bytes : Nat) (charges : List (Option Nat)) :
    chargeBytes maxBytes bytes (charges.map some) ≠ .panic := by
  induction charges generalizing bytes with
  | nil => exact ok_ne_panic _
  | cons charge charges ih =>
    cases charge with
    | none => exact ih bytes
    | some length => exact bind_ne_panic (enforceResourceLimit_ne_panic _ _ _) fun _ _ => ih _

/-! ## Admission -/

/-- What a result is checked for before it is built. -/
def admitResult (rowCount columnCount : Nat) (columns : List ResultColumn) (limits : QueryResultLimits)
    (resultPrefix : Option SelectResultPrefix) (charges : List (Option (Option Nat))) : Exec Error Unit := do
  let bytes ← validateSelectResultShape rowCount columnCount columns limits resultPrefix
  let _ ← chargeBytes limits.maxBytes bytes charges
  .ok ()

theorem validateSelectResultShape_ne_panic (rowCount columnCount : Nat) (columns : List ResultColumn)
    (limits : QueryResultLimits) (resultPrefix : Option SelectResultPrefix) :
    validateSelectResultShape rowCount columnCount columns limits resultPrefix ≠ .panic := by
  apply bind_ne_panic (validateResultShape_ne_panic _ _ _ _ _)
  intro _ _
  apply bind_ne_panic (enforceResourceLimit_ne_panic _ _ _)
  intro _ _
  exact ok_ne_panic _

theorem admitResult_ne_panic (rowCount columnCount : Nat) (columns : List ResultColumn) (limits : QueryResultLimits)
    (resultPrefix : Option SelectResultPrefix) (charges : List (Option Nat)) :
    admitResult rowCount columnCount columns limits resultPrefix (charges.map some) ≠ .panic := by
  apply bind_ne_panic (validateSelectResultShape_ne_panic _ _ _ _ _)
  intro _ _
  apply bind_ne_panic (chargeBytes_ne_panic _ _ _)
  intro _ _
  exact ok_ne_panic _

theorem validateSelectResultShape_eq_ok {rowCount columnCount bytes : Nat} {columns : List ResultColumn}
    {limits : QueryResultLimits} {left : Option QueryResult} {operation : String} :
    validateSelectResultShape rowCount columnCount columns limits (left.map (.fromResult · operation)) = .ok bytes ↔
      left.elim rowCount (fun first => min (first.rows.length + rowCount) usizeMax) ≤ limits.maxRows ∧
        min (left.elim rowCount (fun first => min (first.rows.length + rowCount) usizeMax) * columnCount) usizeMax ≤
          limits.maxValues ∧
        bytes = min (shapeBytes (left.elim rowCount fun first => min (first.rows.length + rowCount) usizeMax) columnCount
          (left.elim columns QueryResult.columns) + left.elim 0 fun first => textBytes first.rows.flatten) usizeMax ∧
        bytes ≤ limits.maxBytes := by
  have htexts : (left.map (SelectResultPrefix.fromResult · operation)).elim 0 SelectResultPrefix.stringBytes =
      min (left.elim 0 fun first => textBytes first.rows.flatten) usizeMax := by
    cases left with
    | none => rfl
    | some first => exact foldl_saturatingAdd_zero _
  have hrows : (left.map (SelectResultPrefix.fromResult · operation)).elim rowCount
      (fun first => saturatingAdd first.rowCount rowCount) =
      left.elim rowCount fun first => min (first.rows.length + rowCount) usizeMax := by
    cases left <;> rfl
  have hcolumns : (left.map (SelectResultPrefix.fromResult · operation)).elim columns SelectResultPrefix.columns =
      left.elim columns QueryResult.columns := by
    cases left <;> rfl
  simp only [validateSelectResultShape, hrows, hcolumns, htexts, Exec.bind_eq_ok, validateResultShape_eq_ok,
    enforceResourceLimit_eq_ok]
  constructor
  · intro h
    obtain ⟨_, ⟨hmaxRows, hmaxValues, rfl, _⟩, _, hfits, h⟩ := h
    obtain rfl := Exec.ok.inj h
    exact ⟨hmaxRows, hmaxValues, saturatingAdd_both _ _, hfits⟩
  · intro h
    obtain ⟨hmaxRows, hmaxValues, rfl, hfits⟩ := h
    refine ⟨_, ⟨hmaxRows, hmaxValues, rfl, ?_⟩, (), ?_, ?_⟩
    · exact (min_le_min_right usizeMax (Nat.le_add_right _ _)).trans hfits
    · rw [saturatingAdd_both]
      exact hfits
    · rw [saturatingAdd_both]

/-- **Admission is exact**: a result is admitted if and only if it is within the limits when it is there, behind
the rows of the left operand of a UNION. -/
theorem admitResult_iff {left : Option QueryResult} {operation : String} {result : QueryResult} {limits : QueryResultLimits}
    {charges : List (Option Nat)} (hrectangular : result.Rectangular)
    (hleft : ∀ first ∈ left, first.Rectangular ∧ first.columns.length = result.columns.length)
    (hcharges : (charges.map fun charge => charge.getD 0).sum = textBytes result.rows.flatten)
    (hrows : (QueryResult.behind left result).rows.length ≤ usizeMax) :
    admitResult result.rows.length result.columns.length result.columns limits (left.map (.fromResult · operation))
        (charges.map some) = .ok () ↔ (QueryResult.behind left result).Within limits := by
  have hcells := flatten_length hrectangular
  have hshape : left.elim result.rows.length (fun first => min (first.rows.length + result.rows.length) usizeMax) =
      (QueryResult.behind left result).rows.length := by
    cases left with
    | none => rfl
    | some first =>
      rw [QueryResult.behind, Option.elim_some, Option.elim_some, List.length_append]
      rw [QueryResult.behind, Option.elim_some, List.length_append] at hrows
      exact Nat.min_eq_left hrows
  have hvalues : (QueryResult.behind left result).rows.length * result.columns.length =
      (QueryResult.behind left result).rows.flatten.length := by
    cases left with
    | none => exact hcells.symm
    | some first =>
      obtain ⟨hfirst, hcolumns⟩ := hleft first rfl
      show (first.rows ++ result.rows).length * _ = (first.rows ++ result.rows).flatten.length
      rw [List.flatten_append, List.length_append, List.length_append, hcells, flatten_length hfirst, hcolumns,
        Nat.add_mul]
  have hbytes : shapeBytes (QueryResult.behind left result).rows.length result.columns.length
      (left.elim result.columns QueryResult.columns) + (left.elim 0 fun first => textBytes first.rows.flatten) +
        textBytes result.rows.flatten = (QueryResult.behind left result).exactBytes := by
    rw [shapeBytes, hvalues, QueryResult.exactBytes]
    cases left with
    | none => rfl
    | some first =>
      show _ = _ + textBytes (first.rows ++ result.rows).flatten
      rw [List.flatten_append, textBytes_append, ← Nat.add_assoc]
      rfl
  rw [admitResult, Exec.bind_eq_ok]
  simp only [validateSelectResultShape_eq_ok, hshape, hvalues]
  constructor
  · intro h
    obtain ⟨_, ⟨hmaxRows, hmaxValues, rfl, hfits⟩, h⟩ := h
    obtain ⟨total, htotal, _⟩ := Exec.bind_eq_ok.1 h
    rw [chargeBytes_eq_ok hfits, hcharges, hbytes] at htotal
    refine ⟨(Nat.min_le_left _ _).trans hmaxRows, hmaxValues, ?_⟩
    rw [QueryResult.estimatedRetainedBytes_eq, ← htotal.1]
    exact htotal.2
  · intro h
    obtain ⟨hmaxRows, hmaxValues, hmaxBytes⟩ := h
    rw [Nat.min_eq_left hrows] at hmaxRows
    rw [QueryResult.estimatedRetainedBytes_eq, ← hbytes] at hmaxBytes
    have hfits := le_trans (min_le_min_right usizeMax (Nat.le_add_right _ (textBytes result.rows.flatten))) hmaxBytes
    refine ⟨_, ⟨hmaxRows, hmaxValues, rfl, hfits⟩, ?_⟩
    rw [(chargeBytes_eq_ok hfits).2 ⟨rfl, ?_⟩]
    · rfl
    · rw [hcharges]
      exact hmaxBytes

end RustHouse.Batch
