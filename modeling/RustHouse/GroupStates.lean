import RustHouse.AggregatesSound
import RustHouse.Endings
import RustHouse.SelectOrderSound

/-!
# Aggregates of rows

What an aggregate is over some rows, as counts, exact sums and first extremes,
and that the state of a group is that behind every row that it takes in.
-/

namespace RustHouse.Batch

open Checked Exec

/-! ## Refusals -/

def QueryResultLimits.unlimited : QueryResultLimits :=
  ⟨usizeMax, usizeMax, usizeMax, usizeMax, usizeMax, usizeMax, usizeMax, usizeMax, usizeMax, usizeMax⟩

def QueryResultLimits.Refusal (limits : QueryResultLimits) (e : Error) : Prop :=
  limits ≠ .unlimited ∧ ∃ resource actual max, e = .resourceLimitExceeded resource actual max

theorem QueryResultLimits.not_refusal_unlimited (e : Error) : ¬ QueryResultLimits.unlimited.Refusal e :=
  fun h => h.1 rfl

section
variable {limits : QueryResultLimits}

theorem enforceResourceLimit_ends {resource : String} {actual max : Nat} (hactual : actual ≤ usizeMax)
    (hmax : limits = .unlimited → max = usizeMax) :
    (enforceResourceLimit resource actual max).Ends (fun _ => actual ≤ max) limits.Refusal := by
  refine (Ends.rejectIf fun hover => ?_).imp fun _ h => Nat.not_lt.1 h
  refine ⟨fun hunlimited => ?_, _, _, _, rfl⟩
  rw [hmax hunlimited] at hover
  exact Nat.not_lt.2 hactual hover

end

/-! ## Meaning -/

def Value.asInt64 : Value → Option Int64
  | int64 value => some value
  | _ => none

def extreme (side : Ordering) (values : List Value) : Option Value :=
  values.foldl
    (fun current value => if current.all fun existing => value.cmp existing = side then some value else current) none

namespace AggregateSpec

section
variable (spec : AggregateSpec) (t : Table) (row : Nat)

/-- The argument in a row, if there is one. -/
def read : Option Value := spec.argument.bind fun argument => t.valueAt argument row

def present : Option Value := (spec.read t row).filter fun value => !value.isNull

def integer : Option Int64 := (spec.read t row).bind Value.asInt64

def number : Option F64 := (spec.read t row).bind Value.asFloat64

def counts : Bool :=
  if spec.function = .countIf then spec.read t row = some (.bool true)
  else spec.argument.isNone || (spec.present t row).isSome

end

section
variable (spec : AggregateSpec) (t : Table) (arithmetic : FloatArithmetic) (rows : List Nat)

def numberSum : ScaledFloatSum := (rows.filterMap (spec.number t)).foldl (ScaledFloatSum.add arithmetic) .default

def stateOver : AggregateState :=
  let total := GlobalInt64SumAvg.total (spec.integer t) rows
  let terms := (rows.filterMap (spec.number t)).length
  match spec.function with
  | .count | .countIf => .count (rows.countP (spec.counts t))
  | .sum =>
    if spec.inputType = some .int64 then .sumInt total.sum total.count
    else .sumFloat (spec.numberSum t arithmetic rows) terms
  | .min => .min (extreme .lt (rows.filterMap (spec.present t)))
  | .max => .max (extreme .gt (rows.filterMap (spec.present t)))
  | .avg =>
    if spec.inputType = some .int64 then .avgInt total.sum total.count
    else .avgFloat (spec.numberSum t arithmetic rows) terms

end

section
variable {spec : AggregateSpec} {t : Table} {arithmetic : FloatArithmetic} {rows : List Nat} {row : Nat}

theorem stateOver_nil : spec.stateOver t arithmetic [] = .new spec := by
  unfold stateOver AggregateState.new
  cases spec.function <;> rfl

/-! ## One more row -/

theorem numberSum_concat : spec.numberSum t arithmetic (rows ++ [row]) =
    (spec.number t row).elim (spec.numberSum t arithmetic rows) ((spec.numberSum t arithmetic rows).add arithmetic) := by
  rw [numberSum, List.filterMap_append, List.foldl_append, numberSum]
  cases h : spec.number t row <;> simp [h]

theorem extreme_concat (side : Ordering) : extreme side ((rows ++ [row]).filterMap (spec.present t)) =
    (spec.present t row).elim (extreme side (rows.filterMap (spec.present t))) fun value =>
      if (extreme side (rows.filterMap (spec.present t))).all fun existing => value.cmp existing = side then some value
      else extreme side (rows.filterMap (spec.present t)) := by
  rw [extreme, List.filterMap_append, List.foldl_append, extreme]
  cases h : spec.present t row <;> simp [h]

theorem total_concat (read : Nat → Option Int64) : GlobalInt64SumAvg.total read (rows ++ [row]) =
    (GlobalInt64SumAvg.total read rows).join (.single (read row)) := by
  rw [GlobalInt64SumAvg.total, List.filterMap_append, List.map_append, List.sum_append, List.length_append]
  cases h : read row <;> simp [h, GlobalInt64SumAvg.Partial.single, GlobalInt64SumAvg.Partial.join,
    GlobalInt64SumAvg.Partial.default, GlobalInt64SumAvg.total]

theorem total_within (read : Nat → Option Int64) (rows : List Nat) :
    (GlobalInt64SumAvg.total read rows).Within rows.length := by
  induction rows using List.reverseRecOn with
  | nil => exact GlobalInt64SumAvg.Partial.default_within 0
  | append_singleton rows row ih =>
    rw [total_concat, List.length_append]
    exact ih.join (GlobalInt64SumAvg.Partial.single_within _)

theorem countP_concat (p : Nat → Bool) :
    ((rows ++ [row]).countP p : Int) = (rows.countP p : Int) + if p row then 1 else 0 := by
  rw [List.countP_append, List.countP_singleton]
  cases p row <;> rfl

end

end AggregateSpec

/-! ## Arguments -/

section
variable {declared : List Declared} {t : Table} {spec : AggregateSpec} {row : Nat}
  (hc : Table.Consistent declared t) (hfits : spec.Fits t) (hrow : row < t.rowCount)
include hc hfits hrow

theorem AggregateSpec.Fits.read {argument : Nat} (hargument : spec.argument = some argument) :
    ∃ column value, t.columns[argument]? = some column ∧ spec.inputType = some column.dataType ∧
      t.valueAt argument row = some value ∧ spec.read t row = some value ∧ value.dataType = column.dataType ∧
      value.IsCell := by
  obtain ⟨column, hcolumn, htype⟩ := hfits.argument argument hargument
  obtain ⟨value, hvalue, hvalueType, hcell⟩ := valueAt_of_column hc hcolumn hrow
  refine ⟨column, value, hcolumn, htype, hvalue, ?_, hvalueType, hcell⟩
  rw [AggregateSpec.read, hargument]
  exact hvalue

omit hc hrow in
theorem AggregateSpec.Fits.isSome_argument (h : spec.inputType.isSome) : ∃ argument, spec.argument = some argument := by
  cases hargument : spec.argument with
  | some argument => exact ⟨argument, rfl⟩
  | none =>
    rw [(hfits.empty hargument).2] at h
    cases h

namespace AggregateState

theorem argumentValue_eq (h : spec.inputType.isSome) :
    ∃ value, argumentValue spec t row = .ok value ∧ spec.read t row = some value := by
  obtain ⟨argument, hargument⟩ := hfits.isSome_argument h
  obtain ⟨column, value, _, _, hvalue, hread, _⟩ := hfits.read hc hrow hargument
  refine ⟨value, ?_, hread⟩
  rw [argumentValue, hargument, orPanic_some, Exec.ok_bind, hvalue]
  rfl

theorem shouldCount_eq (hcount : spec.function = .count ∨ spec.function = .countIf) :
    shouldCount spec t row = .ok (spec.counts t row) := by
  rw [shouldCount, AggregateSpec.counts]
  rcases hcount with hfunction | hfunction
  · simp only [hfunction, reduceCtorEq, if_false]
    cases hargument : spec.argument with
    | none => rfl
    | some argument =>
      obtain ⟨column, value, _, htype, hvalue, hread, _⟩ := hfits.read hc hrow hargument
      obtain ⟨value', hvalue', hread'⟩ := argumentValue_eq hc hfits hrow (by rw [htype]; rfl)
      simp only [Option.isNone_some, Bool.false_eq_true, if_false]
      rw [hvalue', AggregateSpec.present, hread']
      cases value' <;> rfl
  · simp only [hfunction, if_true]
    obtain ⟨argument, hargument⟩ := hfits.isSome_argument (by rw [hfits.countIf hfunction]; rfl)
    obtain ⟨column, value, _, htype, hvalue, hread, hvalueType, hcell⟩ := hfits.read hc hrow hargument
    have hbool := htype.symm.trans (hfits.countIf hfunction)
    obtain ⟨b, rfl⟩ := cell_bool hcell (hvalueType.trans (Option.some.inj hbool))
    rw [hargument, orPanic_some, Exec.ok_bind, boolAt_eq, hvalue, hread]
    cases b <;> rfl

theorem int64Argument_eq (h : spec.inputType = some .int64) : int64Argument spec t row = .ok (spec.integer t row) := by
  obtain ⟨argument, hargument⟩ := hfits.isSome_argument (by rw [h]; rfl)
  obtain ⟨column, value, hcolumn, htype, hvalue, hread, _⟩ := hfits.read hc hrow hargument
  have hint := htype.symm.trans h
  rw [int64Argument, hargument, orPanic_some, Exec.ok_bind, hcolumn, orPanic_some, Exec.ok_bind, AggregateSpec.integer,
    hread]
  rw [Table.valueAt, hcolumn, Option.bind_some] at hvalue
  cases column with
  | int64 values =>
    obtain ⟨n, hn, rfl⟩ := Option.map_eq_some_iff.1 hvalue
    dsimp only
    rw [hn]
    rfl
  | nullableInt64 values =>
    obtain ⟨cell, hn, rfl⟩ := Option.map_eq_some_iff.1 hvalue
    dsimp only
    rw [hn]
    cases cell <;> rfl
  | _ => cases hint

theorem float64Argument_eq (h : spec.inputType = some .float64) :
    ∃ x, float64Argument spec t row = .ok x ∧ spec.number t row = some x := by
  obtain ⟨argument, hargument⟩ := hfits.isSome_argument (by rw [h]; rfl)
  obtain ⟨column, value, hcolumn, htype, hvalue, hread, hvalueType, hcell⟩ := hfits.read hc hrow hargument
  obtain ⟨x, rfl⟩ := cell_float64 hcell (hvalueType.trans (Option.some.inj (htype.symm.trans h)))
  refine ⟨x, ?_, ?_⟩
  · rw [float64Argument, hargument, orPanic_some, Exec.ok_bind, float64At_eq, hvalue]
    rfl
  · rw [AggregateSpec.number, hread]
    rfl

end AggregateState

end

/-! ## One more row in a state -/

section
variable {declared : List Declared} {t : Table} {spec : AggregateSpec} {row : Nat} {rows : List Nat}
  {arithmetic : FloatArithmetic} {limits : QueryResultLimits}
  (hc : Table.Consistent declared t) (hfits : spec.Fits t) (hrow : row < t.rowCount)
include hc hfits hrow

namespace AggregateState

open GlobalInt64SumAvg (total)

theorem updateIntSum_eq (operation : SumOperation) (h : spec.inputType = some .int64)
    (hlength : (rows ++ [row]).length ≤ usizeMax) :
    updateIntSum spec t row operation (total (spec.integer t) rows).sum (total (spec.integer t) rows).count =
      .ok ((total (spec.integer t) (rows ++ [row])).sum, (total (spec.integer t) (rows ++ [row])).count) := by
  have hwithin := AggregateSpec.total_within (spec.integer t) (rows ++ [row])
  rw [updateIntSum, int64Argument_eq hc hfits hrow h, Exec.ok_bind]
  rw [AggregateSpec.total_concat] at hwithin ⊢
  cases hvalue : spec.integer t row with
  | none =>
    rw [GlobalInt64SumAvg.Partial.single, GlobalInt64SumAvg.Partial.join_default]
  | some value =>
    rw [hvalue] at hwithin
    have hobserve : GlobalInt64SumAvg.Partial.observe operation (total (spec.integer t) rows) value =
        .ok ((total (spec.integer t) rows).join (.single (some value))) :=
      GlobalInt64SumAvg.Partial.merge_eq operation hwithin hlength
    dsimp only
    rw [hobserve]
    rfl

theorem updateFloatSum_eq (operation : SumOperation) (h : spec.inputType = some .float64)
    (hlength : (rows ++ [row]).length ≤ usizeMax) :
    updateFloatSum spec t row arithmetic operation (spec.numberSum t arithmetic rows)
        (rows.filterMap (spec.number t)).length =
      .ok (spec.numberSum t arithmetic (rows ++ [row]), ((rows ++ [row]).filterMap (spec.number t)).length) := by
  obtain ⟨x, hargument, hnumber⟩ := float64Argument_eq hc hfits hrow h
  have hterms := (List.length_filterMap_le (spec.number t) (rows ++ [row])).trans hlength
  rw [List.filterMap_append, List.filterMap_cons_some hnumber, List.filterMap_nil, List.length_append,
    List.length_singleton] at hterms ⊢
  rw [updateFloatSum, hargument, Exec.ok_bind, checkedAdd_of_le hterms, getOr_some, Exec.ok_bind,
    AggregateSpec.numberSum_concat, hnumber]
  rfl

theorem updateExtreme_ends (side : Ordering) (h : spec.inputType.isSome) (bytes : Nat) :
    (updateExtreme spec t row side (extreme side (rows.filterMap (spec.present t))) bytes
        limits.maxAggregateStateBytes).Ends
      (fun updated => updated.1 = extreme side ((rows ++ [row]).filterMap (spec.present t))) limits.Refusal := by
  obtain ⟨value, hvalue, hread⟩ := argumentValue_eq hc hfits hrow h
  have hpresent : spec.present t row = if value.isNull then none else some value := by
    rw [AggregateSpec.present, hread]
    cases value <;> rfl
  rw [updateExtreme, hvalue, Exec.ok_bind, AggregateSpec.extreme_concat, hpresent]
  generalize extreme side (rows.filterMap (spec.present t)) = current
  by_cases hnull : value.isNull = true
  · rw [if_neg fun hboth => hboth.1 hnull, if_pos hnull]
    rfl
  · rw [if_neg hnull, Option.elim_some]
    by_cases hside : (current.all fun existing => value.cmp existing = side) = true
    · rw [if_pos ⟨hnull, hside⟩, if_pos hside, replaceExtreme]
      refine (enforceResourceLimit_ends (Nat.min_le_right _ _) fun hunlimited => ?_).bind fun _ _ => rfl
      rw [hunlimited]
      rfl
    · rw [if_neg fun hboth => hside hboth.2, if_neg hside]
      rfl

theorem updateCount_eq (hcount : spec.function = .count ∨ spec.function = .countIf)
    (hlength : (rows ++ [row]).length < 2 ^ 63) (bytes maxBytes : Nat) :
    (AggregateState.count (rows.countP (spec.counts t))).update spec t row arithmetic bytes maxBytes =
      .ok (.count ((rows ++ [row]).countP (spec.counts t)), bytes) := by
  have hle : (rows ++ [row]).countP (spec.counts t) ≤ (rows ++ [row]).length := List.countP_le_length
  have hconcat := @AggregateSpec.countP_concat rows row (spec.counts t)
  rw [update, shouldCount_eq hc hfits hrow hcount, Exec.ok_bind, hconcat]
  cases hcounts : spec.counts t row with
  | false => simp
  | true =>
    rw [hcounts, if_pos rfl] at hconcat
    rw [if_pos rfl, if_pos rfl, checked_counter _ (by omega), if_pos (by omega)]
    rfl

/-- **An update** makes the state over the rows that over one more row. -/
theorem update_ends (hlength : (rows ++ [row]).length < 2 ^ 63) (bytes : Nat) :
    ((spec.stateOver t arithmetic rows).update spec t row arithmetic bytes limits.maxAggregateStateBytes).Ends
      (fun updated => updated.1 = spec.stateOver t arithmetic (rows ++ [row])) limits.Refusal := by
  have husize : (rows ++ [row]).length ≤ usizeMax := hlength.le.trans (by decide)
  have hargument (h : spec.function ≠ .count) : spec.inputType.isSome := by
    cases hargument : spec.argument with
    | none => exact absurd (hfits.empty hargument).1 h
    | some argument =>
      obtain ⟨column, _, htype⟩ := hfits.argument argument hargument
      rw [htype]
      rfl
  unfold AggregateSpec.stateOver
  cases hfunction : spec.function with
  | count =>
    dsimp only
    rw [updateCount_eq hc hfits hrow (.inl hfunction) hlength]
    rfl
  | countIf =>
    dsimp only
    rw [updateCount_eq hc hfits hrow (.inr hfunction) hlength]
    rfl
  | sum =>
    dsimp only
    by_cases hint : spec.inputType = some .int64
    · rw [if_pos hint, if_pos hint, update, updateIntSum_eq hc hfits hrow .sum hint husize]
      rfl
    · have hfloat := (hfits.numeric (.inl hfunction)).resolve_left hint
      rw [if_neg hint, if_neg hint, update, updateFloatSum_eq hc hfits hrow .sum hfloat husize]
      rfl
  | avg =>
    dsimp only
    by_cases hint : spec.inputType = some .int64
    · rw [if_pos hint, if_pos hint, update, updateIntSum_eq hc hfits hrow .avg hint husize]
      rfl
    · have hfloat := (hfits.numeric (.inr hfunction)).resolve_left hint
      rw [if_neg hint, if_neg hint, update, updateFloatSum_eq hc hfits hrow .avg hfloat husize]
      rfl
  | min =>
    dsimp only
    rw [update]
    refine (updateExtreme_ends hc hfits hrow .lt (hargument (by rw [hfunction]; decide)) bytes).bind fun updated h => ?_
    exact congrArg AggregateState.min h
  | max =>
    dsimp only
    rw [update]
    refine (updateExtreme_ends hc hfits hrow .gt (hargument (by rw [hfunction]; decide)) bytes).bind fun updated h => ?_
    exact congrArg AggregateState.max h

end AggregateState

end

end RustHouse.Batch
