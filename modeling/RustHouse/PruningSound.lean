import Mathlib.Data.List.Sort
import RustHouse.MetadataInvariant
import RustHouse.PredicateSound

/-!
# Pruning selects the same rows

`matchingRows_fullScan`: the rows that partitions and index blocks leave are
evaluated to the same selection as all rows. A row that satisfies a filter lies
in a partition and in a block whose bounds admit the filter, so that neither is
pruned.
-/

namespace RustHouse.Batch

open Checked Exec Words

/-! ## Filters -/

def Int64Filter.Admits : Int64Filter → Int64 → Prop
  | equal value, v => v = value
  | less value, v => v < value
  | lessOrEqual value, v => v ≤ value
  | greater value, v => value < v
  | greaterOrEqual value, v => value ≤ v
  | inclusiveRange lower upper, v => lower ≤ v ∧ v ≤ upper

theorem mayMatch_of_admits {filter : Int64Filter} {v lowerBound upperBound : Int64} (h : filter.Admits v)
    (hlower : lowerBound ≤ v) (hupper : v ≤ upperBound) : filter.mayMatch lowerBound upperBound = true := by
  cases filter with
  | equal value =>
    obtain rfl : v = value := h
    simp only [Int64Filter.mayMatch, hlower, hupper, decide_true, Bool.and_self]
  | less value => exact decide_eq_true (Std.lt_of_le_of_lt hlower h)
  | lessOrEqual value => exact decide_eq_true (Std.le_trans hlower h)
  | greater value => exact decide_eq_true (Std.lt_of_lt_of_le h hupper)
  | greaterOrEqual value => exact decide_eq_true (Std.le_trans h hupper)
  | inclusiveRange lower upper =>
    have hrange : lower ≤ upper := Std.le_trans h.1 h.2
    have habove : upperBound ≥ lower := Std.le_trans h.1 hupper
    have hbelow : lowerBound ≤ upper := Std.le_trans hlower h.2
    simp only [Int64Filter.mayMatch, hrange, habove, hbelow, decide_true, Bool.and_self]

theorem comparisonFilter_admits {value v : Int64} {operator : ComparisonOperator} {filter : Int64Filter}
    (h : CompiledPredicate.comparisonFilter value operator = some filter) :
    filter.Admits v ↔ operator.accepts (compare v.toInt value.toInt) = true := by
  cases operator with
  | notEqual => cases h
  | equal =>
    obtain rfl := Option.some.inj h
    simp only [Int64Filter.Admits, ComparisonOperator.accepts, decide_eq_true_eq, compare_eq_iff_eq, Int64.toInt_inj]
  | less =>
    obtain rfl := Option.some.inj h
    simp only [Int64Filter.Admits, ComparisonOperator.accepts, decide_eq_true_eq, compare_lt_iff_lt,
      Int64.lt_iff_toInt_lt]
  | lessOrEqual =>
    obtain rfl := Option.some.inj h
    simp only [Int64Filter.Admits, ComparisonOperator.accepts, ne_eq, decide_eq_true_eq, compare_gt_iff_gt,
      Int64.le_iff_toInt_le]
    omega
  | greater =>
    obtain rfl := Option.some.inj h
    simp only [Int64Filter.Admits, ComparisonOperator.accepts, decide_eq_true_eq, compare_gt_iff_gt,
      Int64.lt_iff_toInt_lt]
  | greaterOrEqual =>
    obtain rfl := Option.some.inj h
    simp only [Int64Filter.Admits, ComparisonOperator.accepts, ne_eq, decide_eq_true_eq, compare_lt_iff_lt,
      Int64.le_iff_toInt_le]
    omega

theorem reverseComparison_accepts (operator : ComparisonOperator) (comparison : Ordering) :
    (reverseComparison operator).accepts comparison.swap = operator.accepts comparison := by
  cases operator <;> cases comparison <;> rfl

theorem toInt_bounds (v : Int64) : -2 ^ 63 ≤ v.toInt ∧ v.toInt < 2 ^ 63 := ⟨v.le_toInt, v.toInt_lt⟩

/-- A value is above another exactly when it is at least its successor. -/
theorem checkedSucc_spec (lower v : Int64) :
    match checkedSucc lower with
    | none => ¬ lower < v
    | some lower' => lower < v ↔ lower' ≤ v := by
  have hv := toInt_bounds v
  have hl := toInt_bounds lower
  unfold checkedSucc
  split
  · rename_i h
    split at h
    · rename_i hmax
      rw [Int64.lt_iff_toInt_lt, hmax, Int64.toInt_maxValue]
      omega
    · cases h
  · rename_i lower' h
    split at h
    · cases h
    · rename_i hmax
      obtain rfl := Option.some.inj h
      rw [← Int64.toInt_inj, Int64.toInt_maxValue] at hmax
      have hone : (lower + 1).toInt = lower.toInt + 1 := by
        rw [Int64.toInt_add]
        exact Int.bmod_eq_of_le (by show -_ ≤ lower.toInt + 1; omega) (by show lower.toInt + 1 < _; omega)
      rw [Int64.lt_iff_toInt_lt, Int64.le_iff_toInt_le, hone]
      omega

/-- A value is below another exactly when it is at most its predecessor. -/
theorem checkedPred_spec (upper v : Int64) :
    match checkedPred upper with
    | none => ¬ v < upper
    | some upper' => v < upper ↔ v ≤ upper' := by
  have hv := toInt_bounds v
  have hu := toInt_bounds upper
  unfold checkedPred
  split
  · rename_i h
    split at h
    · rename_i hmin
      rw [Int64.lt_iff_toInt_lt, hmin, Int64.toInt_minValue]
      omega
    · cases h
  · rename_i upper' h
    split at h
    · cases h
    · rename_i hmin
      obtain rfl := Option.some.inj h
      rw [← Int64.toInt_inj, Int64.toInt_minValue] at hmin
      have hone : (upper - 1).toInt = upper.toInt - 1 := by
        rw [Int64.toInt_sub]
        exact Int.bmod_eq_of_le (by show -_ ≤ upper.toInt - 1; omega) (by show upper.toInt - 1 < _; omega)
      rw [Int64.lt_iff_toInt_lt, Int64.le_iff_toInt_le, hone]
      omega

theorem normalizedInt64Range_admits (lower upper v : Int64) (lowerStrict upperStrict : Bool) :
    (normalizedInt64Range lower lowerStrict upper upperStrict).Admits v ↔
      (if lowerStrict then lower < v else lower ≤ v) ∧ (if upperStrict then v < upper else v ≤ upper) := by
  have hsucc := checkedSucc_spec lower v
  have hpred := checkedPred_spec upper v
  have hempty : ¬ emptyInt64Range.Admits v := by
    have hv := toInt_bounds v
    simp only [emptyInt64Range, Int64Filter.Admits, Int64.le_iff_toInt_le, Int64.toInt_maxValue, Int64.toInt_minValue]
    omega
  unfold normalizedInt64Range
  cases lowerStrict <;> cases upperStrict <;> cases hs : checkedSucc lower <;> cases hp : checkedPred upper <;>
    simp_all [Int64Filter.Admits]

/-! ## Extraction -/

def CompiledOperand.WellTyped (t : Table) : CompiledOperand → Prop
  | column index dataType => ∀ row value, t.valueAt index row = some value → value.dataType = dataType
  | literal _ => True

def CompiledPredicate.WellTyped (t : Table) : CompiledPredicate → Prop
  | comparison left _ right => left.WellTyped t ∧ right.WellTyped t
  | and left right | or left right => left.WellTyped t ∧ right.WellTyped t
  | _ => True

def Int64Filter.Holds (t : Table) (row column : Nat) (filter : Int64Filter) : Prop :=
  ∃ v, t.valueAt column row = some (.int64 v) ∧ filter.Admits v

section
variable {declared : List Declared} {t : Table} {row : Nat}

theorem column_value_dataType {column : Column} {value : Value} (h : column.value row = some value) :
    value.dataType = column.dataType := by
  cases column <;> obtain ⟨v, _, rfl⟩ := Option.map_eq_some_iff.1 h
  case nullableInt64 values => cases v <;> rfl
  all_goals rfl

theorem compileColumn_wellTyped (h : Table.Consistent declared t) {name : String} {operand : CompiledOperand}
    (hc : compileColumn t name = .ok operand) : operand.WellTyped t := by
  obtain ⟨i, hi, hc⟩ := Exec.bind_eq_ok.1 hc
  obtain ⟨field, hfield, hc⟩ := Exec.bind_eq_ok.1 hc
  obtain rfl := Exec.ok.inj hc
  intro row value hvalue
  obtain ⟨_, d, hd⟩ := Table.columnIndex_eq_ok h hi
  obtain ⟨column, hcolumn, hkind, _⟩ := h.column_of_declared hd
  rw [orPanic_eq_ok, h.schema_getElem?, hd] at hfield
  obtain rfl := Option.some.inj hfield
  rw [Table.valueAt, hcolumn] at hvalue
  exact (column_value_dataType hvalue).trans (congrArg Prod.fst hkind)

theorem compileOperand_wellTyped (h : Table.Consistent declared t) {operand : Operand} {compiled : CompiledOperand}
    (hc : compileOperand t operand = .ok compiled) : compiled.WellTyped t := by
  cases operand with
  | column name => exact compileColumn_wellTyped h hc
  | sharedColumn name => exact compileColumn_wellTyped h hc
  | literal value =>
    obtain ⟨_, _, hc⟩ := Exec.bind_eq_ok.1 hc
    obtain rfl := Exec.ok.inj hc
    exact trivial

theorem compile_wellTyped (h : Table.Consistent declared t) {negated : Bool} {predicate : Predicate}
    {compiled : CompiledPredicate} (hc : compilePredicateWithPolarity t negated predicate = .ok compiled) :
    compiled.WellTyped t := by
  induction predicate generalizing negated compiled with
  | comparison left operator right =>
    obtain ⟨left', hleft, hc⟩ := Exec.bind_eq_ok.1 hc
    obtain ⟨right', hright, hc⟩ := Exec.bind_eq_ok.1 hc
    obtain ⟨_, _, hc⟩ := Exec.bind_eq_ok.1 hc
    obtain rfl := Exec.ok.inj hc
    exact ⟨compileOperand_wellTyped h hleft, compileOperand_wellTyped h hright⟩
  | isNull column | isNotNull column | likePrefix column | likeSuffix column | likeContains column =>
    obtain ⟨i, _, hc⟩ := Exec.bind_eq_ok.1 hc
    obtain rfl := Exec.ok.inj hc
    exact trivial
  | not predicate ih => exact ih hc
  | and left right ihLeft ihRight | or left right ihLeft ihRight =>
    obtain ⟨left', hleft, hc⟩ := Exec.bind_eq_ok.1 hc
    obtain ⟨right', hright, hc⟩ := Exec.bind_eq_ok.1 hc
    obtain rfl := Exec.ok.inj hc
    cases negated <;> exact ⟨ihLeft hleft, ihRight hright⟩

theorem integer_of_sqlCmp {value : Value} {v : Int64} {comparison : Ordering} (htype : value.dataType = .int64)
    (h : value.sqlCmp (.int64 v) = some comparison) :
    ∃ w, value = .int64 w ∧ comparison = compare w.toInt v.toInt := by
  cases value with
  | int64 w => exact ⟨w, rfl, (Option.some.inj h).symm⟩
  | null => cases h
  | _ => cases htype

theorem integer_of_sqlCmp_swap {value : Value} {v : Int64} {comparison : Ordering} (htype : value.dataType = .int64)
    (h : (Value.int64 v).sqlCmp value = some comparison) :
    ∃ w, value = .int64 w ∧ comparison = (compare w.toInt v.toInt).swap := by
  cases value with
  | int64 w => exact ⟨w, rfl, by rw [compare_swap]; exact (Option.some.inj h).symm⟩
  | null => cases h
  | _ => cases htype

theorem evaluate_comparison {left right : CompiledOperand} {operator : ComparisonOperator}
    (h : (CompiledPredicate.comparison left operator right).evaluate t row = some true) :
    ∃ a b comparison, left.value t row = some a ∧ right.value t row = some b ∧ a.sqlCmp b = some comparison ∧
      operator.accepts comparison = true := by
  obtain ⟨a, ha, h⟩ := Option.bind_eq_some_iff.1 h
  obtain ⟨b, hb, h⟩ := Option.bind_eq_some_iff.1 h
  have haccepts := Option.some.inj h
  cases hcmp : a.sqlCmp b with
  | none => rw [hcmp] at haccepts; cases haccepts
  | some comparison => rw [hcmp] at haccepts; exact ⟨a, b, comparison, ha, hb, hcmp, haccepts⟩

theorem int64Filter_holds {p : CompiledPredicate} {column : Nat} {filter : Int64Filter} (htyped : p.WellTyped t)
    (h : p.int64Filter = some (column, filter)) (heval : p.evaluate t row = some true) : filter.Holds t row column := by
  unfold CompiledPredicate.int64Filter at h
  split at h
  · obtain ⟨filter', hfilter, heq⟩ := Option.map_eq_some_iff.1 h
    obtain ⟨rfl, rfl⟩ := Prod.mk.inj heq
    obtain ⟨a, b, comparison, ha, hb, hcmp, haccepts⟩ := evaluate_comparison heval
    obtain rfl := Option.some.inj hb
    obtain ⟨w, rfl, rfl⟩ := integer_of_sqlCmp (htyped.1 row a ha) hcmp
    exact ⟨w, ha, (comparisonFilter_admits hfilter).2 haccepts⟩
  · obtain ⟨filter', hfilter, heq⟩ := Option.map_eq_some_iff.1 h
    obtain ⟨rfl, rfl⟩ := Prod.mk.inj heq
    obtain ⟨a, b, comparison, ha, hb, hcmp, haccepts⟩ := evaluate_comparison heval
    obtain rfl := Option.some.inj ha
    obtain ⟨w, rfl, rfl⟩ := integer_of_sqlCmp_swap (htyped.2 row b hb) hcmp
    refine ⟨w, hb, (comparisonFilter_admits hfilter).2 ?_⟩
    rwa [← reverseComparison_accepts, Ordering.swap_swap] at haccepts
  · cases h

theorem evaluate_and_true {left right : CompiledPredicate} (h : (left.and right).evaluate t row = some true) :
    left.evaluate t row = some true ∧ right.evaluate t row = some true := by
  obtain ⟨a, ha, h⟩ := Option.bind_eq_some_iff.1 h
  cases a with
  | false => cases h
  | true => exact ⟨ha, h⟩

theorem Holds.range {lowerColumn upperColumn column : Nat} {lowerFilter upperFilter filter : Int64Filter}
    {lower upper : Int64} {lowerStrict upperStrict : Bool}
    (h : (if lowerColumn ≠ upperColumn then none
      else some (lowerColumn, normalizedInt64Range lower lowerStrict upper upperStrict)) = some (column, filter))
    (hlower : lowerFilter.Holds t row lowerColumn) (hupper : upperFilter.Holds t row upperColumn)
    (hlowerAdmits : ∀ v, lowerFilter.Admits v → if lowerStrict then lower < v else lower ≤ v)
    (hupperAdmits : ∀ v, upperFilter.Admits v → if upperStrict then v < upper else v ≤ upper) :
    filter.Holds t row column := by
  split at h
  · cases h
  · rename_i hcolumns
    obtain rfl := not_not.1 hcolumns
    obtain ⟨rfl, rfl⟩ := Prod.mk.inj (Option.some.inj h)
    obtain ⟨v, hv, hadmits⟩ := hlower
    obtain ⟨v', hv', hadmits'⟩ := hupper
    obtain rfl := Value.int64.inj (Option.some.inj (hv.symm.trans hv'))
    exact ⟨v, hv, (normalizedInt64Range_admits ..).2 ⟨hlowerAdmits v hadmits, hupperAdmits v hadmits'⟩⟩

theorem int64RangeFilter_holds {p : CompiledPredicate} {column : Nat} {filter : Int64Filter} (htyped : p.WellTyped t)
    (h : p.int64RangeFilter = some (column, filter)) (heval : p.evaluate t row = some true) :
    filter.Holds t row column := by
  unfold CompiledPredicate.int64RangeFilter at h
  split at h
  · obtain ⟨hfirst, hsecond⟩ := evaluate_and_true heval
    obtain ⟨⟨firstColumn, firstFilter⟩, hfirstFilter, h⟩ := Option.bind_eq_some_iff.1 h
    obtain ⟨⟨secondColumn, secondFilter⟩, hsecondFilter, h⟩ := Option.bind_eq_some_iff.1 h
    have hfirst := int64Filter_holds htyped.1 hfirstFilter hfirst
    have hsecond := int64Filter_holds htyped.2 hsecondFilter hsecond
    dsimp only at h hfirst hsecond
    -- Either comparison may be the lower bound, and each is strict or not.
    split at h
    · exact Holds.range h hfirst hsecond (fun _ h => h) fun _ h => h
    · exact Holds.range h hsecond hfirst (fun _ h => h) fun _ h => h
    · exact Holds.range h hfirst hsecond (fun _ h => h) fun _ h => h
    · exact Holds.range h hsecond hfirst (fun _ h => h) fun _ h => h
    · exact Holds.range h hfirst hsecond (fun _ h => h) fun _ h => h
    · exact Holds.range h hsecond hfirst (fun _ h => h) fun _ h => h
    · exact Holds.range h hfirst hsecond (fun _ h => h) fun _ h => h
    · exact Holds.range h hsecond hfirst (fun _ h => h) fun _ h => h
    · cases h
  · cases h

theorem int64PartitionFilter_holds {p : CompiledPredicate} {column : Nat} {filter : Int64Filter}
    (htyped : p.WellTyped t) (h : p.int64PartitionFilter = some (column, filter))
    (heval : p.evaluate t row = some true) : filter.Holds t row column := by
  obtain hfilter | ⟨_, hrange⟩ := Option.or_eq_some_iff.1 h
  · exact int64Filter_holds htyped hfilter heval
  · exact int64RangeFilter_holds htyped hrange heval

/-! ## Partitions -/

theorem partitions_enclosed {first : Int64RangePartitionMetadata} {rest : List Int64RangePartitionMetadata}
    (hordered : (first :: rest).Pairwise fun p q => p.rowEnd ≤ q.rowStart)
    (hinside : ∀ p ∈ first :: rest, p.rowStart ≤ p.rowEnd) :
    rest.getLast?.getD first ∈ first :: rest ∧
      ∀ p ∈ first :: rest, first.rowStart ≤ p.rowStart ∧ p.rowEnd ≤ (rest.getLast?.getD first).rowEnd := by
  obtain ⟨hrest, hordered⟩ := List.pairwise_cons.1 hordered
  obtain ⟨hfirst, hinside⟩ := List.forall_mem_cons.1 hinside
  cases hlast : rest.getLast? with
  | none =>
    obtain rfl := List.getLast?_eq_none_iff.1 hlast
    refine ⟨List.mem_singleton.2 rfl, fun p hp => ?_⟩
    obtain rfl := List.mem_singleton.1 hp
    exact ⟨Nat.le_refl _, Nat.le_refl _⟩
  | some last =>
    obtain ⟨between, rfl⟩ := List.getLast?_eq_some_iff.1 hlast
    have hmem : last ∈ between ++ [last] := List.mem_append_right _ (List.mem_singleton.2 rfl)
    have hlastFirst := hrest last hmem
    have hlastRows := hinside last hmem
    refine ⟨List.mem_cons_of_mem _ hmem, fun p hp => ?_⟩
    show first.rowStart ≤ p.rowStart ∧ p.rowEnd ≤ last.rowEnd
    obtain rfl | hp := List.mem_cons.1 hp
    · omega
    · have hpFirst := hrest p hp
      obtain hp | hp := List.mem_append.1 hp
      · have hpLast := (List.pairwise_append.1 hordered).2.2 p hp last (List.mem_singleton.2 rfl)
        omega
      · obtain rfl := List.mem_singleton.1 hp
        omega

theorem partitionRows_sound (hd : Table.Described t) {column : Nat} {filter : Int64Filter} {range : RowRange}
    (h : t.int64RangePartitionRows column filter = some range) :
    range.2 ≤ t.rowCount ∧
      ∀ row < t.rowCount, filter.Holds t row column → range.1 ≤ row ∧ row < range.2 := by
  obtain ⟨set, hset, hrows⟩ := Option.bind_eq_some_iff.1 h
  obtain ⟨hordered, hinside, hcovers, values, hvalues, hbounds⟩ := hd.partitions set hset
  split at hrows
  · cases hrows
  · rename_i hcolumn
    obtain rfl := not_not.1 hcolumn
    -- The partition of the row is one of those selected.
    have hselected : ∀ row < t.rowCount, filter.Holds t row set.columnIndex →
        ∃ p ∈ set.partitions.filter fun partition => filter.mayMatch partition.lowerBound partition.upperBound,
          p.rowStart ≤ row ∧ row < p.rowEnd := by
      rintro row hrow ⟨v, hv, hadmits⟩
      obtain ⟨p, hp, hfirst, hlast⟩ := hcovers row hrow
      rw [Table.valueAt, hvalues, Option.bind_some, Column.value, Option.map_eq_some_iff] at hv
      obtain ⟨w, hw, heq⟩ := hv
      obtain rfl := Value.int64.inj heq
      obtain ⟨hlower, hupper⟩ := hbounds p hp row w hfirst hlast hw
      exact ⟨p, List.mem_filter.2 ⟨hp, mayMatch_of_admits hadmits hlower hupper⟩, hfirst, hlast⟩
    have hsorted := hordered.filter fun partition => filter.mayMatch partition.lowerBound partition.upperBound
    split at hrows
    · rename_i hnone
      obtain rfl := Option.some.inj hrows
      refine ⟨Nat.zero_le _, fun row hrow hholds => ?_⟩
      obtain ⟨p, hp, _⟩ := hselected row hrow hholds
      rw [hnone] at hp
      cases hp
    · rename_i first selected hsome
      obtain rfl := Option.some.inj hrows
      rw [hsome] at hselected hsorted
      have hwithin : ∀ p ∈ first :: selected, p.rowStart ≤ p.rowEnd ∧ p.rowEnd ≤ t.rowCount := fun p hp =>
        hinside p (List.mem_filter.1 (hsome ▸ hp)).1
      obtain ⟨hmem, henclosed⟩ := partitions_enclosed hsorted fun p hp => (hwithin p hp).1
      refine ⟨(hwithin _ hmem).2, fun row hrow hholds => ?_⟩
      obtain ⟨p, hp, hstart, hend⟩ := hselected row hrow hholds
      exact ⟨Nat.le_trans (henclosed p hp).1 hstart, Nat.lt_of_lt_of_le hend (henclosed p hp).2⟩

/-! ## Block summaries -/

/-- A block counts its rows and its NULLs, and bounds its integers. -/
structure Summarizes (values : List (Option Int64)) (block : Int64MinMaxBlockMetadata) : Prop where
  rowCount : block.rowCount = values.length
  nullCount : block.nullCount = values.count none
  bounds : ∀ v, some v ∈ values → ∃ min max, block.min = some min ∧ block.max = some max ∧ min ≤ v ∧ v ≤ max

theorem max_spec (a b : Int64) : a ≤ max a b ∧ b ≤ max a b := by
  show a ≤ (if a ≤ b then b else a) ∧ b ≤ (if a ≤ b then b else a)
  split
  · rename_i hle
    exact ⟨hle, Std.le_refl b⟩
  · rename_i hnot
    exact ⟨Std.le_refl a, (Std.le_total (a := a) (b := b)).resolve_left hnot⟩

theorem extremes_spec (min max : Option Int64) (v : Int64) :
    (min.elim v fun current => Min.min current v) ≤ v ∧ v ≤ (max.elim v fun current => Max.max current v) := by
  constructor
  · cases min with
    | none => exact Std.le_refl v
    | some current => exact Std.min_le_right
  · cases max with
    | none => exact Std.le_refl v
    | some current => exact (max_spec current v).2

theorem summarize_append (firstRow : Nat) (values : List (Option Int64)) (value : Option Int64) :
    Table.summarizeNullableInt64Block firstRow (values ++ [value]) =
      let block := Table.summarizeNullableInt64Block firstRow values
      match value with
      | some value => { block with
          rowCount := saturatingAdd block.rowCount 1
          min := some (block.min.elim value fun current => Min.min current value)
          max := some (block.max.elim value fun current => Max.max current value) }
      | none => { block with
          rowCount := saturatingAdd block.rowCount 1, nullCount := saturatingAdd block.nullCount 1 } := by
  rw [Table.summarizeNullableInt64Block, List.foldl_append]
  rfl

theorem summarize_spec (firstRow : Nat) {values : List (Option Int64)} (hlen : values.length ≤ usizeMax) :
    (Table.summarizeNullableInt64Block firstRow values).firstRow = firstRow ∧
      Summarizes values (Table.summarizeNullableInt64Block firstRow values) := by
  induction values using List.reverseRecOn with
  | nil => exact ⟨rfl, rfl, rfl, nofun⟩
  | append_singleton values value ih =>
    rw [List.length_append, List.length_singleton] at hlen
    obtain ⟨hfirst, hrows, hnulls, hbounds⟩ := ih (by omega)
    have hcount : values.count none ≤ values.length := List.count_le_length
    rw [summarize_append]
    cases value with
    | none =>
      refine ⟨hfirst, ?_, ?_, fun v hv => ?_⟩
      · show saturatingAdd _ 1 = _
        rw [hrows, saturatingAdd_of_le (by omega), List.length_append]
        rfl
      · show saturatingAdd _ 1 = _
        rw [hnulls, saturatingAdd_of_le (by omega), List.count_append]
        rfl
      · obtain hv | hv := List.mem_append.1 hv
        · exact hbounds v hv
        · cases List.mem_singleton.1 hv
    | some value =>
      refine ⟨hfirst, ?_, ?_, fun v hv => ?_⟩
      · show saturatingAdd _ 1 = _
        rw [hrows, saturatingAdd_of_le (by omega), List.length_append]
        rfl
      · show _ = (values ++ [some value]).count none
        rw [List.count_append, List.count_singleton]
        exact hnulls
      · refine ⟨_, _, rfl, rfl, ?_⟩
        obtain hv | hv := List.mem_append.1 hv
        · obtain ⟨min, max, hmin, hmax, hle, hge⟩ := hbounds v hv
          rw [hmin, hmax, Option.elim_some, Option.elim_some]
          exact ⟨Std.le_trans Std.min_le_left hle, Std.le_trans hge (max_spec max value).1⟩
        · obtain rfl := Option.some.inj (List.mem_singleton.1 hv)
          exact extremes_spec _ _ v

theorem blockMayMatch_of_admits {filter : Int64Filter} {v : Int64} {values : List (Option Int64)}
    {block : Int64MinMaxBlockMetadata} (h : Summarizes values block) (hv : some v ∈ values) (hadmits : filter.Admits v) :
    blockMayMatch filter block = true := by
  obtain ⟨min, max, hmin, hmax, hle, hge⟩ := h.bounds v hv
  rw [blockMayMatch, hmin, hmax]
  exact mayMatch_of_admits hadmits hle hge

theorem blockMayMatchNullness_of_mem {isNull : Bool} {cell : Option Int64} {values : List (Option Int64)}
    {block : Int64MinMaxBlockMetadata} (h : Summarizes values block) (hcell : cell ∈ values)
    (hnull : cell.isNone = isNull) : blockMayMatchNullness isNull block = true := by
  rw [blockMayMatchNullness, h.nullCount, h.rowCount]
  cases cell with
  | none =>
    obtain rfl : true = isNull := hnull
    exact decide_eq_true (Nat.ne_of_gt (List.count_pos_iff.2 hcell))
  | some v =>
    obtain rfl : false = isNull := hnull
    refine decide_eq_true (Nat.lt_of_le_of_ne List.count_le_length fun hall => ?_)
    cases List.count_eq_length.1 hall _ hcell

/-! ## Scans -/

/-- Ranges of rows of a table that follow one another. -/
structure Ordered (rowCount : Nat) (ranges : List RowRange) : Prop where
  ordered : ranges.Pairwise fun r s => r.2 ≤ s.1
  inside : ∀ r ∈ ranges, r.2 ≤ rowCount

def blockRange (source : RowRange) (mayMatch : Int64MinMaxBlockMetadata → Bool) (block : Int64MinMaxBlockMetadata) :
    Option RowRange :=
  let start := max block.firstRow source.1
  let stop := min (saturatingAdd block.firstRow block.rowCount) source.2
  if start < stop ∧ mayMatch block then some (start, stop) else none

theorem scanBlocks_ranges (source : RowRange) (mayMatch : Int64MinMaxBlockMetadata → Bool) (scan : Int64MinMaxIndexScan)
    (blocks : List Int64MinMaxBlockMetadata) :
    (scanBlocks source mayMatch scan blocks).ranges = scan.ranges ++ blocks.filterMap (blockRange source mayMatch) := by
  induction blocks generalizing scan with
  | nil => exact (List.append_nil _).symm
  | cons block blocks ih =>
    rw [scanBlocks, ih, List.filterMap_cons]
    unfold blockRange
    by_cases hempty : max block.firstRow source.1 ≥ min (saturatingAdd block.firstRow block.rowCount) source.2
    · simp only [hempty, if_true, Nat.not_lt.2 hempty, false_and, if_false]
    · cases hmatch : mayMatch block with
      | true =>
        simp only [hempty, if_false, if_true, Nat.not_le.1 hempty, true_and]
        exact (List.append_cons ..).symm
      | false => simp only [hempty, if_false, Bool.false_eq_true, and_false]

/-- The integer, or the NULL, of a row. -/
def integerCell (cell : Option Int64) : Value := cell.elim (.null .int64) .int64

theorem integers_length {column : Column} {values : List (Option Int64)} (h : column.integers = some values) :
    values.length = column.len := by
  cases column with
  | int64 => obtain rfl := Option.some.inj h; exact List.length_map _
  | nullableInt64 => obtain rfl := Option.some.inj h; rfl
  | _ => cases h

theorem integers_value {column : Column} {values : List (Option Int64)} (h : column.integers = some values) (row : Nat) :
    column.value row = (values[row]?).map integerCell := by
  cases column with
  | int64 =>
    obtain rfl := Option.some.inj h
    rw [Column.value, List.getElem?_map, Option.map_map]
    rfl
  | nullableInt64 => obtain rfl := Option.some.inj h; rfl
  | _ => cases h

theorem integerCell_inj {a b : Option Int64} (h : integerCell a = integerCell b) : a = b := by
  cases a <;> cases b <;> first | rfl | cases h
  rfl

section
variable {blockRows k : Nat} {values : List (Option Int64)}

/-- The rows of the chunk with number `k`. -/
def chunk (blockRows k : Nat) (values : List (Option Int64)) : List (Option Int64) :=
  (values.drop (k * blockRows)).take blockRows

theorem lt_divCeil (hblock : blockRows ≠ 0) : k < Table.divCeil values.length blockRows ↔ k * blockRows < values.length := by
  rw [Table.divCeil, ← Nat.succ_le_iff, Nat.le_div_iff_mul_le (Nat.pos_of_ne_zero hblock), Nat.succ_mul]
  omega

theorem chunkBlock_spec (hlen : values.length ≤ usizeMax) (hk : k * blockRows < values.length) :
    let block := Table.summarizeNullableInt64Block (saturatingMul k blockRows) (chunk blockRows k values)
    block.firstRow = k * blockRows ∧
      saturatingAdd block.firstRow block.rowCount = min (k * blockRows + blockRows) values.length ∧
      Summarizes (chunk blockRows k values) block := by
  have hfirst : saturatingMul k blockRows = k * blockRows := Nat.min_eq_left (by omega)
  have hchunk : (chunk blockRows k values).length = min blockRows (values.length - k * blockRows) := by
    rw [chunk, List.length_take, List.length_drop]
  have hfits : (chunk blockRows k values).length ≤ usizeMax := by omega
  obtain ⟨hfirstRow, hsummarizes⟩ := summarize_spec (saturatingMul k blockRows) hfits
  refine ⟨hfirstRow.trans hfirst, ?_, hsummarizes⟩
  rw [hsummarizes.rowCount, hfirstRow, hfirst, hchunk, saturatingAdd_of_le (by omega)]
  omega

theorem mem_chunk {row : Nat} {cell : Option Int64} (hcell : values[row]? = some cell) (hfirst : k * blockRows ≤ row)
    (hlast : row < k * blockRows + blockRows) : cell ∈ chunk blockRows k values := by
  refine List.mem_iff_getElem?.2 ⟨row - k * blockRows, ?_⟩
  rw [chunk, List.getElem?_take_of_lt (by omega), List.getElem?_drop, Nat.add_sub_cancel' hfirst]
  exact hcell

theorem chunkRanges_spec (hblock : blockRows ≠ 0) (hlen : values.length ≤ usizeMax) {source : RowRange}
    (hsource : source.2 ≤ values.length) (mayMatch : Int64MinMaxBlockMetadata → Bool) :
    Ordered values.length ((Table.summarizeChunks blockRows values).filterMap (blockRange source mayMatch)) ∧
      ∀ row cell, source.1 ≤ row → row < source.2 → values[row]? = some cell →
        (∀ values block, Summarizes values block → cell ∈ values → mayMatch block = true) →
        ∃ r ∈ (Table.summarizeChunks blockRows values).filterMap (blockRange source mayMatch), r.1 ≤ row ∧ row < r.2 := by
  have hrange : ∀ {block : Int64MinMaxBlockMetadata} {r : RowRange}, blockRange source mayMatch block = some r →
      r.1 = max block.firstRow source.1 ∧ r.2 = min (saturatingAdd block.firstRow block.rowCount) source.2 := by
    intro block r h
    unfold blockRange at h
    dsimp only at h
    split at h
    · obtain rfl := Option.some.inj h
      exact ⟨rfl, rfl⟩
    · cases h
  refine ⟨⟨?_, fun r hr => ?_⟩, fun row cell hfirst hlast hcell hmay => ?_⟩
  · rw [List.pairwise_filterMap, Table.summarizeChunks, List.pairwise_map]
    refine List.Pairwise.imp_of_mem ?_ List.pairwise_lt_range
    intro j k hj hk hjk r hr s hs
    rw [List.mem_range, lt_divCeil hblock] at hj hk
    obtain ⟨_, hjlast, _⟩ := chunkBlock_spec hlen hj
    obtain ⟨hkfirst, _⟩ := chunkBlock_spec hlen hk
    have hmul : (j + 1) * blockRows ≤ k * blockRows := Nat.mul_le_mul_right _ hjk
    rw [Nat.succ_mul] at hmul
    rw [(hrange hr).2, (hrange hs).1]
    refine Nat.le_trans (Nat.min_le_left _ _) (Nat.le_trans ?_ (Nat.le_max_left _ _))
    exact hjlast.trans_le (Nat.le_trans (Nat.le_trans (Nat.min_le_left _ _) hmul) hkfirst.ge)
  · obtain ⟨block, _, hr⟩ := List.mem_filterMap.1 hr
    rw [(hrange hr).2]
    exact Nat.le_trans (Nat.min_le_right _ _) hsource
  · have hpos := Nat.pos_of_ne_zero hblock
    have hlow : row / blockRows * blockRows ≤ row := Nat.div_mul_le_self _ _
    have hhigh : row < row / blockRows * blockRows + blockRows := by
      rw [← Nat.succ_mul]
      exact (Nat.div_lt_iff_lt_mul hpos).1 (Nat.lt_succ_self _)
    have hk : row / blockRows * blockRows < values.length := by omega
    obtain ⟨hfirstRow, hlastRow, hsummarizes⟩ := chunkBlock_spec hlen hk
    have hstart := Nat.max_le.2 ⟨hfirstRow.trans_le hlow, hfirst⟩
    have hstop := Nat.lt_min.2 ⟨hlastRow ▸ Nat.lt_min.2 ⟨hhigh, by omega⟩, hlast⟩
    have hmatch := hmay _ _ hsummarizes (mem_chunk hcell hlow hhigh)
    have hmem : Table.summarizeNullableInt64Block (saturatingMul (row / blockRows) blockRows)
        (chunk blockRows (row / blockRows) values) ∈ Table.summarizeChunks blockRows values :=
      List.mem_map.2 ⟨_, List.mem_range.2 ((lt_divCeil hblock).2 hk), rfl⟩
    exact ⟨_, List.mem_filterMap.2 ⟨_, hmem, if_pos ⟨Nat.lt_of_le_of_lt hstart hstop, hmatch⟩⟩, hstart, hstop⟩

end

theorem indexScan_sound (hc : Table.Consistent declared t) (hd : Table.Described t) (hrows : t.rowCount ≤ usizeMax)
    {column : Nat} {source : RowRange} {mayMatch : Int64MinMaxBlockMetadata → Bool} {scan : Int64MinMaxIndexScan}
    (h : t.int64MinMaxIndexScanWith column source mayMatch = some scan) (hsource : source.2 ≤ t.rowCount) :
    Ordered t.rowCount scan.ranges ∧
      ∀ row value, source.1 ≤ row → row < source.2 → t.valueAt column row = some value →
        (∀ cell values block, value = integerCell cell → Summarizes values block → cell ∈ values →
          mayMatch block = true) →
        ∃ r ∈ scan.ranges, r.1 ≤ row ∧ row < r.2 := by
  obtain ⟨index, hindex, hscan⟩ := Option.bind_eq_some_iff.1 h
  obtain ⟨_, _, physical, values, hphysical, hvalues, hblocks⟩ := hd.index index hindex
  split at hscan
  · cases hscan
  · rename_i hcurrent
    simp only [not_or, not_not] at hcurrent
    obtain ⟨rfl, _, _, hblock, _⟩ := hcurrent
    obtain rfl := Option.some.inj hscan
    obtain ⟨_, d, hdeclared, _⟩ := hc.index index hindex
    obtain ⟨physical', hphysical', _, hlen⟩ := hc.column_of_declared hdeclared
    obtain rfl := Option.some.inj (hphysical.symm.trans hphysical')
    have hlength : values.length = t.rowCount := (integers_length hvalues).trans hlen
    rw [scanBlocks_ranges, hblocks, List.nil_append, ← hlength]
    obtain ⟨hordered, hcovers⟩ := chunkRanges_spec hblock (hlength ▸ hrows) (hlength ▸ hsource) mayMatch
    refine ⟨hordered, fun row value hfirst hlast hvalue hmay => ?_⟩
    rw [Table.valueAt, hphysical, Option.bind_some, integers_value hvalues, Option.map_eq_some_iff] at hvalue
    obtain ⟨cell, hcell, rfl⟩ := hvalue
    exact hcovers row cell hfirst hlast hcell fun values block => hmay cell values block rfl

/-! ## Candidate ranges -/

/-- A row satisfies the filter, or the nullness, that is extracted from a predicate, if one is. -/
structure PassesFilter (t : Table) (row : Nat) (predicate : Option CompiledPredicate) : Prop where
  filter : ∀ column filter, predicate.bind CompiledPredicate.int64IndexFilter = some (column, filter) →
    filter.Holds t row column
  nullness : ∀ column isNull, predicate.bind CompiledPredicate.int64Nullness = some (column, isNull) →
    ∃ value, t.valueAt column row = some value ∧ value.isNull = isNull

theorem sourceRows_spec (hd : Table.Described t) (predicate : Option CompiledPredicate) :
    (sourceRows t predicate).2 ≤ t.rowCount ∧ ∀ row < t.rowCount, PassesFilter t row predicate →
      (sourceRows t predicate).1 ≤ row ∧ row < (sourceRows t predicate).2 := by
  unfold sourceRows
  cases hfilter : predicate.bind CompiledPredicate.int64PartitionFilter with
  | none => exact ⟨Nat.le_refl _, fun row hrow _ => ⟨Nat.zero_le _, hrow⟩⟩
  | some extracted =>
    obtain ⟨column, filter⟩ := extracted
    cases hrange : t.int64RangePartitionRows column filter with
    | none =>
      simp only [Option.bind_some, hrange, Option.getD_none]
      exact ⟨Nat.le_refl _, fun row hrow _ => ⟨Nat.zero_le _, hrow⟩⟩
    | some range =>
      simp only [Option.bind_some, hrange, Option.getD_some]
      obtain ⟨hinside, hcovers⟩ := partitionRows_sound hd hrange
      exact ⟨hinside, fun row hrow hpasses => hcovers row hrow (hpasses.filter column filter hfilter)⟩

theorem ordered_singleton {range : RowRange} (h : range.2 ≤ t.rowCount) : Ordered t.rowCount [range] :=
  ⟨List.pairwise_singleton .., fun _ hr => List.mem_singleton.1 hr ▸ h⟩

theorem candidateRanges_spec (hc : Table.Consistent declared t) (hd : Table.Described t) (hrows : t.rowCount ≤ usizeMax)
    (predicate : Option CompiledPredicate) :
    Ordered t.rowCount (candidateRanges t predicate) ∧ ∀ row < t.rowCount, PassesFilter t row predicate →
      ∃ r ∈ candidateRanges t predicate, r.1 ≤ row ∧ row < r.2 := by
  obtain ⟨hsource, hinSource⟩ := sourceRows_spec hd predicate
  unfold candidateRanges
  dsimp only
  split
  · rename_i scan hscan
    obtain hscan | ⟨_, hscan⟩ := Option.or_eq_some_iff.1 hscan
    · obtain ⟨⟨column, filter⟩, hfilter, hscan⟩ := Option.bind_eq_some_iff.1 hscan
      obtain ⟨hordered, hcovers⟩ := indexScan_sound hc hd hrows hscan hsource
      refine ⟨hordered, fun row hrow hpasses => ?_⟩
      obtain ⟨hfirst, hlast⟩ := hinSource row hrow hpasses
      obtain ⟨v, hv, hadmits⟩ := hpasses.filter column filter hfilter
      refine hcovers row _ hfirst hlast hv fun cell values block hcell hsummarizes hmem => ?_
      obtain rfl : some v = cell := integerCell_inj (a := some v) hcell
      exact blockMayMatch_of_admits hsummarizes hmem hadmits
    · obtain ⟨⟨column, isNull⟩, hnullness, hscan⟩ := Option.bind_eq_some_iff.1 hscan
      obtain ⟨hordered, hcovers⟩ := indexScan_sound hc hd hrows hscan hsource
      refine ⟨hordered, fun row hrow hpasses => ?_⟩
      obtain ⟨hfirst, hlast⟩ := hinSource row hrow hpasses
      obtain ⟨value, hvalue, hnull⟩ := hpasses.nullness column isNull hnullness
      refine hcovers row value hfirst hlast hvalue fun cell values block hcell hsummarizes hmem => ?_
      subst hcell
      refine blockMayMatchNullness_of_mem hsummarizes hmem ?_
      cases cell <;> exact hnull
  · refine ⟨ordered_singleton hsource, fun row hrow hpasses => ?_⟩
    exact ⟨_, List.mem_singleton.2 rfl, hinSource row hrow hpasses⟩

theorem Ordered.unique {rowCount row : Nat} {ranges : List RowRange} (h : Ordered rowCount ranges) {r s : RowRange}
    (hr : r ∈ ranges) (hs : s ∈ ranges) (hrow : r.1 ≤ row ∧ row < r.2) (hrow' : s.1 ≤ row ∧ row < s.2) : r = s := by
  obtain ⟨i, hi, rfl⟩ := List.mem_iff_getElem.1 hr
  obtain ⟨j, hj, rfl⟩ := List.mem_iff_getElem.1 hs
  have hordered := List.pairwise_iff_getElem.1 h.ordered
  rcases Nat.lt_trichotomy i j with hij | rfl | hji
  · have := hordered i j hi hj hij
    omega
  · rfl
  · have := hordered j i hj hi hji
    omega

theorem candidateRows_sorted {rowCount : Nat} {ranges : List RowRange} (h : Ordered rowCount ranges) :
    (candidateRows ranges).Pairwise (· < ·) := by
  rw [candidateRows, List.pairwise_flatMap]
  refine ⟨fun r _ => List.pairwise_lt_range', h.ordered.imp fun {r s} hrs row hrow row' hrow' => ?_⟩
  rw [List.mem_range'_1] at hrow hrow'
  omega

theorem mem_candidateRows {ranges : List RowRange} :
    row ∈ candidateRows ranges ↔ ∃ r ∈ ranges, r.1 ≤ row ∧ row < r.2 := by
  rw [candidateRows, List.mem_flatMap]
  refine exists_congr fun r => and_congr_right fun _ => ?_
  rw [List.mem_range'_1]
  omega

/-! ## Selection -/

/-- Whether a row is selected. -/
def keeps (t : Table) (predicate : Option CompiledPredicate) (row : Nat) : Option Bool :=
  predicate.elim (some true) (CompiledPredicate.evaluate t row)

theorem filterRows_eq {predicate : Option CompiledPredicate} {rows : List Nat}
    (h : ∀ row ∈ rows, ∃ b, keeps t predicate row = some b) :
    filterRows t predicate rows = some (rows.filter fun row => keeps t predicate row = some true) := by
  induction rows with
  | nil => rfl
  | cons row rows ih =>
    obtain ⟨⟨b, hb⟩, hrows⟩ := List.forall_mem_cons.1 h
    rw [filterRows, show predicate.elim (some true) (CompiledPredicate.evaluate t row) = some b from hb, ih hrows,
      List.filter_cons, hb]
    cases b <;> rfl

theorem passesFilter_of_keeps (hc : Table.Consistent declared t) {predicate : Option Predicate}
    {compiled : Option CompiledPredicate} (hcompile : compileWhere t predicate = .ok compiled)
    (hkeeps : keeps t compiled row = some true) : PassesFilter t row compiled := by
  cases predicate with
  | none =>
    obtain rfl := Exec.ok.inj hcompile
    exact ⟨nofun, nofun⟩
  | some predicate =>
    obtain ⟨p, hp, hcompile⟩ := Exec.bind_eq_ok.1 hcompile
    obtain rfl := Exec.ok.inj hcompile
    have htyped := compile_wellTyped hc hp
    refine ⟨fun column filter hfilter => int64PartitionFilter_holds htyped hfilter hkeeps, fun column isNull hnull => ?_⟩
    rw [Option.bind_some] at hnull
    unfold CompiledPredicate.int64Nullness at hnull
    split at hnull
    · obtain ⟨rfl, rfl⟩ := Prod.mk.inj (Option.some.inj hnull)
      obtain ⟨value, hvalue, hisNull⟩ := Option.bind_eq_some_iff.1 hkeeps
      exact ⟨value, hvalue, beq_iff_eq.1 (Option.some.inj hisNull)⟩
    · cases hnull

theorem keeps_total (hc : Table.Consistent declared t) {predicate : Option Predicate}
    {compiled : Option CompiledPredicate} (hcompile : compileWhere t predicate = .ok compiled)
    (hrow : row < t.rowCount) : ∃ b, keeps t compiled row = some b := by
  cases predicate with
  | none =>
    obtain rfl := Exec.ok.inj hcompile
    exact ⟨true, rfl⟩
  | some predicate =>
    obtain ⟨p, hp, hcompile⟩ := Exec.bind_eq_ok.1 hcompile
    obtain rfl := Exec.ok.inj hcompile
    exact ⟨_, compile_evaluate hc hrow hp⟩

end

/-- **Pruning never changes a selection.** Whatever a table went through, its metadata describes its rows;
the ranges that the metadata leaves follow one another, and a row that passes the extracted filter lies in
exactly one of them; and evaluating these ranges selects what evaluating every row does, in ascending order. -/
theorem matchingRows_fullScan {declared : List Declared} {t : Table} (h : Table.Reachable declared t)
    (hrows : t.rowCount ≤ usizeMax) {predicate : Option Predicate} {compiled : Option CompiledPredicate}
    (hcompile : compileWhere t predicate = .ok compiled) :
    Table.Described t ∧ Ordered t.rowCount (candidateRanges t compiled) ∧
      (∀ row < t.rowCount, PassesFilter t row compiled →
        ∃! range, range ∈ candidateRanges t compiled ∧ range.1 ≤ row ∧ row < range.2) ∧
      ∃ rows, matchingRows t compiled = some rows ∧ fullScan t compiled = some rows ∧ rows.Pairwise (· < ·) := by
  have hc := Table.reachable_consistent h
  have hd := Table.reachable_described h
  obtain ⟨hordered, hcovers⟩ := candidateRanges_spec hc hd hrows compiled
  refine ⟨hd, hordered, fun row hrow hpasses => ?_, ?_⟩
  · obtain ⟨r, hr, hcover⟩ := hcovers row hrow hpasses
    exact ⟨r, ⟨hr, hcover⟩, fun s hs => hordered.unique hs.1 hr hs.2 hcover⟩
  · have hinside : ∀ row ∈ candidateRows (candidateRanges t compiled), row < t.rowCount := fun row hrow => by
      obtain ⟨r, hr, _, hlast⟩ := mem_candidateRows.1 hrow
      exact Nat.lt_of_lt_of_le hlast (hordered.inside r hr)
    have hmatching := filterRows_eq fun row hrow => keeps_total hc hcompile (hinside row hrow)
    have hfull := filterRows_eq fun row hrow => keeps_total hc hcompile (List.mem_range.1 hrow)
    have hsorted := (candidateRows_sorted hordered).filter fun row => keeps t compiled row = some true
    refine ⟨_, hmatching, ?_, hsorted⟩
    -- Both selections are sorted, so that they are equal when they have the same rows.
    have hsortedFull := (List.pairwise_lt_range (n := t.rowCount)).filter fun row => keeps t compiled row = some true
    rw [fullScan, hfull, Option.some.injEq]
    refine hsortedFull.eq_of_mem_iff hsorted fun row => ?_
    rw [List.mem_filter, List.mem_filter, List.mem_range]
    refine and_congr_left fun hkeeps => ⟨fun hrow => ?_, hinside row⟩
    exact mem_candidateRows.2 (hcovers row hrow (passesFilter_of_keeps hc hcompile (of_decide_eq_true hkeeps)))

/-- Two partitions with an index of single rows. -/
def partitionedSample : Table :=
  ⟨"events", [⟨"id", .int64⟩], [.int64 [3, 5, 12]], 3, 24, .default, 0,
    some ⟨0, ⟨1, 8, 1024⟩, 3, 0, [⟨0, 1, some 3, some 3, 0⟩, ⟨1, 1, some 5, some 5, 0⟩, ⟨2, 1, some 12, some 12, 0⟩]⟩,
    some ⟨0, [⟨0, 9, 0, 2⟩, ⟨10, 19, 2, 3⟩]⟩⟩

theorem matchingRows_fullScan_sample :
    let compiled := some (CompiledPredicate.and (.comparison (.column 0 .int64) .greater (.literal (.int64 3)))
      (.comparison (.column 0 .int64) .less (.literal (.int64 9))))
    candidateRanges partitionedSample compiled = [(1, 2)] ∧ Table.Described partitionedSample ∧
      Ordered partitionedSample.rowCount (candidateRanges partitionedSample compiled) ∧
      (∀ row < partitionedSample.rowCount, PassesFilter partitionedSample row compiled →
        ∃! range, range ∈ candidateRanges partitionedSample compiled ∧ range.1 ≤ row ∧ row < range.2) ∧
      ∃ rows, matchingRows partitionedSample compiled = some rows ∧ fullScan partitionedSample compiled = some rows ∧
        rows.Pairwise (· < ·) := by
  have hnew : Table.withInt64RangePartitions "events" "id" [⟨0, 9, [3, 5]⟩, ⟨10, 19, [12]⟩] ⟨2, 8, 1024⟩ .default =
      .ok { partitionedSample with int64MinMaxIndex := none } := by
    decide +kernel
  have hindex : (Table.Mutation.createInt64MinMaxIndex "id" ⟨1, 8, 1024⟩).run
      { partitionedSample with int64MinMaxIndex := none } = some (.ok (), partitionedSample) := by
    decide +kernel
  have hcompile : compileWhere partitionedSample
      (some (.and (.comparison (.column "id") .greater (.literal (.int64 3)))
        (.comparison (.column "id") .less (.literal (.int64 9))))) =
      .ok (some (.and (.comparison (.column 0 .int64) .greater (.literal (.int64 3)))
        (.comparison (.column 0 .int64) .less (.literal (.int64 9))))) := by
    decide +kernel
  refine ⟨by decide +kernel, ?_⟩
  exact matchingRows_fullScan (.success (.createInt64MinMaxIndex "id" ⟨1, 8, 1024⟩) (.withInt64RangePartitions hnew)
    trivial hindex) (by decide) hcompile

end RustHouse.Batch
