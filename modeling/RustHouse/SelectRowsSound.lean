import RustHouse.MetadataInvariant
import RustHouse.ResultSizes
import RustHouse.SelectOrderSound

/-!
# Rows are projected

The rows of an ungrouped query are those that its predicate keeps, in the order of
their keys, and what is charged for a projection is what it takes.
-/

namespace RustHouse.Batch

open Checked Exec Words
open OrderedReduction (collect collect_eq_ok)
open UnstableSort (stableSort stableSort_perm)

/-! ## Rows that match -/

def rowsWhere (t : Table) (predicate : Option CompiledPredicate) : List Nat :=
  (List.range t.rowCount).filter fun row => keeps t predicate row = some true

section
variable {t : Table} {predicate : Option CompiledPredicate}

theorem rowsWhere_sorted : (rowsWhere t predicate).Pairwise (· < ·) := List.pairwise_lt_range.filter _

theorem lt_of_mem_rowsWhere {row : Nat} (h : row ∈ rowsWhere t predicate) : row < t.rowCount :=
  List.mem_range.1 (List.mem_filter.1 h).1

theorem rowsWhere_length : (rowsWhere t predicate).length ≤ t.rowCount :=
  (List.length_filter_le _ _).trans_eq List.length_range

theorem matchingRows_eq {declared : List Declared} (hc : Table.Consistent declared t) (hd : Table.Described t)
    (hrows : t.rowCount ≤ usizeMax) {condition : Option Predicate} (hcompile : compileWhere t condition = .ok predicate) :
    matchingRows t predicate = some (rowsWhere t predicate) := by
  obtain ⟨hordered, hcovers⟩ := candidateRanges_spec hc hd hrows predicate
  have hinside : ∀ row ∈ candidateRows (candidateRanges t predicate), row < t.rowCount := by
    intro row hrow
    obtain ⟨r, hr, _, hlast⟩ := mem_candidateRows.1 hrow
    exact Nat.lt_of_lt_of_le hlast (hordered.inside r hr)
  have hselected : ∀ row ∈ candidateRows (candidateRanges t predicate), ∃ b, keeps t predicate row = some b := by
    intro row hrow
    exact keeps_total hc hcompile (hinside row hrow)
  have hsorted := (candidateRows_sorted hordered).filter fun row => keeps t predicate row = some true
  rw [matchingRows, filterRows_eq hselected, Option.some.injEq]
  refine hsorted.eq_of_mem_iff rowsWhere_sorted fun row => ?_
  rw [rowsWhere, List.mem_filter, List.mem_filter, List.mem_range]
  refine and_congr_left fun hkeeps => ⟨hinside row, fun hrow => ?_⟩
  exact mem_candidateRows.2 (hcovers row hrow (passesFilter_of_keeps hc hcompile (of_decide_eq_true hkeeps)))

end

/-! ## Values of a type -/

/-- A computation does not panic, and what it returns is of a type. -/
structure Yields (x : Exec Error Value) (dataType : DataType) : Prop where
  ne_panic : x ≠ .panic
  typed : ∀ value, x = .ok value → value.dataType = dataType

namespace Yields

variable {dataType : DataType}

theorem of_ok {value : Value} (h : value.dataType = dataType) : Yields (.ok value) dataType where
  ne_panic := ok_ne_panic _
  typed := by
    intro _ hvalue
    obtain rfl := Exec.ok.inj hvalue
    exact h

theorem of_error (e : Error) : Yields (.error e) dataType where
  ne_panic := error_ne_panic e
  typed := by
    intro _ h
    cases h

theorem of_checked (number : Option Int64) (e : Error) : Yields (getOr (number.map .int64) e) .int64 := by
  cases number with
  | none => exact of_error e
  | some number => exact of_ok rfl

theorem bind {α : Type} {x : Exec Error α} {f : α → Exec Error Value} (hx : x ≠ .panic)
    (hf : ∀ a, Yields (f a) dataType) : Yields (x >>= f) dataType where
  ne_panic := bind_ne_panic hx fun a _ => (hf a).ne_panic
  typed := by
    intro value hvalue
    obtain ⟨a, _, hvalue⟩ := Exec.bind_eq_ok.1 hvalue
    exact (hf a).typed value hvalue

end Yields

section
variable {float : FloatText} {item : ResolvedItem} {value : Value}

theorem checkedStringToFloat64_ne_panic (text : String) : checkedStringToFloat64 float text ≠ .panic := by
  apply bind_ne_panic (rejectIf_ne_panic _ _)
  intro _ _
  apply bind_ne_panic (getOr_ne_panic _ _)
  intro _ _
  apply bind_ne_panic (rejectIf_ne_panic _ _)
  intro _ _
  exact ok_ne_panic _

theorem checkedStringToInt64_ne_panic (text : String) : checkedStringToInt64 text ≠ .panic :=
  bind_ne_panic (getOr_ne_panic _ _) fun _ _ => getOr_ne_panic _ _

theorem checkedFloat64ToInt64_ne_panic (x : F64) : checkedFloat64ToInt64 x ≠ .panic := by
  unfold checkedFloat64ToInt64
  split
  · exact error_ne_panic _
  · exact ok_ne_panic _

/-- **An item makes values of its type** of the cells that it takes. -/
theorem apply_yields (hfloat : float.Bounded) (htakes : item.takes value.dataType) (hcell : value.IsCell) :
    Yields (item.apply float value) (item.resultType value.dataType) := by
  cases item with
  | rowNumber => cases htakes
  | aggregate state => cases htakes
  | column _ _ | castNullableInt64ToInt64 _ _ =>
    apply Yields.of_ok
    first | rfl | exact of_decide_eq_true htakes
  | isNull _ _ | isNotNull _ _ => exact .of_ok rfl
  | castInt64ToString _ | castFloat64ToString _ | castBoolToString _ | toString _ _ =>
    obtain ⟨text, htext⟩ := stringified_isSome hfloat value
    have htype : text.dataType = .string := by
      cases value with
      | null dataType => obtain rfl := Option.some.inj htext; rfl
      | bool b => obtain rfl := Option.some.inj htext; rfl
      | string s => obtain rfl := Option.some.inj htext; rfl
      | int64 n => obtain ⟨_, _, rfl⟩ := Option.map_eq_some_iff.1 htext; rfl
      | float64 x => obtain ⟨_, _, rfl⟩ := Option.map_eq_some_iff.1 htext; rfl
    show Yields (orPanic (stringified float value)) .string
    rw [htext]
    exact .of_ok htype
  | int64Subtract _ _ | int64Abs _ =>
    obtain rfl | ⟨n, rfl⟩ := cell_int64 hcell (of_decide_eq_true htakes)
    · exact .of_ok rfl
    · exact .of_checked _ _
  | ifNullInt64 _ _ _ | castInt64ToFloat64 _ | castInt64ToBool _ =>
    obtain rfl | ⟨n, rfl⟩ := cell_int64 hcell (of_decide_eq_true htakes)
    · exact .of_ok rfl
    · exact .of_ok rfl
  | castBoolToFloat64 _ | castBoolToInt64 _ =>
    obtain ⟨b, rfl⟩ := cell_bool hcell (of_decide_eq_true htakes)
    exact .of_ok rfl
  | castFloat64ToInt64 _ =>
    obtain ⟨x, rfl⟩ := cell_float64 hcell (of_decide_eq_true htakes)
    exact .bind (ok_ne_panic _) fun _ => .bind (checkedFloat64ToInt64_ne_panic _) fun _ => .of_ok rfl
  | castFloat64ToBool _ | float64Abs _ | float64Round _ | float64Floor _ | float64Ceil _ =>
    obtain ⟨x, rfl⟩ := cell_float64 hcell (of_decide_eq_true htakes)
    exact .of_ok rfl
  | stringEmpty _ | stringLower _ | stringUpper _ =>
    obtain ⟨text, rfl⟩ := cell_string hcell (of_decide_eq_true htakes)
    exact .of_ok rfl
  | castStringToInt64 _ =>
    obtain ⟨text, rfl⟩ := cell_string hcell (of_decide_eq_true htakes)
    exact .bind (ok_ne_panic _) fun _ => .bind (checkedStringToInt64_ne_panic _) fun _ => .of_ok rfl
  | stringLength _ | stringLengthUtf8 _ | castStringToBool _ =>
    obtain ⟨text, rfl⟩ := cell_string hcell (of_decide_eq_true htakes)
    exact .bind (ok_ne_panic _) fun _ => .bind (getOr_ne_panic _ _) fun _ => .of_ok rfl
  | castStringToFloat64 _ =>
    obtain ⟨text, rfl⟩ := cell_string hcell (of_decide_eq_true htakes)
    exact .bind (ok_ne_panic _) fun _ => .bind (checkedStringToFloat64_ne_panic _) fun _ => .of_ok rfl

end

/-! ## Texts of a length -/

theorem utf8Size_ascii {c d : Char} (hc : c.toNat < 128) (hd : d.toNat < 128) : c.utf8Size = d.utf8Size := by
  have hone {e : Char} (he : e.toNat < 128) : e.utf8Size = 1 := by
    rw [Char.utf8Size_eq_one_iff, UInt32.le_iff_toNat_le]
    exact Nat.le_of_lt_succ he
  rw [hone hc, hone hd]

theorem utf8Size_toLower (c : Char) : c.toLower.utf8Size = c.utf8Size := by
  by_cases h : c.val ≥ 'A'.val ∧ c.val ≤ 'Z'.val
  · have hle : c.toNat ≤ 90 := UInt32.le_iff_toNat_le.1 h.2
    have heq : c.toLower.val = c.val + 32 := congrArg Char.val (dif_pos h)
    have htoNat : c.toLower.toNat = (c.toNat + 32) % 2 ^ 32 := (congrArg UInt32.toNat heq).trans (UInt32.toNat_add _ _)
    exact utf8Size_ascii (by omega) (by omega)
  · have heq : c.toLower = c := dif_neg h
    rw [heq]

theorem utf8Size_toUpper (c : Char) : c.toUpper.utf8Size = c.utf8Size := by
  by_cases h : 'a'.val ≤ c.val ∧ c.val ≤ 'z'.val
  · have hge : 97 ≤ c.toNat := UInt32.le_iff_toNat_le.1 h.1
    have hle : c.toNat ≤ 122 := UInt32.le_iff_toNat_le.1 h.2
    have heq : c.toUpper = ⟨c.val + ('A'.val - 'a'.val), _⟩ := dif_pos h
    have htoNat : c.toUpper.toNat = (c.toNat + ('A'.val - 'a'.val).toNat) % 2 ^ 32 := by
      rw [heq]
      exact UInt32.toNat_add _ _
    have hshift : ('A'.val - 'a'.val).toNat = 4294967264 := by simp
    exact utf8Size_ascii (by omega) (by omega)
  · have heq : c.toUpper = c := dif_neg h
    rw [heq]

theorem stringLen_map {f : Char → Char} (hf : ∀ c, (f c).utf8Size = c.utf8Size) (text : String) :
    stringLen (String.ofList (text.toList.map f)) = stringLen text := by
  have hsize (cs : List Char) : (utf8 (String.ofList (cs.map f))).length = (utf8 (String.ofList cs)).length := by
    rw [utf8_ofList, utf8_ofList, List.length_flatMap, List.length_flatMap, List.map_map]
    congr 1
    apply List.map_congr_left
    intro c _
    rw [Function.comp_apply, String.length_utf8EncodeChar, String.length_utf8EncodeChar, hf]
  rw [stringLen, hsize, String.ofList_toList, stringLen]

/-! ## Charges -/

theorem stringBytes_of_dataType {value : Value} (h : value.dataType ≠ .string) : value.stringBytes = 0 := by
  cases value with
  | string text => exact absurd rfl h
  | _ => rfl

section
variable {float : FloatText} {t : Table} {item : ResolvedItem} {source row : Nat} {value : Value}

theorem stringifiedLen_eq {text : Value} (hvalue : t.valueAt source row = some value)
    (htext : stringified float value = some text) : stringifiedLen t float source row = some text.stringBytes := by
  unfold stringifiedLen
  rw [hvalue]
  cases value with
  | null dataType => obtain rfl := Option.some.inj htext; rfl
  | bool b => obtain rfl := Option.some.inj htext; rfl
  | string s => obtain rfl := Option.some.inj htext; rfl
  | int64 n =>
    obtain ⟨written, hwritten, rfl⟩ := Option.map_eq_some_iff.1 htext
    rw [renderInt64_eq] at hwritten
    obtain rfl := Option.some.inj hwritten
    exact congrArg some (int64Len_eq n)
  | float64 x =>
    obtain ⟨written, hwritten, rfl⟩ := Option.map_eq_some_iff.1 htext
    exact congrArg (Option.map stringLen) hwritten

/-- What an item is charged for in a row is what its value takes beside its cell. -/
def Charged (float : FloatText) (t : Table) (row : Nat) (item : ResolvedItem) (value : Value) : Prop :=
  ∃ charge, item.stringBytes float t row = some charge ∧
    ∀ result, item.apply float value = .ok result → charge.getD 0 = result.stringBytes

theorem Charged.of_none (h : item.stringBytes float t row = some none)
    (hyields : Yields (item.apply float value) (item.resultType value.dataType))
    (htype : item.resultType value.dataType ≠ .string) : Charged float t row item value := by
  refine ⟨none, h, fun result hresult => ?_⟩
  rw [← hyields.typed result hresult] at htype
  exact (stringBytes_of_dataType htype).symm

theorem Charged.of_copy (h : item.stringBytes float t row = (t.valueAt source row).map fun
      | .string value => some (stringLen value)
      | _ => none) (hvalue : t.valueAt source row = some value)
    (hresult : ∀ result, item.apply float value = .ok result → result.stringBytes = value.stringBytes) :
    Charged float t row item value := by
  rw [hvalue] at h
  refine ⟨_, h, fun result hok => ?_⟩
  rw [hresult result hok]
  cases value <;> rfl

theorem Charged.of_rendered (hfloat : float.Bounded)
    (h : item.stringBytes float t row = (stringifiedLen t float source row).map some)
    (happly : item.apply float value = orPanic (stringified float value)) (hvalue : t.valueAt source row = some value) :
    Charged float t row item value := by
  obtain ⟨text, htext⟩ := stringified_isSome hfloat value
  rw [stringifiedLen_eq hvalue htext] at h
  refine ⟨_, h, fun result hok => ?_⟩
  rw [happly, htext] at hok
  obtain rfl := Exec.ok.inj hok
  rfl

/-- **An item is charged** for the bytes of the text that it makes, if it makes one. -/
theorem charged (hfloat : float.Bounded) (hsource : item.source = some source)
    (hvalue : t.valueAt source row = some value) (htakes : item.takes value.dataType) (hcell : value.IsCell) :
    Charged float t row item value := by
  have hyields := apply_yields hfloat htakes hcell
  cases item with
  | rowNumber => cases hsource
  | aggregate state => cases hsource
  | column _ _ =>
    obtain rfl := Option.some.inj hsource
    apply Charged.of_copy rfl hvalue
    intro result hok
    obtain rfl := Exec.ok.inj hok
    rfl
  | stringLower _ | stringUpper _ =>
    obtain rfl := Option.some.inj hsource
    apply Charged.of_copy rfl hvalue
    intro result hok
    obtain ⟨text, rfl⟩ := cell_string hcell (of_decide_eq_true htakes)
    obtain rfl := Exec.ok.inj hok
    first
    | exact stringLen_map utf8Size_toLower text
    | exact stringLen_map utf8Size_toUpper text
  | castInt64ToString _ | castFloat64ToString _ | castBoolToString _ =>
    obtain rfl := Option.some.inj hsource
    exact .of_rendered hfloat rfl rfl hvalue
  | toString _ inputType =>
    obtain rfl := Option.some.inj hsource
    cases inputType with
    | string =>
      apply Charged.of_copy rfl hvalue
      intro result hok
      obtain ⟨text, rfl⟩ := cell_string hcell (of_decide_eq_true htakes)
      obtain rfl := Exec.ok.inj hok
      rfl
    | _ => exact .of_rendered hfloat rfl rfl hvalue
  | _ =>
    apply Charged.of_none rfl hyields
    intro h
    cases h

end

/-! ## Projected rows -/

/-- What an item makes in a row has the type of its result column, and the size that is charged for it. -/
structure Projected (float : FloatText) (t : Table) (row : Nat) (item : ResolvedItem) (column : ResultColumn) : Prop where
  yields : ∀ rowNumber, Yields (item.value float t rowNumber row) column.dataType
  charge : ∃ charge, item.stringBytes float t row = some charge ∧
    ∀ rowNumber value, item.value float t rowNumber row = .ok value → charge.getD 0 = value.stringBytes

def RowTyped (columns : List ResultColumn) (row : List Value) : Prop :=
  List.Forall₂ (fun value column => value.dataType = column.dataType) row columns

def chargeOf (float : FloatText) (t : Table) (row : Nat) (item : ResolvedItem) : Option Nat :=
  (item.stringBytes float t row).getD none

section
variable {declared : List Declared} {float : FloatText} {t : Table} {hasAggregate hasRowNumber : Bool}
  {groupColumns : List Nat} {items : List ResolvedItem} {columns : List ResultColumn} {rows : List Nat} {row : Nat}

theorem checkedRowNumber_ne_panic (zeroBased : Nat) : checkedRowNumber zeroBased ≠ .panic := by
  rw [checkedRowNumber]
  exact getOr_ne_panic _ _

theorem rowNumberValue_yields (zeroBased : Nat) : Yields (rowNumberValue zeroBased) .int64 := by
  rw [rowNumberValue]
  exact .bind (checkedRowNumber_ne_panic _) fun _ => .of_ok rfl

theorem ItemTyped.projected (hc : Table.Consistent declared t) (hfloat : float.Bounded) {item : ResolvedItem}
    {column : ResultColumn} (h : ItemTyped t hasAggregate hasRowNumber groupColumns [] item column)
    (hrow : row < t.rowCount) : Projected float t row item column := by
  cases h with
  | aggregate hspec hfits htype => cases hspec
  | rowNumber h =>
    refine ⟨fun rowNumber => ?_, none, rfl, fun rowNumber value hvalue => ?_⟩
    · exact rowNumberValue_yields rowNumber
    · have htype := (rowNumberValue_yields rowNumber).typed value hvalue
      exact (stringBytes_of_dataType (by rw [htype]; decide)).symm
  | @reads item source column name hreads hgroup =>
    obtain ⟨cell, hcell, htype, hisCell⟩ := valueAt_of_column hc hreads.column_eq hrow
    have htakes : item.takes cell.dataType := htype ▸ hreads.takes
    have hvalue (rowNumber : Nat) : item.value float t rowNumber row = item.apply float cell := by
      rw [ResolvedItem.value_apply hreads.source_eq, hcell, orPanic_some, Exec.ok_bind]
    obtain ⟨charge, hcharge, hsize⟩ := charged hfloat hreads.source_eq hcell htakes hisCell
    refine ⟨fun rowNumber => ?_, charge, hcharge, fun rowNumber value hok => ?_⟩
    · rw [hvalue, ← htype]
      exact apply_yields hfloat htakes hisCell
    · rw [hvalue] at hok
      exact hsize value hok

theorem executeProjectionRow_spec (h : List.Forall₂ (Projected float t row) items columns) (rowNumber : Nat) :
    executeProjectionRow float t items rowNumber row ≠ .panic ∧
      ∀ values, executeProjectionRow float t items rowNumber row = .ok values →
        RowTyped columns values ∧ (items.map fun item => (chargeOf float t row item).getD 0).sum = textBytes values := by
  induction h with
  | nil =>
    refine ⟨ok_ne_panic _, fun values hvalues => ?_⟩
    obtain rfl := Exec.ok.inj hvalues
    exact ⟨.nil, rfl⟩
  | cons hitem _ ih =>
    obtain ⟨hpanic, hrest⟩ := ih
    refine ⟨bind_ne_panic (hitem.yields rowNumber).ne_panic fun _ _ => bind_ne_panic hpanic fun _ _ => ok_ne_panic _, ?_⟩
    intro values hvalues
    obtain ⟨value, hvalue, hvalues⟩ := Exec.bind_eq_ok.1 hvalues
    obtain ⟨others, hothers, hvalues⟩ := Exec.bind_eq_ok.1 hvalues
    obtain rfl := Exec.ok.inj hvalues
    obtain ⟨htyped, hsum⟩ := hrest others hothers
    obtain ⟨charge, hcharge, hsize⟩ := hitem.charge
    refine ⟨.cons ((hitem.yields rowNumber).typed value hvalue) htyped, ?_⟩
    rw [List.map_cons, List.sum_cons, hsum, chargeOf, hcharge, Option.getD_some, hsize rowNumber value hvalue]
    rfl

theorem charges_some (h : ∀ row ∈ rows, List.Forall₂ (Projected float t row) items columns) :
    (rows.flatMap fun row => items.map (ResolvedItem.stringBytes float t row)) =
      (rows.flatMap fun row => items.map (chargeOf float t row)).map some := by
  rw [List.map_flatMap]
  apply List.flatMap_congr
  intro row hrow
  rw [List.map_map]
  have hitems := h row hrow
  clear h
  induction hitems with
  | nil => rfl
  | cons hitem _ ih =>
    obtain ⟨charge, hcharge, _⟩ := hitem.charge
    rw [List.map_cons, List.map_cons, ih, Function.comp_apply, chargeOf, hcharge, Option.getD_some]

/-- **The result of a projection** has a typed row for each row, and the size that was charged for it. -/
theorem executeProjection_spec (h : ∀ row ∈ rows, List.Forall₂ (Projected float t row) items columns) :
    executeProjection float t rows items ≠ .panic ∧ ∀ result, executeProjection float t rows items = .ok result →
      result.length = rows.length ∧ (∀ values ∈ result, RowTyped columns values) ∧
        ((rows.flatMap fun row => items.map (chargeOf float t row)).map fun charge => charge.getD 0).sum =
          textBytes result.flatten := by
  have hnumbered (rows : List Nat) (first : Nat)
      (h : ∀ row ∈ rows, List.Forall₂ (Projected float t row) items columns) :
      collect ((rows.zipIdx first).map fun numbered => executeProjectionRow float t items numbered.2 numbered.1) ≠ .panic ∧
      ∀ result, collect ((rows.zipIdx first).map fun numbered =>
          executeProjectionRow float t items numbered.2 numbered.1) = .ok result →
        result.length = rows.length ∧ (∀ values ∈ result, RowTyped columns values) ∧
          ((rows.flatMap fun row => items.map (chargeOf float t row)).map fun charge => charge.getD 0).sum =
            textBytes result.flatten := by
    induction rows generalizing first with
    | nil =>
      refine ⟨ok_ne_panic _, fun result hresult => ?_⟩
      obtain rfl := Exec.ok.inj hresult
      exact ⟨rfl, List.forall_mem_nil _, rfl⟩
    | cons row rows ih =>
      obtain ⟨hrow, hrows⟩ := List.forall_mem_cons.1 h
      obtain ⟨hpanic, hvalues⟩ := executeProjectionRow_spec hrow first
      obtain ⟨hrest, hresults⟩ := ih (first + 1) hrows
      refine ⟨bind_ne_panic hpanic fun _ _ => bind_ne_panic hrest fun _ _ => ok_ne_panic _, ?_⟩
      intro result hresult
      obtain ⟨values, hok, hresult⟩ := Exec.bind_eq_ok.1 hresult
      obtain ⟨others, hothers, hresult⟩ := Exec.bind_eq_ok.1 hresult
      obtain rfl := Exec.ok.inj hresult
      obtain ⟨htyped, hsum⟩ := hvalues values hok
      obtain ⟨hlength, hall, hsums⟩ := hresults others hothers
      refine ⟨congrArg Nat.succ hlength, List.forall_mem_cons.2 ⟨htyped, hall⟩, ?_⟩
      rw [List.flatMap_cons, List.map_append, List.sum_append, hsums, List.flatten_cons, textBytes_append, ← hsum,
        List.map_map]
      rfl
  exact hnumbered rows 0 h

end

/-! ## Ungrouped queries -/

section
variable {float : FloatText} {t : Table} {items : List ResolvedItem} {columns : List ResultColumn} {rows : List Nat}
  {limits : QueryResultLimits} {left : Option QueryResult} {operation : String}

theorem validateProjectionResultLimits_ne_panic (h : ∀ row ∈ rows, List.Forall₂ (Projected float t row) items columns)
    (resultPrefix : Option SelectResultPrefix) :
    validateProjectionResultLimits float t rows items columns limits resultPrefix ≠ .panic := by
  show admitResult rows.length items.length columns limits resultPrefix _ ≠ .panic
  rw [charges_some h]
  exact admitResult_ne_panic _ _ _ _ _ _

/-- What is left of the left operand of a UNION when the right one is admitted. -/
def LeftFits (columns : List ResultColumn) (left : Option QueryResult) : Prop :=
  ∀ first ∈ left, first.Rectangular ∧ first.columns.length = columns.length

/-- **A projection is admitted** if and only if what it makes is within the limits. -/
theorem validateProjectionResultLimits_iff (h : ∀ row ∈ rows, List.Forall₂ (Projected float t row) items columns)
    (hlength : items.length = columns.length) (hleft : LeftFits columns left) {result : List (List Value)}
    (hresult : executeProjection float t rows items = .ok result)
    (hrows : (QueryResult.behind left ⟨columns, result⟩).rows.length ≤ usizeMax) :
    validateProjectionResultLimits float t rows items columns limits (left.map (.fromResult · operation)) = .ok () ↔
      (QueryResult.behind left ⟨columns, result⟩).Within limits := by
  obtain ⟨hcount, htyped, hcharges⟩ := (executeProjection_spec h).2 result hresult
  have hrectangular : QueryResult.Rectangular ⟨columns, result⟩ := by
    intro row hrow
    exact List.Forall₂.length_eq (htyped row hrow)
  rw [← admitResult_iff hrectangular hleft hcharges hrows, ← charges_some h, hcount, ← hlength]
  rfl

variable {lib : QueryLibrary} {plan : SelectPlan} {selectionLimit offset : Option Nat}

/-- The rows of a result, in order, and without those in front of the offset. -/
def pageRows (float : FloatText) (t : Table) (plan : SelectPlan) (selectionLimit offset : Option Nat) (rows : List Nat) :
    List Nat :=
  (firstOf selectionLimit (stableSort (rowOrder float t plan.resolved.items plan.ordering) rows)).drop (offset.getD 0)

theorem firstOf_sublist {α : Type} (limit : Option Nat) (l : List α) : (firstOf limit l).Sublist l := by
  cases limit with
  | none => exact List.Sublist.refl l
  | some n => exact List.take_sublist n l

theorem pageRows_subset : pageRows float t plan selectionLimit offset rows ⊆ rows := by
  intro row hrow
  exact (stableSort_perm rows).subset ((firstOf_sublist _ _).subset (List.mem_of_mem_drop hrow))

theorem pageRows_length : (pageRows float t plan selectionLimit offset rows).length ≤ rows.length := by
  rw [← (stableSort_perm rows).length_eq]
  exact ((List.drop_sublist _ _).trans (firstOf_sublist _ _)).length_le

theorem behind_length (left : Option QueryResult) (result : QueryResult) :
    (QueryResult.behind left result).rows.length = left.elim 0 (fun first => first.rows.length) + result.rows.length := by
  cases left with
  | none => exact (Nat.zero_add _).symm
  | some first => exact List.length_append

variable (limits operation selectionLimit offset) in
/-- **An ungrouped query** orders its rows by their keys, cuts them to the page that is asked for, and projects
them; it fails where a row has no key, where a value fails, and where the result is not within the limits. -/
theorem executeUngroupedSelect_spec {declared : List Declared} (hc : Table.Consistent declared t)
    (hfloat : lib.float.Bounded) (hlength : plan.resolved.items.length = plan.resolved.resultColumns.length)
    (hitems : ∀ row < t.rowCount, List.Forall₂ (Projected lib.float t row) plan.resolved.items plan.resolved.resultColumns)
    (hsorts : Sorts t plan.resolved.items plan.ordering) (hrows : ∀ row ∈ rows, row < t.rowCount)
    (hsorted : plan.ordering ≠ [] → rows.Pairwise (· < ·)) (hleft : LeftFits plan.resolved.resultColumns left)
    (hsize : left.elim 0 (fun first => first.rows.length) + rows.length ≤ usizeMax) :
    executeUngroupedSelect lib t limits plan rows selectionLimit offset (left.map (.fromResult · operation)) ≠ .panic ∧
      ∀ result, executeUngroupedSelect lib t limits plan rows selectionLimit offset (left.map (.fromResult · operation)) =
          .ok result ↔
        orderingStateBytes plan.resolved.items plan.ordering rows.length ≤ limits.maxOrderingStateBytes ∧
          (selectionLimit ≠ some 0 → HasKeys lib.float t plan.resolved.items plan.ordering rows) ∧
          executeProjection lib.float t (pageRows lib.float t plan selectionLimit offset rows) plan.resolved.items =
            .ok result ∧
          (QueryResult.behind left ⟨plan.resolved.resultColumns, result⟩).Within limits := by
  obtain ⟨horderPanic, horder⟩ := orderSourceRows_spec lib.sorts selectionLimit hc hfloat hsorts hrows hsorted
    limits.maxOrderingStateBytes
  have hpage : ∀ row ∈ pageRows lib.float t plan selectionLimit offset rows,
      List.Forall₂ (Projected lib.float t row) plan.resolved.items plan.resolved.resultColumns := by
    intro row hrow
    exact hitems row (hrows row (pageRows_subset hrow))
  have hfits {result : List (List Value)} (hresult : executeProjection lib.float t
      (pageRows lib.float t plan selectionLimit offset rows) plan.resolved.items = .ok result) :
      (QueryResult.behind left ⟨plan.resolved.resultColumns, result⟩).rows.length ≤ usizeMax := by
    obtain ⟨hcount, _⟩ := (executeProjection_spec hpage).2 result hresult
    have hshort : (pageRows lib.float t plan selectionLimit offset rows).length ≤ rows.length := pageRows_length
    rw [behind_length]
    dsimp only
    omega
  constructor
  · apply bind_ne_panic horderPanic
    intro ordered hordered
    obtain ⟨_, _, rfl⟩ := (horder ordered).1 hordered
    apply bind_ne_panic (validateProjectionResultLimits_ne_panic hpage _)
    intro _ _
    exact (executeProjection_spec hpage).1
  · intro result
    rw [executeUngroupedSelect, Exec.bind_eq_ok]
    constructor
    · intro h
      obtain ⟨ordered, hordered, h⟩ := h
      obtain ⟨hstate, hkeys, rfl⟩ := (horder ordered).1 hordered
      obtain ⟨_, hadmitted, hresult⟩ := Exec.bind_eq_ok.1 h
      exact ⟨hstate, hkeys, hresult,
        (validateProjectionResultLimits_iff hpage hlength hleft hresult (hfits hresult)).1 hadmitted⟩
    · intro h
      obtain ⟨hstate, hkeys, hresult, hwithin⟩ := h
      refine ⟨_, (horder _).2 ⟨hstate, hkeys, rfl⟩, Exec.bind_eq_ok.2 ⟨(), ?_, hresult⟩⟩
      exact (validateProjectionResultLimits_iff hpage hlength hleft hresult (hfits hresult)).2 hwithin

end

end RustHouse.Batch
