import RustHouse.ColumnSound
import RustHouse.TableMutations

/-!
# The representation invariant of tables

What holds of every table between two calls, and what validation adds to it: a
row that passes has a value that each column may hold.
-/

namespace RustHouse.Batch

open Checked Exec Words

/-! ## The invariant -/

/-- A column as it was declared: its field, and whether it is nullable. -/
abbrev Declared := ColumnDef × Bool

def Declared.kind (d : Declared) : DataType × Bool := (d.1.dataType, d.2)

def retainedBytes (columns : List Column) : Nat := (columns.map Column.retainedValueBytesExact).sum

/-- The columns have the declared types and nullability, and one value for each row. -/
def Fits (declared : List Declared) (rows : Nat) (columns : List Column) : Prop :=
  List.Forall₂ (fun d column => column.kind = d.kind ∧ column.len = rows) declared columns

def AdmitsRow (declared : List Declared) (row : List Value) : Prop :=
  List.Forall₂ (fun d value => Column.Admits d.kind value) declared row

namespace Table

/-- **The representation invariant**, for the columns declared so far. -/
structure Consistent (declared : List Declared) (t : Table) : Prop where
  schema : t.schema = declared.map Prod.fst
  nonempty : 1 ≤ t.schema.length
  fits : Fits declared t.rowCount t.columns
  valid : ∀ field ∈ t.schema, isValidSqlIdentifier field.name ∧ ¬ isReservedColumnName field.name
  distinct : (t.schema.map fun field => toAsciiLowercase field.name).Nodup
  maxRows : t.rowCount ≤ t.limits.maxRows
  maxColumns : t.schema.length ≤ t.limits.maxColumns
  maxCells : t.retainedCellCount ≤ t.limits.maxCells
  retained : t.retainedValueBytes = retainedBytes t.columns
  index : ∀ index ∈ t.int64MinMaxIndex, index.limits.blockRows ≠ 0 ∧
    ∃ d, declared[index.column]? = some d ∧ d.1.dataType = .int64

structure HasRoom (t : Table) (rows : Nat) : Prop where
  rowsFit : t.rowCount + rows ≤ t.limits.maxRows
  cellsFit : saturatingMul (t.rowCount + rows) t.schema.length ≤ t.limits.maxCells

section
variable {declared : List Declared} {t : Table}

theorem Consistent.hasRoom (h : Consistent declared t) : HasRoom t 0 := ⟨h.maxRows, h.maxCells⟩

theorem saturatingMul_mono {a b c : Nat} (h : a ≤ b) : saturatingMul a c ≤ saturatingMul b c :=
  min_le_min_right _ (Nat.mul_le_mul_right c h)

theorem HasRoom.mono {rows rows' : Nat} (h : HasRoom t rows) (le : rows' ≤ rows) : HasRoom t rows' :=
  ⟨Nat.le_trans (Nat.add_le_add_left le _) h.rowsFit,
    Nat.le_trans (saturatingMul_mono (Nat.add_le_add_left le _)) h.cellsFit⟩

theorem Consistent.columns_length (h : Consistent declared t) : t.columns.length = t.schema.length := by
  rw [h.schema, List.length_map, h.fits.length_eq]

theorem Consistent.declared_length (h : Consistent declared t) : declared.length = t.schema.length := by
  rw [h.schema, List.length_map]

theorem Consistent.schema_getElem? (h : Consistent declared t) (i : Nat) : t.schema[i]? = (declared[i]?).map Prod.fst := by
  rw [h.schema, List.getElem?_map]

theorem Consistent.column_of_declared (h : Consistent declared t) {i : Nat} {d : Declared} (hd : declared[i]? = some d) :
    ∃ column, t.columns[i]? = some column ∧ column.kind = d.kind ∧ column.len = t.rowCount := by
  obtain ⟨hi, rfl⟩ := List.getElem?_eq_some_iff.1 hd
  have hic : i < t.columns.length := by rw [← h.fits.length_eq]; exact hi
  exact ⟨_, List.getElem?_eq_getElem hic, h.fits.get hi hic⟩

/-! ## Capacity -/

theorem validateRowCapacity_eq_ok {rows : Nat} (nonempty : 1 ≤ t.schema.length) (maxRows : t.rowCount ≤ t.limits.maxRows)
    (h : t.validateRowCapacity rows = .ok ()) : HasRoom t rows := by
  simp only [validateRowCapacity, Exec.bind_eq_ok, rejectIf_eq_ok, exists_and_left, exists_const] at h
  obtain ⟨hrows, hcells⟩ := h
  refine ⟨by omega, Nat.le_trans ?_ (Nat.le_of_not_gt hcells)⟩
  -- A row count that saturates gives as many cells as the exact one.
  unfold saturatingMul saturatingAdd
  by_cases hsat : t.rowCount + rows ≤ usizeMax
  · rw [Nat.min_eq_left hsat]
  · rw [Nat.min_eq_right (Nat.le_of_not_le hsat)]
    have : usizeMax * 1 ≤ usizeMax * t.schema.length := Nat.mul_le_mul_left _ nonempty
    omega

theorem validateRowCapacity_ne_panic (t : Table) (rows : Nat) : t.validateRowCapacity rows ≠ .panic :=
  bind_ne_panic (rejectIf_ne_panic _ _) fun _ _ => rejectIf_ne_panic _ _

/-! ## Validation of values -/

theorem validateValue_eq_ok {column : Nat} {d : Declared} {value : Value} (h : Consistent declared t)
    (hd : declared[column]? = some d) (hok : t.validateValue column d.1 value = .ok ()) : Column.Admits d.kind value := by
  cases value with
  | null dataType =>
    obtain ⟨physical, hphysical, hkind, _⟩ := h.column_of_declared hd
    simp only [validateValue, hphysical, orPanic_some, Exec.ok_bind, rejectIf_eq_ok, not_not] at hok
    obtain ⟨hnullable, rfl⟩ := hok
    refine ⟨rfl, ?_⟩
    rw [← hkind]
    cases physical <;> simp_all [Column.isNullableInt64, Column.kind, Column.dataType]
  | float64 number =>
    simp only [validateValue, Exec.bind_eq_ok, rejectIf_eq_ok, exists_and_left, exists_const] at hok
    exact (not_not.1 hok.1).symm
  | _ =>
    simp only [validateValue, rejectIf_eq_ok, not_not] at hok
    exact hok.symm

theorem validateValue_ne_panic {column : Nat} {d : Declared} (h : Consistent declared t)
    (hd : declared[column]? = some d) (field : ColumnDef) (value : Value) : t.validateValue column field value ≠ .panic := by
  cases value with
  | null dataType =>
    obtain ⟨physical, hphysical, _⟩ := h.column_of_declared hd
    simp only [validateValue, hphysical, orPanic_some, Exec.ok_bind]
    exact rejectIf_ne_panic _ _
  | float64 number => exact bind_ne_panic (rejectIf_ne_panic _ _) fun _ _ => rejectIf_ne_panic _ _
  | _ => exact rejectIf_ne_panic _ _

theorem validateValues_spec {column : Nat} {rest : List Declared} {row : List Value} (h : Consistent declared t)
    (hrest : declared.drop column = rest) (hlen : row.length = rest.length) :
    t.validateValues column (rest.map Prod.fst) row ≠ .panic ∧
      (t.validateValues column (rest.map Prod.fst) row = .ok () → AdmitsRow rest row) := by
  induction rest generalizing column row with
  | nil =>
    obtain rfl := List.eq_nil_of_length_eq_zero hlen
    exact ⟨nofun, fun _ => .nil⟩
  | cons d rest ih =>
    obtain ⟨value, row, rfl⟩ := List.exists_cons_of_length_eq_add_one hlen
    have hd : declared[column]? = some d := by rw [← List.head?_drop, hrest]; rfl
    have hnext : declared.drop (column + 1) = rest := by rw [← List.drop_drop, hrest]; rfl
    obtain ⟨hnopanic, hadmits⟩ := ih hnext (Nat.succ.inj hlen)
    refine ⟨bind_ne_panic (validateValue_ne_panic h hd _ _) fun _ _ => hnopanic, fun hok => ?_⟩
    obtain ⟨_, hvalue, hvalues⟩ := Exec.bind_eq_ok.1 hok
    exact .cons (validateValue_eq_ok h hd hvalue) (hadmits hvalues)

theorem validateRow_spec (h : Consistent declared t) (row : List Value) :
    t.validateRow row ≠ .panic ∧ (t.validateRow row = .ok () → AdmitsRow declared row) := by
  have hspec : row.length = declared.length → _ := validateValues_spec h List.drop_zero
  rw [← h.schema] at hspec
  by_cases hlen : row.length = t.schema.length
  · obtain ⟨hnopanic, hadmits⟩ := hspec (hlen.trans h.declared_length.symm)
    refine ⟨bind_ne_panic (rejectIf_ne_panic _ _) fun _ _ => hnopanic, fun hok => ?_⟩
    obtain ⟨_, _, hok⟩ := Exec.bind_eq_ok.1 hok
    exact hadmits hok
  · simp [validateRow, rejectIf, hlen]

end

end Table

end RustHouse.Batch
