import RustHouse.PrepareSound

/-!
# Every run of mutations keeps tables consistent

`table_consistent`: whatever public constructor built a table and whatever
mutations it went through, successful or not, its schema, columns, row count,
limits and byte total agree. No mutation panics, and one that fails changes
nothing.
-/

namespace RustHouse.Batch

open Checked Exec Words Method

namespace Table

section
variable {declared : List Declared} {t : Table} {E : Error → Table → Prop}

/-! ## Metadata -/

theorem buildInt64MinMaxIndex_spec {column : Nat} {d : Declared} {limits : Int64MinMaxIndexLimits} (h : Consistent declared t)
    (hd : declared[column]? = some d) (int64 : d.1.dataType = .int64) (blockRows : limits.blockRows ≠ 0) :
    t.buildInt64MinMaxIndex column limits ≠ .panic ∧
      ∀ index, t.buildInt64MinMaxIndex column limits = .ok index → index.column = column ∧ index.limits = limits := by
  obtain ⟨physical, hphysical, hkind, _⟩ := h.column_of_declared hd
  have hdataType : physical.dataType = .int64 := (congrArg Prod.fst hkind).trans int64
  obtain ⟨blocks, hblocks⟩ : ∃ blocks, Table.summarizeColumn limits.blockRows physical = some blocks := by
    cases physical <;> first | exact ⟨_, rfl⟩ | cases hdataType
  simp only [buildInt64MinMaxIndex, if_neg blockRows, hphysical, Option.bind_some, hblocks, orPanic_some, Exec.ok_bind]
  constructor
  · refine bind_ne_panic (rejectIf_ne_panic _ _) fun _ _ => ?_
    exact bind_ne_panic (rejectIf_ne_panic _ _) fun _ _ => ok_ne_panic _
  · intro index hok
    obtain ⟨_, _, hok⟩ := Exec.bind_eq_ok.1 hok
    obtain ⟨_, _, hok⟩ := Exec.bind_eq_ok.1 hok
    obtain rfl := Exec.ok.inj hok
    exact ⟨rfl, rfl⟩

theorem markValuesMutated_wp (h : Consistent declared t) :
    wp markValuesMutated (fun _ t' => Consistent declared t' ∧ ∀ rows, HasRoom t rows → HasRoom t' rows) E t := by
  rw [markValuesMutated, wp_bind, wp_read]
  cases hindex : t.int64MinMaxIndex with
  | none => exact ⟨{ h with index := nofun }, fun _ hroom => ⟨hroom.rowsFit, hroom.cellsFit⟩⟩
  | some previous =>
    obtain ⟨hblock, d, hd, hint64⟩ := h.index previous hindex
    dsimp only
    have hcleared : Consistent declared { t with
        int64RangePartitions := none, mutationGeneration := t.mutationGeneration + 1, int64MinMaxIndex := none } :=
      { h with index := nofun }
    have hbuild := buildInt64MinMaxIndex_spec hcleared hd hint64 hblock
    revert hbuild
    cases buildInt64MinMaxIndex _ previous.column previous.limits with
    | ok index =>
      intro hbuild
      obtain ⟨hcolumn, hlimits⟩ := hbuild.2 index rfl
      refine ⟨{ h with index := ?_ }, fun _ hroom => ⟨hroom.rowsFit, hroom.cellsFit⟩⟩
      rintro _ ⟨⟩
      rw [hcolumn, hlimits]
      exact ⟨hblock, d, hd, hint64⟩
    | error => exact fun _ => ⟨hcleared, fun _ hroom => ⟨hroom.rowsFit, hroom.cellsFit⟩⟩
    | panic => exact fun hbuild => absurd rfl hbuild.1

/-! ## Insertion -/

theorem pushRow_spec {rows : Nat} {columns : List Column} {row : List Value} (hfits : Fits declared rows columns)
    (hrow : AdmitsRow declared row) (added : Nat) :
    ∃ columns' bytes, pushRow added columns row = some (columns', added + bytes) ∧ Fits declared (rows + 1) columns' ∧
      retainedBytes columns' = retainedBytes columns + bytes := by
  induction hfits generalizing row added with
  | nil => cases hrow; exact ⟨[], 0, rfl, .nil, rfl⟩
  | @cons d column declared columns hcolumn hfits ih =>
    obtain ⟨hkind, hlen⟩ := hcolumn
    cases hrow with
    | @cons _ value _ row hvalue hrow =>
      obtain ⟨column', bytes, hpush, hkind', hlen', hbytes⟩ := Column.push_spec (hkind ▸ hvalue)
      obtain ⟨columns', rest, hrest, hfits', hretained⟩ := ih hrow (added + bytes)
      refine ⟨column' :: columns', bytes + rest, ?_, .cons ⟨hkind'.trans hkind, by rw [hlen', hlen]⟩ hfits', ?_⟩
      · simp only [pushRow, hpush, Option.bind_eq_bind, Option.bind_some, hrest, Nat.add_assoc]
      · simp only [retainedBytes, List.map_cons, List.sum_cons] at hretained ⊢
        omega

theorem appendValidatedRow_wp {row : List Value} {rows : Nat} (h : Consistent declared t) (hroom : HasRoom t (rows + 1))
    (hrow : AdmitsRow declared row) :
    wp (appendValidatedRow row) (fun _ t' => Consistent declared t' ∧ HasRoom t' rows) E t := by
  obtain ⟨columns', bytes, hpush, hfits, hretained⟩ := pushRow_spec h.fits hrow 0
  rw [Nat.zero_add] at hpush
  have hone := hroom.mono (Nat.le_add_left 1 rows)
  simp only [appendValidatedRow, wp_bind, wp_read, hpush, orPanic_some]
  refine ⟨{ h with fits := hfits, maxRows := hone.rowsFit, maxCells := hone.cellsFit, retained := ?_ }, ?_⟩
  · show t.retainedValueBytes + bytes = retainedBytes columns'
    rw [h.retained, hretained]
  · have hrows : t.rowCount + 1 + rows = t.rowCount + (rows + 1) := by omega
    exact ⟨hrows ▸ hroom.rowsFit, by show saturatingMul (t.rowCount + 1 + rows) _ ≤ _; rw [hrows]; exact hroom.cellsFit⟩

theorem appendEach_wp {rows : List (List Value)} {more : Nat} (h : Consistent declared t)
    (hroom : HasRoom t (rows.length + more)) (hrows : ∀ row ∈ rows, AdmitsRow declared row) :
    wp (appendEach rows) (fun _ t' => Consistent declared t' ∧ HasRoom t' more) E t := by
  induction rows generalizing t with
  | nil => exact ⟨h, Nat.zero_add more ▸ hroom⟩
  | cons row rows ih =>
    obtain ⟨hrow, hrows⟩ := List.forall_mem_cons.1 hrows
    rw [appendEach, wp_bind]
    refine wp_mono (appendValidatedRow_wp h ?_ hrow) (fun _ t' ht' => ih ht'.1 ht'.2 hrows) fun _ _ he => he
    rwa [Nat.add_right_comm]

theorem mark_after {α : Type} {m : Method Table Error α} {more : Nat} {changed : Prop} [Decidable changed]
    (hm : wp m (fun _ t' => Consistent declared t' ∧ HasRoom t' more) E t) :
    wp (m >>= fun _ => if changed then markValuesMutated else pure ())
      (fun _ t' => Consistent declared t' ∧ HasRoom t' more) E t := by
  rw [wp_bind]
  refine wp_mono hm (fun _ t' ht' => ?_) fun _ _ he => he
  split
  · exact wp_mono (markValuesMutated_wp ht'.1) (fun _ _ h => ⟨h.1, h.2 more ht'.2⟩) fun _ _ he => he
  · exact ht'

theorem mark_then {α : Type} {a : α} {changed : Prop} [Decidable changed] {E : Error → Table → Prop}
    (h : Consistent declared t) :
    wp (if changed then (do markValuesMutated; pure a) else pure a) (fun _ t' => Consistent declared t') E t := by
  split
  · rw [wp_bind]
    exact wp_mono (markValuesMutated_wp h) (fun _ _ h => h.1) fun _ _ he => he
  · exact h

theorem appendDefaulted_wp {schemaIndexes : List Nat} {rows : List (List Value)} {more : Nat} (h : Consistent declared t)
    (hroom : HasRoom t (rows.length + more))
    (hrows : ∀ source ∈ rows, ∃ row, assignValues (declared.map Declared.default) source schemaIndexes = some row ∧
      AdmitsRow declared row) :
    wp (appendDefaulted schemaIndexes rows) (fun _ t' => Consistent declared t' ∧ HasRoom t' more) E t := by
  induction rows generalizing t with
  | nil => exact ⟨h, Nat.zero_add more ▸ hroom⟩
  | cons source rows ih =>
    obtain ⟨⟨row, hassign, hrow⟩, hrows⟩ := List.forall_mem_cons.1 hrows
    simp only [appendDefaulted, wp_bind, wp_read, h.defaults, hassign, orPanic_some, wp_call_ok]
    refine wp_mono (appendValidatedRow_wp h ?_ hrow) (fun _ t' ht' => ih ht'.1 ht'.2 hrows) fun _ _ he => he
    rwa [Nat.add_right_comm]

theorem appendPreparedInsertRows_wp {prepared : PreparedInsertRows} {more : Nat} (h : Consistent declared t)
    (hroom : HasRoom t (prepared.rows.length + more)) (hadmits : AdmitsPrepared declared prepared) :
    wp (appendPreparedInsertRows prepared) (fun _ t' => Consistent declared t' ∧ HasRoom t' more) E t := by
  obtain ⟨rows, schemaIndexes⟩ := prepared
  cases schemaIndexes with
  | none => exact mark_after (appendEach_wp h hroom fun source hsource => let ⟨_, heq, hrow⟩ := hadmits source hsource; heq ▸ hrow)
  | some schemaIndexes => exact mark_after (appendDefaulted_wp h hroom hadmits)

/-! ## Mutations -/

/-- A mutation that keeps the columns declared: consistent after success, unchanged after failure. -/
def Keeps {α : Type} (declared : List Declared) (m : Method Table Error α) (t : Table) : Prop :=
  wp m (fun _ t' => Consistent declared t') (fun _ t' => t' = t) t

/-- A check before any change: it does not panic, and its failure changes nothing. -/
theorem check_wp {α β : Type} {x : Exec Error α} {f : α → Method Table Error β} {Q : β → Table → Prop}
    (hx : x ≠ .panic) (hf : ∀ a, x = .ok a → wp (f a) Q (fun _ t' => t' = t) t) :
    wp (call x >>= f) Q (fun _ t' => t' = t) t := by
  rw [wp_bind]
  exact wp_call hx hf fun _ _ => rfl

theorem insertRow_keeps (h : Consistent declared t) (row : List Value) : Keeps declared (insertRow row) t := by
  rw [Keeps, insertRow, wp_bind, wp_read]
  refine check_wp (validateRowCapacity_ne_panic _ _) fun _ hcapacity => ?_
  refine check_wp (validateRow_spec h row).1 fun _ hrow => ?_
  have hroom := validateRowCapacity_eq_ok h.nonempty h.maxRows hcapacity
  rw [wp_bind]
  refine wp_mono (appendValidatedRow_wp h hroom ((validateRow_spec h row).2 hrow)) (fun _ t' ht' => ?_) fun _ _ he => he
  exact wp_mono (markValuesMutated_wp ht'.1) (fun _ _ h => h.1) fun _ _ he => he

theorem insertRows_keeps (h : Consistent declared t) (rows : List (List Value)) : Keeps declared (insertRows rows) t := by
  rw [Keeps, insertRows, wp_bind, wp_read]
  refine check_wp (validateRowCapacity_ne_panic _ _) fun _ hcapacity => ?_
  refine check_wp (forEach_ne_panic fun row _ => (validateRow_spec h row).1) fun _ hrows => ?_
  have hroom : HasRoom t (rows.length + 0) := validateRowCapacity_eq_ok h.nonempty h.maxRows hcapacity
  have hadmits : ∀ row ∈ rows, AdmitsRow declared row := fun row hrow =>
    (validateRow_spec h row).2 (forEach_eq_ok.1 hrows row hrow)
  exact wp_mono (mark_after (appendEach_wp h hroom hadmits)) (fun _ _ h => h.1) fun _ _ he => he

theorem columnIndex_ne_panic (t : Table) (name : String) : t.columnIndex name ≠ .panic := getOr_ne_panic _ _

theorem columnIndex_eq_ok {name : String} {i : Nat} (h : Consistent declared t) (hi : t.columnIndex name = .ok i) :
    declared.findIdx? (fun d => eqIgnoreAsciiCase d.1.name name) = some i ∧ ∃ d, declared[i]? = some d := by
  rw [columnIndex, getOr_eq_ok, h.schema, List.findIdx?_map] at hi
  refine ⟨hi, ?_⟩
  obtain ⟨hlt, _⟩ := List.findIdx?_eq_some_iff_getElem.1 hi
  exact ⟨_, List.getElem?_eq_getElem hlt⟩

theorem Consistent.withColumns {columns : List Column} {rows bytes : Nat} (h : Consistent declared t)
    (hfits : Fits declared rows columns) (hrows : rows ≤ t.rowCount) (hbytes : bytes = retainedBytes columns) :
    Consistent declared { t with columns, rowCount := rows, retainedValueBytes := bytes } :=
  { h with
    fits := hfits
    maxRows := Nat.le_trans hrows h.maxRows
    maxCells := Nat.le_trans (saturatingMul_mono hrows) h.maxCells
    retained := hbytes }

theorem fits_set {rows i : Nat} {columns : List Column} {column column' : Column} (h : Fits declared rows columns)
    (hi : columns[i]? = some column) (hkind : column'.kind = column.kind) (hlen : column'.len = column.len) :
    Fits declared rows (columns.set i column') := by
  induction h generalizing i with
  | nil => cases hi
  | cons hd hrest ih =>
    cases i with
    | zero =>
      obtain rfl := Option.some.inj hi
      exact .cons ⟨hkind.trans hd.1, hlen.trans hd.2⟩ hrest
    | succ i => exact .cons hd (ih hi)

theorem retainedBytes_set {i : Nat} {columns : List Column} {column : Column} (column' : Column)
    (hi : columns[i]? = some column) :
    retainedBytes (columns.set i column') + column.retainedValueBytesExact =
      retainedBytes columns + column'.retainedValueBytesExact := by
  obtain ⟨hlt, rfl⟩ := List.getElem?_eq_some_iff.1 hi
  exact Column.sum_map_set Column.retainedValueBytesExact hlt column'

theorem retainedBytes_le {i : Nat} {columns : List Column} {column : Column} (hi : columns[i]? = some column) :
    column.retainedValueBytesExact ≤ retainedBytes columns :=
  List.single_le_sum (fun _ _ => Nat.zero_le _) _ (List.mem_map_of_mem (List.mem_of_getElem? hi))

theorem replaceColumnValues_keeps (h : Consistent declared t) (column : String) (replacements : List (Nat × Value)) :
    Keeps declared (replaceColumnValues column replacements) t := by
  rw [Keeps, replaceColumnValues, wp_bind, wp_read]
  refine check_wp (columnIndex_ne_panic _ _) fun i hi => ?_
  obtain ⟨_, d, hd⟩ := columnIndex_eq_ok h hi
  refine check_wp (validateRowSelectionFrom_ne_panic _ _ _ _) fun _ hselection => ?_
  obtain ⟨hinside, hsorted⟩ := validateRowSelection_eq_ok.1 hselection
  obtain ⟨physical, hphysical, hkind, hlen⟩ := h.column_of_declared hd
  simp only [wp_bind, h.schema_getElem?, hd, Option.map_some, orPanic_some, wp_call_ok, hphysical]
  refine wp_call (forEach_ne_panic fun _ _ => validateValue_ne_panic h hd _ _) (fun _ hvalues => ?_) fun _ _ => rfl
  have hadmits : ∀ replacement ∈ replacements, Column.Admits physical.kind replacement.2 := fun replacement hr =>
    hkind ▸ validateValue_eq_ok h hd (forEach_eq_ok.1 hvalues replacement hr)
  obtain ⟨physical', removed, added, hreplace, hkind', hlen', hbytes, hremoved⟩ :=
    Column.replaceValues_spec 0 0 0 hadmits
      (fun replacement hr => ⟨Nat.zero_le _, hlen ▸ hinside _ (List.mem_map_of_mem hr)⟩) hsorted
  simp only [hreplace, orPanic_some, wp_call_ok, wp_write]
  have hretained := retainedBytes_set physical' hphysical
  have hle := retainedBytes_le hphysical
  have hstring := physical.stringBytesFrom_le
  have htotal : t.retainedValueBytes - removed + added = retainedBytes (t.columns.set i physical') := by
    rw [h.retained]; omega
  exact mark_then (h.withColumns (fits_set h.fits hphysical hkind' hlen') (Nat.le_refl _) htotal)

theorem deleteFromColumns_spec {rows : Nat} {columns : List Column} {rowIndexes : List Nat}
    (hfits : Fits declared rows columns) (sorted : rowIndexes.Pairwise (· < ·)) (inside : ∀ i ∈ rowIndexes, i < rows)
    (deleted : Nat) :
    ∃ columns' bytes, deleteFromColumns rowIndexes deleted columns = some (columns', deleted + bytes) ∧
      Fits declared (rows - rowIndexes.length) columns' ∧ retainedBytes columns' + bytes = retainedBytes columns := by
  induction hfits generalizing deleted with
  | nil => exact ⟨[], 0, rfl, .nil, rfl⟩
  | @cons d column declared columns hcolumn hfits ih =>
    obtain ⟨hkind, hlen⟩ := hcolumn
    obtain ⟨column', bytes, hdelete, hkind', hlen', hbytes⟩ := Column.deleteRows_spec sorted (hlen ▸ inside)
    obtain ⟨columns', rest, hrest, hfits', hretained⟩ := ih (deleted + bytes)
    refine ⟨column' :: columns', bytes + rest, ?_, .cons ⟨hkind'.trans hkind, by omega⟩ hfits', ?_⟩
    · simp only [deleteFromColumns, hdelete, Option.bind_eq_bind, Option.bind_some, hrest, Nat.add_assoc]
    · simp only [retainedBytes, List.map_cons, List.sum_cons] at hretained ⊢
      omega

theorem deleteRows_keeps (h : Consistent declared t) (rowIndexes : List Nat) : Keeps declared (deleteRows rowIndexes) t := by
  rw [Keeps, deleteRows, wp_bind, wp_read]
  refine check_wp (validateRowSelectionFrom_ne_panic _ _ _ _) fun _ hselection => ?_
  obtain ⟨hinside, hsorted⟩ := validateRowSelection_eq_ok.1 hselection
  split
  · exact h
  · obtain ⟨columns, bytes, hdelete, hfits, hretained⟩ := deleteFromColumns_spec h.fits hsorted hinside 0
    rw [Nat.zero_add] at hdelete
    simp only [wp_bind, hdelete, orPanic_some, wp_call_ok, wp_write]
    have htotal : t.retainedValueBytes - bytes = retainedBytes columns := by rw [h.retained]; omega
    have ht' := h.withColumns hfits (Nat.sub_le _ _) htotal
    exact wp_mono (markValuesMutated_wp ht') (fun _ _ h => h.1) fun _ _ he => he

theorem fits_clear {rows : Nat} {columns : List Column} (h : Fits declared rows columns) :
    Fits declared 0 (columns.map Column.clear) := by
  induction h with
  | nil => exact .nil
  | cons hd _ ih => exact .cons ⟨(Column.clear_kind _).trans hd.1, Column.clear_len _⟩ ih

theorem retainedBytes_clear (columns : List Column) : retainedBytes (columns.map Column.clear) = 0 := by
  induction columns with
  | nil => rfl
  | cons column columns ih =>
    rw [List.map_cons, retainedBytes, List.map_cons, List.sum_cons, Column.clear_retainedValueBytesExact, Nat.zero_add]
    exact ih

theorem truncate_keeps (h : Consistent declared t) : Keeps declared truncate t := by
  simp only [Keeps, truncate, wp_bind, wp_read, wp_write]
  exact mark_then (h.withColumns (fits_clear h.fits) (Nat.zero_le _) (retainedBytes_clear _).symm)

/-! ## Columns -/

theorem validateColumnName_eq_ok {name : String} (h : validateColumnName name = .ok ()) :
    isValidSqlIdentifier name ∧ ¬ isReservedColumnName name := by
  simpa only [validateColumnName, validateSqlIdentifier, Exec.bind_eq_ok, rejectIf_eq_ok, not_not, exists_and_left,
    exists_const] using h

theorem validateColumnName_ne_panic (name : String) : validateColumnName name ≠ .panic :=
  bind_ne_panic (rejectIf_ne_panic _ _) fun _ _ => rejectIf_ne_panic _ _

theorem eqIgnoreAsciiCase_iff {a b : String} : eqIgnoreAsciiCase a b = true ↔ toAsciiLowercase a = toAsciiLowercase b :=
  beq_iff_eq

theorem validateAddColumn_spec {field : ColumnDef} (h : t.validateAddColumn field = .ok ()) :
    (isValidSqlIdentifier field.name ∧ ¬ isReservedColumnName field.name) ∧
      toAsciiLowercase field.name ∉ t.schema.map (fun existing => toAsciiLowercase existing.name) ∧
      t.schema.length + 1 ≤ t.limits.maxColumns ∧
      saturatingMul t.rowCount (t.schema.length + 1) ≤ t.limits.maxCells := by
  obtain ⟨_, hname, h⟩ := Exec.bind_eq_ok.1 h
  simp only [Exec.bind_eq_ok, rejectIf_eq_ok, exists_and_left, exists_const, not_lt] at h
  obtain ⟨hdistinct, hcolumns, hcells⟩ := h
  refine ⟨validateColumnName_eq_ok hname, ?_, hcolumns, hcells⟩
  intro hmem
  obtain ⟨existing, hexisting, hsame⟩ := List.mem_map.1 hmem
  exact hdistinct (List.any_eq_true.2 ⟨existing, hexisting, eqIgnoreAsciiCase_iff.2 hsame⟩)

theorem validateAddColumn_ne_panic (t : Table) (field : ColumnDef) : t.validateAddColumn field ≠ .panic :=
  bind_ne_panic (validateColumnName_ne_panic _) fun _ _ => bind_ne_panic (rejectIf_ne_panic _ _) fun _ _ =>
    bind_ne_panic (rejectIf_ne_panic _ _) fun _ _ => rejectIf_ne_panic _ _

theorem fits_append {rows : Nat} {columns : List Column} {d : Declared} {column : Column} (h : Fits declared rows columns)
    (hkind : column.kind = d.kind) (hlen : column.len = rows) : Fits (declared ++ [d]) rows (columns ++ [column]) := by
  induction h with
  | nil => exact .cons ⟨hkind, hlen⟩ .nil
  | cons hd _ ih => exact .cons hd ih

theorem publishAddedColumn_wp {d : Declared} {column : Column} (h : Consistent declared t)
    (hadd : t.validateAddColumn d.1 = .ok ()) (hkind : column.kind = d.kind)
    (hlen : column.len = t.rowCount) :
    wp (publishAddedColumn d.1 column) (fun _ t' => Consistent (declared ++ [d]) t') E t := by
  obtain ⟨hname, hdistinct, hcolumns, hcells⟩ := validateAddColumn_spec hadd
  simp only [publishAddedColumn, wp_bind, wp_read, wp_write]
  refine wp_mono (markValuesMutated_wp ?_) (fun _ _ h => h.1) fun _ _ he => he
  refine ⟨?_, ?_, fits_append h.fits hkind hlen, ?_, ?_, h.maxRows, ?_, ?_, ?_, ?_⟩
  · rw [List.map_append, ← h.schema]; rfl
  · rw [List.length_append]; exact Nat.le_add_left _ _
  · rw [List.forall_mem_append, List.forall_mem_singleton]
    exact ⟨h.valid, hname⟩
  · rw [List.map_append, List.nodup_append]
    refine ⟨h.distinct, List.nodup_singleton _, fun a ha b hb => ?_⟩
    rw [List.mem_singleton.1 hb]
    rintro rfl
    exact hdistinct ha
  · rw [List.length_append]; exact hcolumns
  · show saturatingMul t.rowCount (t.schema ++ [d.1]).length ≤ _
    rw [List.length_append]; exact hcells
  · show t.retainedValueBytes + _ = retainedBytes (t.columns ++ [column])
    rw [retainedBytes, List.map_append, List.sum_append, h.retained]
    simp [retainedBytes]
  · intro index hindex
    obtain ⟨hblock, d', hd', hint64⟩ := h.index index hindex
    refine ⟨hblock, d', ?_, hint64⟩
    rw [List.getElem?_append_left (List.getElem?_eq_some_iff.1 hd').1, hd']

theorem addColumn_wp (h : Consistent declared t) (field : ColumnDef) :
    wp (addColumn field) (fun _ t' => Consistent (declared ++ [(field, false)]) t') (fun _ t' => t' = t) t := by
  rw [addColumn, wp_bind, wp_read]
  refine check_wp (validateAddColumn_ne_panic _ _) fun _ hadd => ?_
  refine publishAddedColumn_wp (d := (field, false)) h hadd ?_ ?_
  · cases hfield : field.dataType <;>
      simp [Column.kind, Declared.kind, Column.dataType, Column.isNullableInt64, hfield]
  · cases field.dataType <;> exact List.length_replicate

theorem addNullableInt64Column_wp (h : Consistent declared t) (name : String) :
    wp (addNullableInt64Column name) (fun _ t' => Consistent (declared ++ [(⟨name, .int64⟩, true)]) t')
      (fun _ t' => t' = t) t := by
  rw [addNullableInt64Column, wp_bind, wp_read]
  refine check_wp (validateAddColumn_ne_panic _ _) fun _ hadd => ?_
  exact publishAddedColumn_wp (d := (⟨name, .int64⟩, true)) h hadd rfl List.length_replicate

theorem fits_eraseIdx {rows : Nat} {columns : List Column} (h : Fits declared rows columns) (i : Nat) :
    Fits (declared.eraseIdx i) rows (columns.eraseIdx i) := by
  induction h generalizing i with
  | nil => exact .nil
  | cons hd hrest ih =>
    cases i with
    | zero => exact hrest
    | succ i => exact .cons hd (ih i)

theorem retainedBytes_eraseIdx {i : Nat} {columns : List Column} {column : Column} (hi : columns[i]? = some column) :
    retainedBytes (columns.eraseIdx i) + column.retainedValueBytesExact = retainedBytes columns := by
  obtain ⟨hlt, rfl⟩ := List.getElem?_eq_some_iff.1 hi
  rw [Nat.add_comm]
  exact ((List.getElem_cons_eraseIdx_perm hlt).map _).sum_eq

def redeclareDropped (declared : List Declared) (column : String) : List Declared :=
  declared.eraseP fun d => eqIgnoreAsciiCase d.1.name column

theorem dropColumn_wp (h : Consistent declared t) (column : String) :
    wp (dropColumn column) (fun _ t' => Consistent (redeclareDropped declared column) t') (fun _ t' => t' = t) t := by
  rw [dropColumn, wp_bind, wp_read]
  refine check_wp (columnIndex_ne_panic _ _) fun i hi => ?_
  obtain ⟨hfind, d, hd⟩ := columnIndex_eq_ok h hi
  obtain ⟨removed, hremoved, _⟩ := h.column_of_declared hd
  refine check_wp (rejectIf_ne_panic _ _) fun _ honly => ?_
  rw [rejectIf_eq_ok] at honly
  simp only [wp_bind, hremoved, orPanic_some, wp_call_ok, wp_write]
  have hlt : i < t.schema.length := by
    rw [← h.declared_length]; exact (List.getElem?_eq_some_iff.1 hd).1
  have hsub : (t.schema.eraseIdx i).Sublist t.schema := List.eraseIdx_sublist _ _
  have hlen : (t.schema.eraseIdx i).length = t.schema.length - 1 := List.length_eraseIdx_of_lt hlt
  have hne := h.nonempty
  have heq : redeclareDropped declared column = declared.eraseIdx i := by
    rw [redeclareDropped, List.eraseP_eq_eraseIdx, hfind]
  rw [heq]
  refine ⟨?_, ?_, fits_eraseIdx h.fits i, fun field hfield => h.valid field (hsub.subset hfield),
    h.distinct.sublist (hsub.map _), h.maxRows, ?_, ?_, ?_, fun _ hindex => absurd hindex.symm (Option.some_ne_none _)⟩
  · show t.schema.eraseIdx i = _
    rw [h.schema, List.eraseIdx_map]
  · show 1 ≤ (t.schema.eraseIdx i).length
    omega
  · exact Nat.le_trans (hsub.length_le) h.maxColumns
  · refine Nat.le_trans ?_ h.maxCells
    exact min_le_min_right _ (Nat.mul_le_mul_left _ hsub.length_le)
  · show t.retainedValueBytes - removed.retainedValueBytesExact = retainedBytes (t.columns.eraseIdx i)
    rw [h.retained, ← retainedBytes_eraseIdx hremoved, Nat.add_sub_cancel]

/-- A column under another name. -/
def Declared.renamed (destination : String) (d : Declared) : Declared := ({ d.1 with name := destination }, d.2)

def redeclareRenamed (declared : List Declared) (source destination : String) : List Declared :=
  declared.modify (declared.findIdx fun d => eqIgnoreAsciiCase d.1.name source) (Declared.renamed destination)

theorem fits_renamed {rows : Nat} {columns : List Column} (h : Fits declared rows columns) (i : Nat) (destination : String) :
    Fits (declared.modify i (Declared.renamed destination)) rows columns := by
  induction h generalizing i with
  | nil => cases i <;> exact .nil
  | cons hd hrest ih =>
    cases i with
    | zero => exact .cons hd hrest
    | succ i => exact .cons hd (ih i)

theorem map_modify {α β : Type} {f : α → α} {g : β → β} {m : α → β} (h : ∀ a, m (f a) = g (m a)) (as : List α) (i : Nat) :
    (as.modify i f).map m = (as.map m).modify i g := by
  induction as generalizing i with
  | nil => rw [List.modify_nil, List.map_nil, List.modify_nil]
  | cons a as ih =>
    cases i with
    | zero => rw [List.modify_zero_cons, List.map_cons, List.map_cons, List.modify_zero_cons, h]
    | succ i => rw [List.modify_succ_cons, List.map_cons, List.map_cons, List.modify_succ_cons, ih]

/-- A list without duplicates keeps none when one element becomes one that no other position has. -/
theorem nodup_set {α : Type} {as : List α} {a : α} {i : Nat} (h : as.Nodup)
    (ha : ∀ j, j ≠ i → as[j]? ≠ some a) : (as.set i a).Nodup := by
  by_cases hmem : a ∈ as
  · obtain ⟨j, hj⟩ := List.mem_iff_getElem?.1 hmem
    have hji : j = i := by
      by_contra hne
      exact ha j hne hj
    obtain ⟨hlt, rfl⟩ := List.getElem?_eq_some_iff.1 (hji ▸ hj)
    rwa [List.set_getElem_self]
  · exact h.set hmem

theorem renameColumn_wp (h : Consistent declared t) (source destination : String) :
    wp (renameColumn source destination) (fun _ t' => Consistent (redeclareRenamed declared source destination) t')
      (fun _ t' => t' = t) t := by
  rw [renameColumn, wp_bind, wp_read]
  refine check_wp (columnIndex_ne_panic _ _) fun i hi => ?_
  obtain ⟨hfind, d, hd⟩ := columnIndex_eq_ok h hi
  refine check_wp (validateColumnName_ne_panic _) fun _ hname => ?_
  refine check_wp (rejectIf_ne_panic _ _) fun _ hfree => ?_
  rw [rejectIf_eq_ok] at hfree
  have heq : redeclareRenamed declared source destination = declared.modify i (Declared.renamed destination) := by
    rw [redeclareRenamed, (List.findIdx?_eq_some_iff_findIdx_eq.1 hfind).2]
  rw [heq]
  refine ⟨?_, ?_, fits_renamed h.fits i destination, ?_, ?_, h.maxRows, ?_, ?_, h.retained, ?_⟩
  · show t.schema.modify i _ = _
    rw [h.schema]
    exact (map_modify (f := Declared.renamed destination) (m := Prod.fst) (fun _ => rfl) declared i).symm
  · show 1 ≤ (t.schema.modify i _).length
    rw [List.length_modify]; exact h.nonempty
  · intro field hfield
    obtain ⟨j, hj⟩ := List.mem_iff_getElem?.1 hfield
    rw [List.getElem?_modify] at hj
    obtain ⟨existing, hexisting, rfl⟩ := Option.map_eq_some_iff.1 hj
    split
    · exact validateColumnName_eq_ok hname
    · exact h.valid existing (List.mem_of_getElem? hexisting)
  · have hmap := map_modify (f := fun field : ColumnDef => { field with name := destination })
      (g := fun _ => toAsciiLowercase destination) (m := fun field => toAsciiLowercase field.name) (fun _ => rfl)
      t.schema i
    rw [← List.set_eq_modify] at hmap
    show ((t.schema.modify i _).map _).Nodup
    rw [hmap]
    refine nodup_set h.distinct fun j hji hj => hfree ?_
    rw [List.getElem?_map] at hj
    obtain ⟨field, hfield, hsame⟩ := Option.map_eq_some_iff.1 hj
    refine List.any_eq_true.2 ⟨(field, j), List.mem_zipIdx_iff_getElem?.2 hfield, ?_⟩
    simp only [ne_eq, hji, not_false_eq_true, decide_true, Bool.true_and]
    exact eqIgnoreAsciiCase_iff.2 hsame
  · show (t.schema.modify i _).length ≤ _
    rw [List.length_modify]; exact h.maxColumns
  · show saturatingMul t.rowCount (t.schema.modify i _).length ≤ _
    rw [List.length_modify]; exact h.maxCells
  · intro index hindex
    obtain ⟨hblock, d', hd', hint64⟩ := h.index index hindex
    refine ⟨hblock, _, by rw [List.getElem?_modify, hd']; rfl, ?_⟩
    split
    · exact hint64
    · exact hint64

/-! ## Index maintenance -/

theorem tryCreateInt64MinMaxIndex_keeps (h : Consistent declared t) (column : String) (limits : Int64MinMaxIndexLimits) :
    Keeps declared (tryCreateInt64MinMaxIndex column limits) t := by
  rw [Keeps, tryCreateInt64MinMaxIndex, wp_bind, wp_read]
  refine check_wp (columnIndex_ne_panic _ _) fun i hi => ?_
  obtain ⟨_, d, hd⟩ := columnIndex_eq_ok h hi
  have hfield : t.schema[i]? = some d.1 := by rw [h.schema_getElem?, hd]; rfl
  simp only [wp_bind, hfield, orPanic_some, wp_call_ok]
  refine wp_call (rejectIf_ne_panic _ _) (fun _ hint64 => ?_) fun _ _ => rfl
  rw [rejectIf_eq_ok, not_not] at hint64
  split
  · exact h
  · rename_i hblock
    have hbuild := buildInt64MinMaxIndex_spec h hd hint64 hblock
    revert hbuild
    cases t.buildInt64MinMaxIndex i limits with
    | ok index =>
      intro hbuild
      obtain ⟨rfl, rfl⟩ := hbuild.2 index rfl
      have ht' : Consistent declared { t with int64MinMaxIndex := some index } :=
        { h with index := by rintro _ ⟨⟩; exact ⟨hblock, d, hd, hint64⟩ }
      simp only [wp_bind, wp_write, int64MinMaxIndexInfo, hfield, Option.bind_eq_bind, Option.bind_some, orPanic_some,
        wp_call_ok]
      exact ht'
    | error rejection => exact fun _ => h
    | panic => exact fun hbuild => absurd rfl hbuild.1

theorem dropInt64MinMaxIndex_keeps (h : Consistent declared t) : Keeps declared dropInt64MinMaxIndex t := by
  simp only [Keeps, dropInt64MinMaxIndex, wp_bind, wp_read, wp_write]
  exact { h with index := fun _ hindex => absurd hindex.symm (Option.some_ne_none _) }

/-! ## Prepared INSERT input -/

/-- The inputs of one atomic INSERT, each prepared with room for those before it. -/
def prepareAll (t : Table) (cumulativeRows : Nat) :
    List (Option (List String) × List (List Value)) → Exec Error (List PreparedInsertRows)
  | [] => .ok []
  | (insertColumns, rows) :: inputs => do
    let cumulativeRows := cumulativeRows + rows.length
    let prepared ← t.prepareInsertRows insertColumns rows cumulativeRows
    let rest ← t.prepareAll cumulativeRows inputs
    .ok (prepared :: rest)

def appendAll : List PreparedInsertRows → Method Table Error Unit
  | [] => pure ()
  | prepared :: rest => do
    appendPreparedInsertRows prepared
    appendAll rest

def insertPrepared (inputs : List (Option (List String) × List (List Value))) : Method Table Error Unit := do
  let t ← .read
  let prepared ← .call (t.prepareAll 0 inputs)
  appendAll prepared

/-- Ingestion names the schema position of each input field itself. -/
def insertProjected (schemaIndexes : List Nat) (rows : List (List Value)) : Method Table Error Unit := do
  let t ← .read
  let prepared ← .call (t.prepareProjectedRows schemaIndexes rows)
  appendPreparedInsertRows prepared

def preparedRows (prepared : List PreparedInsertRows) : Nat := (prepared.map fun p => p.rows.length).sum

theorem prepareAll_spec (h : Consistent declared t) {cumulativeRows : Nat} (hroom : HasRoom t cumulativeRows)
    (inputs : List (Option (List String) × List (List Value))) :
    t.prepareAll cumulativeRows inputs ≠ .panic ∧
      ∀ prepared, t.prepareAll cumulativeRows inputs = .ok prepared →
        HasRoom t (cumulativeRows + preparedRows prepared) ∧ ∀ p ∈ prepared, AdmitsPrepared declared p := by
  induction inputs generalizing cumulativeRows with
  | nil => exact ⟨nofun, fun prepared hok => by obtain rfl := Exec.ok.inj hok; exact ⟨hroom, nofun⟩⟩
  | cons input inputs ih =>
    obtain ⟨insertColumns, rows⟩ := input
    have hprepare := prepareInsertRows_spec h insertColumns rows (cumulativeRows + rows.length)
    constructor
    · refine bind_ne_panic hprepare.1 fun p hp => ?_
      exact bind_ne_panic (ih (hprepare.2 p hp).1).1 fun _ _ => nofun
    · intro prepared hok
      obtain ⟨p, hp, hok⟩ := Exec.bind_eq_ok.1 hok
      obtain ⟨rest, hrest, hok⟩ := Exec.bind_eq_ok.1 hok
      obtain rfl := Exec.ok.inj hok
      obtain ⟨hroom', rfl, hadmits⟩ := hprepare.2 p hp
      obtain ⟨hrooms, hall⟩ := (ih hroom').2 rest hrest
      refine ⟨?_, List.forall_mem_cons.2 ⟨hadmits, hall⟩⟩
      rwa [preparedRows, List.map_cons, List.sum_cons, ← Nat.add_assoc]

theorem appendAll_wp {prepared : List PreparedInsertRows} (h : Consistent declared t)
    (hroom : HasRoom t (preparedRows prepared)) (hadmits : ∀ p ∈ prepared, AdmitsPrepared declared p) :
    wp (appendAll prepared) (fun _ t' => Consistent declared t') E t := by
  induction prepared generalizing t with
  | nil => exact h
  | cons p rest ih =>
    obtain ⟨hp, hrest⟩ := List.forall_mem_cons.1 hadmits
    rw [appendAll, wp_bind]
    exact wp_mono (appendPreparedInsertRows_wp h hroom hp) (fun _ t' ht' => ih ht'.1 ht'.2 hrest) fun _ _ he => he

theorem insertPrepared_keeps (h : Consistent declared t) (inputs : List (Option (List String) × List (List Value))) :
    Keeps declared (insertPrepared inputs) t := by
  rw [Keeps, insertPrepared, wp_bind, wp_read]
  have hprepare := prepareAll_spec h h.hasRoom inputs
  refine check_wp hprepare.1 fun prepared hok => ?_
  obtain ⟨hroom, hadmits⟩ := hprepare.2 prepared hok
  rw [Nat.zero_add] at hroom
  exact appendAll_wp h hroom hadmits

theorem insertProjected_keeps (h : Consistent declared t) {schemaIndexes : List Nat}
    (inside : ∀ i ∈ schemaIndexes, i < t.schema.length) (rows : List (List Value)) :
    Keeps declared (insertProjected schemaIndexes rows) t := by
  rw [Keeps, insertProjected, wp_bind, wp_read]
  have hprepare := prepareProjectedRowsWithCapacity_spec h inside rows rows.length
  refine check_wp hprepare.1 fun prepared hok => ?_
  obtain ⟨hroom, rfl, hadmits⟩ := hprepare.2 prepared hok
  have hroom : HasRoom t (prepared.rows.length + 0) := hroom
  exact wp_mono (appendPreparedInsertRows_wp h hroom hadmits) (fun _ _ h => h.1) fun _ _ he => he

end

/-! ## Construction -/

theorem validateFields_spec {columnNames : List String} {schema : List ColumnDef}
    (h : validateFields columnNames schema = .ok ()) :
    (∀ field ∈ schema, (isValidSqlIdentifier field.name ∧ ¬ isReservedColumnName field.name) ∧
      toAsciiLowercase field.name ∉ columnNames) ∧ (schema.map fun field => toAsciiLowercase field.name).Nodup := by
  induction schema generalizing columnNames with
  | nil => exact ⟨nofun, List.nodup_nil⟩
  | cons field schema ih =>
    obtain ⟨_, hname, h⟩ := Exec.bind_eq_ok.1 h
    obtain ⟨_, hnew, h⟩ := Exec.bind_eq_ok.1 h
    rw [rejectIf_eq_ok] at hnew
    obtain ⟨hvalid, hdistinct⟩ := ih h
    constructor
    · refine List.forall_mem_cons.2 ⟨⟨validateColumnName_eq_ok hname, hnew⟩, fun field' hfield' => ?_⟩
      obtain ⟨hname', hnew'⟩ := hvalid field' hfield'
      exact ⟨hname', fun hmem => hnew' (List.mem_cons_of_mem _ hmem)⟩
    · rw [List.map_cons, List.nodup_cons]
      refine ⟨fun hmem => ?_, hdistinct⟩
      obtain ⟨field', hfield', hsame⟩ := List.mem_map.1 hmem
      exact (hvalid field' hfield').2 (hsame ▸ List.mem_cons_self ..)

theorem fits_new (schema : List ColumnDef) :
    Fits (schema.map fun field => (field, false)) 0 (schema.map fun field => Column.new field.dataType) := by
  induction schema with
  | nil => exact .nil
  | cons field schema ih =>
    refine .cons ?_ ih
    cases hfield : field.dataType <;>
      simp [Column.new, Column.kind, Declared.kind, Column.dataType, Column.isNullableInt64, Column.len, hfield]

theorem retainedBytes_new (schema : List ColumnDef) :
    retainedBytes (schema.map fun field => Column.new field.dataType) = 0 := by
  induction schema with
  | nil => rfl
  | cons field schema ih =>
    have hnew : (Column.new field.dataType).retainedValueBytesExact = 0 := by cases field.dataType <;> rfl
    rw [List.map_cons, retainedBytes, List.map_cons, List.sum_cons, hnew, Nat.zero_add]
    exact ih

theorem withLimits_consistent {name : String} {schema : List ColumnDef} {limits : TableLimits} {t : Table}
    (h : withLimits name schema limits = .ok t) :
    Consistent (schema.map fun field => (field, false)) t ∧ t.schema = schema ∧ t.rowCount = 0 := by
  simp only [withLimits, Exec.bind_eq_ok, rejectIf_eq_ok, exists_and_left, exists_const, gt_iff_lt, not_lt] at h
  obtain ⟨_, _, hne, hcolumns, _, hfields, h⟩ := h
  obtain rfl := Exec.ok.inj h
  obtain ⟨hvalid, hdistinct⟩ := validateFields_spec hfields
  refine ⟨⟨?_, List.length_pos_iff.2 hne, fits_new schema, fun field hfield => (hvalid field hfield).1, hdistinct,
    Nat.zero_le _, hcolumns, ?_, (retainedBytes_new schema).symm, fun _ hindex => by cases hindex⟩, rfl, rfl⟩
  · rw [List.map_map]
    exact (List.map_id schema).symm
  · rw [retainedCellCount, saturatingMul_zero_left]
    exact Nat.zero_le _

theorem Consistent.filled {field : ColumnDef} {t : Table} {column : Column} {rows bytes : Nat} {nullable : Bool}
    {partitions : Option Int64RangePartitionSet} (h : Consistent [(field, false)] t) (hempty : t.rowCount = 0)
    (hindex : t.int64MinMaxIndex = none) (hroom : HasRoom t rows) (hkind : column.kind = (field.dataType, nullable))
    (hlen : column.len = rows) (hbytes : bytes = column.retainedValueBytesExact) :
    Consistent [(field, nullable)] { t with
      rowCount := rows, retainedValueBytes := bytes, columns := [column], int64RangePartitions := partitions } := by
  obtain ⟨hrows, hcells⟩ := hroom
  rw [hempty, Nat.zero_add] at hrows hcells
  exact { h with
    schema := h.schema
    fits := .cons ⟨hkind, hlen⟩ .nil
    maxRows := hrows
    maxCells := hcells
    retained := hbytes
    index := fun index hi => by rw [hindex] at hi; cases hi }

theorem withLimits_index {name : String} {schema : List ColumnDef} {limits : TableLimits} {t : Table}
    (h : withLimits name schema limits = .ok t) : t.int64MinMaxIndex = none := by
  simp only [withLimits, Exec.bind_eq_ok, rejectIf_eq_ok, exists_and_left, exists_const] at h
  obtain ⟨_, _, _, _, _, _, h⟩ := h
  obtain rfl := Exec.ok.inj h
  rfl

theorem withValues_consistent {name columnName : String} {limits : TableLimits} {t : Table} {column : Column}
    {nullable : Bool} {rows bytes : Nat} {partitions : Option Int64RangePartitionSet}
    (htable : withLimits name [⟨columnName, .int64⟩] limits = .ok t) (hcapacity : t.validateRowCapacity rows = .ok ())
    (hkind : column.kind = (.int64, nullable)) (hlen : column.len = rows)
    (hbytes : bytes = column.retainedValueBytesExact) :
    Consistent [(⟨columnName, .int64⟩, nullable)] { t with
      rowCount := rows, retainedValueBytes := bytes, columns := [column], int64RangePartitions := partitions } := by
  obtain ⟨h, _, hempty⟩ := withLimits_consistent htable
  exact h.filled hempty (withLimits_index htable) (validateRowCapacity_eq_ok h.nonempty h.maxRows hcapacity) hkind hlen
    hbytes

theorem withInt64Values_consistent {name columnName : String} {values : List Int64} {limits : TableLimits} {t : Table}
    (h : withInt64Values name columnName values limits = .ok t) : Consistent [(⟨columnName, .int64⟩, false)] t := by
  obtain ⟨table, htable, h⟩ := Exec.bind_eq_ok.1 h
  obtain ⟨_, hcapacity, h⟩ := Exec.bind_eq_ok.1 h
  obtain rfl := Exec.ok.inj h
  exact withValues_consistent htable hcapacity rfl rfl rfl

theorem withNullableInt64Values_consistent {name columnName : String} {values : List (Option Int64)}
    {limits : TableLimits} {t : Table} (h : withNullableInt64Values name columnName values limits = .ok t) :
    Consistent [(⟨columnName, .int64⟩, true)] t := by
  obtain ⟨table, htable, h⟩ := Exec.bind_eq_ok.1 h
  obtain ⟨_, hcapacity, h⟩ := Exec.bind_eq_ok.1 h
  obtain rfl := Exec.ok.inj h
  exact withValues_consistent htable hcapacity rfl rfl rfl

theorem withInt64RangePartitions_consistent {name columnName : String} {partitions : List Int64RangePartition}
    {partitionLimits : Int64RangePartitionLimits} {tableLimits : TableLimits} {t : Table}
    (h : withInt64RangePartitions name columnName partitions partitionLimits tableLimits = .ok t) :
    Consistent [(⟨columnName, .int64⟩, false)] t := by
  obtain ⟨_, _, h⟩ := Exec.bind_eq_ok.1 h
  obtain ⟨_, _, h⟩ := Exec.bind_eq_ok.1 h
  obtain ⟨_, _, h⟩ := Exec.bind_eq_ok.1 h
  obtain ⟨_, _, h⟩ := Exec.bind_eq_ok.1 h
  obtain ⟨table, htable, h⟩ := Exec.bind_eq_ok.1 h
  obtain ⟨_, hcapacity, h⟩ := Exec.bind_eq_ok.1 h
  rw [mapError_eq_ok] at htable hcapacity
  dsimp only at h
  split at h
  · cases h
  · rename_i hmemory
    obtain rfl := Exec.ok.inj h
    have hlen : (partitions.flatMap Int64RangePartition.values).length =
        (partitions.map fun partition => partition.values.length).foldl saturatingAdd 0 := by
      rw [foldl_saturatingAdd_zero, List.length_flatMap] at *
      have : isizeMax ≤ usizeMax := by decide
      omega
    exact withValues_consistent htable hcapacity rfl hlen (congrArg (· * 8) hlen.symm)

/-! ## Runs -/

inductive Mutation where
  | insertRow (row : List Value)
  | insertRows (rows : List (List Value))
  | insertPrepared (inputs : List (Option (List String) × List (List Value)))
  | insertProjected (schemaIndexes : List Nat) (rows : List (List Value))
  | replaceColumnValues (column : String) (replacements : List (Nat × Value))
  | deleteRows (rowIndexes : List Nat)
  | truncate
  | addColumn (field : ColumnDef)
  | addNullableInt64Column (name : String)
  | dropColumn (column : String)
  | renameColumn (source destination : String)
  | setName (name : String)
  | createInt64MinMaxIndex (column : String) (limits : Int64MinMaxIndexLimits)
  | dropInt64MinMaxIndex

/-- A mutation, whatever it returns. -/
def Mutation.run : Mutation → Method Table Error Unit
  | insertRow row => Table.insertRow row
  | insertRows rows => Table.insertRows rows
  | insertPrepared inputs => Table.insertPrepared inputs
  | insertProjected schemaIndexes rows => Table.insertProjected schemaIndexes rows
  | replaceColumnValues column replacements => do let _ ← Table.replaceColumnValues column replacements
  | deleteRows rowIndexes => do let _ ← Table.deleteRows rowIndexes
  | truncate => do let _ ← Table.truncate
  | addColumn field => Table.addColumn field
  | addNullableInt64Column name => Table.addNullableInt64Column name
  | dropColumn column => Table.dropColumn column
  | renameColumn source destination => Table.renameColumn source destination
  | setName name => do let t ← .read; .write (t.setName name)
  | createInt64MinMaxIndex column limits => do let _ ← tryCreateInt64MinMaxIndex column limits
  | dropInt64MinMaxIndex => do let _ ← Table.dropInt64MinMaxIndex

def Mutation.redeclare : Mutation → List Declared → List Declared
  | addColumn field, declared => declared ++ [(field, false)]
  | addNullableInt64Column name, declared => declared ++ [(⟨name, .int64⟩, true)]
  | dropColumn column, declared => redeclareDropped declared column
  | renameColumn source destination, declared => redeclareRenamed declared source destination
  | _, declared => declared

/-- Ingestion names positions of the schema only. -/
def Mutation.InSchema (t : Table) : Mutation → Prop
  | insertProjected schemaIndexes _ => ∀ i ∈ schemaIndexes, i < t.schema.length
  | _ => True

/-- The tables of public constructors and of all later mutations, with the columns declared on the way. -/
inductive Reachable : List Declared → Table → Prop
  | new {name : String} {schema : List ColumnDef} {t : Table} :
      Table.new name schema = .ok t → Reachable (schema.map fun field => (field, false)) t
  | withRowCap {name : String} {schema : List ColumnDef} {rowCap : Nat} {t : Table} :
      Table.withRowCap name schema rowCap = .ok t → Reachable (schema.map fun field => (field, false)) t
  | withLimits {name : String} {schema : List ColumnDef} {limits : TableLimits} {t : Table} :
      Table.withLimits name schema limits = .ok t → Reachable (schema.map fun field => (field, false)) t
  | withInt64Values {name columnName : String} {values : List Int64} {limits : TableLimits} {t : Table} :
      Table.withInt64Values name columnName values limits = .ok t → Reachable [(⟨columnName, .int64⟩, false)] t
  | withNullableInt64Values {name columnName : String} {values : List (Option Int64)} {limits : TableLimits} {t : Table} :
      Table.withNullableInt64Values name columnName values limits = .ok t → Reachable [(⟨columnName, .int64⟩, true)] t
  | withInt64RangePartitions {name columnName : String} {partitions : List Int64RangePartition}
      {partitionLimits : Int64RangePartitionLimits} {tableLimits : TableLimits} {t : Table} :
      Table.withInt64RangePartitions name columnName partitions partitionLimits tableLimits = .ok t →
      Reachable [(⟨columnName, .int64⟩, false)] t
  | success {declared : List Declared} {t t' : Table} (m : Mutation) : Reachable declared t → m.InSchema t →
      m.run t = some (.ok (), t') → Reachable (m.redeclare declared) t'
  | failure {declared : List Declared} {t t' : Table} {e : Error} (m : Mutation) : Reachable declared t → m.InSchema t →
      m.run t = some (.error e, t') → Reachable declared t'

theorem mutation_wp {declared : List Declared} {t : Table} (h : Consistent declared t) (m : Mutation) (hm : m.InSchema t) :
    wp m.run (fun _ t' => Consistent (m.redeclare declared) t') (fun _ t' => t' = t) t := by
  cases m with
  | insertRow row => exact insertRow_keeps h row
  | insertRows rows => exact insertRows_keeps h rows
  | insertPrepared inputs => exact insertPrepared_keeps h inputs
  | insertProjected schemaIndexes rows => exact insertProjected_keeps h hm rows
  | replaceColumnValues column replacements => exact wp_bind.2 (replaceColumnValues_keeps h column replacements)
  | deleteRows rowIndexes => exact wp_bind.2 (deleteRows_keeps h rowIndexes)
  | truncate => exact wp_bind.2 (truncate_keeps h)
  | addColumn field => exact addColumn_wp h field
  | addNullableInt64Column name => exact addNullableInt64Column_wp h name
  | dropColumn column => exact dropColumn_wp h column
  | renameColumn source destination => exact renameColumn_wp h source destination
  | setName name => exact { h with }
  | createInt64MinMaxIndex column limits => exact wp_bind.2 (tryCreateInt64MinMaxIndex_keeps h column limits)
  | dropInt64MinMaxIndex => exact wp_bind.2 (dropInt64MinMaxIndex_keeps h)

theorem reachable_consistent {declared : List Declared} {t : Table} (h : Reachable declared t) : Consistent declared t := by
  induction h with
  | new ht | withRowCap ht | withLimits ht => exact (withLimits_consistent ht).1
  | withInt64Values ht => exact withInt64Values_consistent ht
  | withNullableInt64Values ht => exact withNullableInt64Values_consistent ht
  | withInt64RangePartitions ht => exact withInt64RangePartitions_consistent ht
  | success m _ hm hrun ih => exact (wp_iff.1 (mutation_wp ih m hm)).2.1 () _ hrun
  | failure m _ hm hrun ih => exact (wp_iff.1 (mutation_wp ih m hm)).2.2 _ _ hrun ▸ ih

/-- **Representation invariant.** Whatever constructor built a table and whatever it went through since: it
is consistent with the columns declared on the way, of which there are as many as vectors and at least
one; its cells are within their limit; and the next mutation does not panic, and changes nothing if it fails. -/
theorem table_consistent {declared : List Declared} {t : Table} (h : Reachable declared t) :
    Consistent declared t ∧ t.columns.length = t.schema.length ∧
      (t.limits.maxCells < usizeMax → t.rowCount * t.schema.length ≤ t.limits.maxCells) ∧
      ∀ m : Mutation, m.InSchema t → m.run t ≠ none ∧ ∀ e t', m.run t = some (.error e, t') → t' = t := by
  have hconsistent := reachable_consistent h
  refine ⟨hconsistent, hconsistent.columns_length, fun hcap => ?_, fun m hm => ?_⟩
  · have hcells := hconsistent.maxCells
    unfold retainedCellCount saturatingMul at hcells
    omega
  · have hwp := wp_iff.1 (mutation_wp hconsistent m hm)
    exact ⟨hwp.1, fun e t' hrun => hwp.2.2 e t' hrun⟩

def sampleTable : Table :=
  ⟨"events", [⟨"id", .int64⟩, ⟨"label", .string⟩], [.int64 [7], .string ["ok"]], 1, 10, .default, 1, none, none⟩

theorem table_consistent_sample :
    Consistent [(⟨"id", .int64⟩, false), (⟨"label", .string⟩, false)] sampleTable ∧
      sampleTable.columns.length = sampleTable.schema.length ∧
      (sampleTable.limits.maxCells < usizeMax →
        sampleTable.rowCount * sampleTable.schema.length ≤ sampleTable.limits.maxCells) ∧
      ∀ m : Mutation, m.InSchema sampleTable → m.run sampleTable ≠ none ∧
        ∀ e t', m.run sampleTable = some (.error e, t') → t' = sampleTable := by
  have hnew : Table.new "events" [⟨"id", .int64⟩, ⟨"label", .string⟩] = .ok
      ⟨"events", [⟨"id", .int64⟩, ⟨"label", .string⟩], [.int64 [], .string []], 0, 0, .default, 0, none, none⟩ := by
    decide +kernel
  have hinsert : (Mutation.insertRow [.int64 7, .string "ok"]).run
      ⟨"events", [⟨"id", .int64⟩, ⟨"label", .string⟩], [.int64 [], .string []], 0, 0, .default, 0, none, none⟩ =
      some (.ok (), sampleTable) := by
    decide +kernel
  exact table_consistent (.success (.insertRow [.int64 7, .string "ok"]) (.new hnew) trivial hinsert)

end Table

end RustHouse.Batch
