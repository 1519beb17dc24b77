import RustHouse.TableInvariant

/-!
# Prepared rows fit their table

Rows that were prepared for a table give each of its columns a value that it
may hold, the default where the input leaves the column out, and the table has
room for all rows that their preparation counted.
-/

namespace RustHouse.Batch

open Checked Exec Words

/-! ## Defaults -/

/-- The value of a declared column that the input leaves out. -/
def Declared.default : Declared → Value
  | (_, true) => .null .int64
  | (⟨_, .int64⟩, false) => .int64 0
  | (⟨_, .float64⟩, false) => .float64 .zero
  | (⟨_, .bool⟩, false) => .bool false
  | (⟨_, .string⟩, false) => .string ""

theorem defaultValue_of_kind {column : Column} {d : Declared} (h : column.kind = d.kind) :
    Table.defaultValue column = d.default := by
  obtain ⟨⟨name, dataType⟩, nullable⟩ := d
  cases column <;> simp only [Column.kind, Column.dataType, Column.isNullableInt64, Declared.kind, Prod.mk.injEq] at h <;>
    obtain ⟨rfl, rfl⟩ := h <;> rfl

theorem admits_default {column : Column} {d : Declared} (h : column.kind = d.kind) :
    Column.Admits d.kind d.default := by
  rw [← h, ← defaultValue_of_kind h]
  cases column <;> simp [Table.defaultValue, Column.Admits, Column.kind, Column.dataType, Column.isNullableInt64,
    Value.dataType]

theorem Fits.defaults {declared : List Declared} {rows : Nat} {columns : List Column} (h : Fits declared rows columns) :
    (((declared.map Prod.fst).zip columns).map fun (_, column) => Table.defaultValue column) =
      declared.map Declared.default := by
  induction h with
  | nil => rfl
  | cons hd _ ih =>
    rw [List.map_cons, List.zip_cons_cons, List.map_cons, List.map_cons, ih]
    exact congrArg (· :: _) (defaultValue_of_kind hd.1)

namespace Table

theorem Consistent.defaults {declared : List Declared} {t : Table} (h : Consistent declared t) :
    ((t.schema.zip t.columns).map fun (_, column) => defaultValue column) = declared.map Declared.default := by
  rw [h.schema]
  exact h.fits.defaults

theorem Consistent.admits_defaults {declared : List Declared} {t : Table} (h : Consistent declared t) {i : Nat}
    {d : Declared} (hd : declared[i]? = some d) : Column.Admits d.kind d.default := by
  obtain ⟨_, _, hkind, _⟩ := h.column_of_declared hd
  exact admits_default hkind

/-! ## Projection onto the schema -/

/-- A row that has, at each position, the input field that goes there, or the default. -/
structure Chosen (source defaults : List Value) (indexes : List (Option Nat)) (row : List Value) : Prop where
  length : row.length = indexes.length
  value : ∀ j : Nat, row[j]? = (indexes[j]?).bind fun input => input.elim defaults[j]? fun i => source[i]?

theorem chosen_defaults (source defaults : List Value) :
    Chosen source defaults (List.replicate defaults.length none) defaults := by
  refine ⟨by rw [List.length_replicate], fun j => ?_⟩
  rw [List.getElem?_replicate]
  split
  · rfl
  · rename_i hj
    exact List.getElem?_eq_none (Nat.le_of_not_lt hj)

theorem Chosen.set {source defaults row : List Value} {indexes : List (Option Nat)} (h : Chosen source defaults indexes row)
    {j i : Nat} {value : Value} (hvalue : source[i]? = some value) :
    Chosen source defaults (indexes.set j (some i)) (row.set j value) := by
  refine ⟨by rw [List.length_set, List.length_set, h.length], fun k => ?_⟩
  rw [List.getElem?_set, List.getElem?_set, h.length]
  split
  · split
    · exact hvalue.symm
    · rfl
  · exact h.value k

/-- Assigning the input fields gives each position what the inverse map says. -/
theorem assignValues_chosen {schemaIndexes : List Nat} {inputIndex : Nat} {indexes indexes' : List (Option Nat)}
    {full defaults source row : List Value} (hindexes : inputIndexesBySchema inputIndex indexes schemaIndexes = some indexes')
    (hsource : full.drop inputIndex = source) (hlen : source.length = schemaIndexes.length)
    (hrow : Chosen full defaults indexes row) :
    ∃ row', assignValues row source schemaIndexes = some row' ∧ Chosen full defaults indexes' row' := by
  induction schemaIndexes generalizing inputIndex indexes source row with
  | nil =>
    obtain rfl := List.eq_nil_of_length_eq_zero hlen
    exact ⟨row, rfl, Option.some.inj hindexes ▸ hrow⟩
  | cons schemaIndex schemaIndexes ih =>
    obtain ⟨value, source, rfl⟩ := List.exists_cons_of_length_eq_add_one hlen
    obtain ⟨middle, hset, hrest⟩ := Option.bind_eq_some_iff.1 hindexes
    unfold setIndex at hset
    split at hset
    · rename_i hin
      obtain rfl := Option.some.inj hset
      have hvalue : full[inputIndex]? = some value := by rw [← List.head?_drop, hsource]; rfl
      obtain ⟨row', hassign, hrow'⟩ := ih hrest (by rw [← List.drop_drop, hsource]; rfl) (Nat.succ.inj hlen)
        (hrow.set (j := schemaIndex) hvalue)
      refine ⟨row', ?_, hrow'⟩
      simp only [assignValues, setIndex, hrow.length, if_pos hin]
      exact hassign
    · cases hset

theorem assignValues_range (before : List Value) {defaults source : List Value} (hlen : defaults.length = source.length) :
    assignValues (before ++ defaults) source (List.range' before.length source.length) = some (before ++ source) := by
  induction source generalizing before defaults with
  | nil => rw [List.eq_nil_of_length_eq_zero hlen]; rfl
  | cons value source ih =>
    obtain ⟨d, defaults, rfl⟩ := List.exists_cons_of_length_eq_add_one hlen
    have hset : setIndex (before ++ d :: defaults) before.length value = some (before ++ value :: defaults) := by
      rw [setIndex, if_pos (by simp), List.set_append_right _ _ (Nat.le_refl _), Nat.sub_self]
      rfl
    rw [List.length_cons, List.range'_succ]
    simp only [assignValues, hset]
    have := ih (before ++ [value]) (Nat.succ.inj hlen)
    rw [List.append_assoc, List.append_assoc, List.length_append] at this
    exact this

theorem inputIndexesBySchema_spec {schemaIndexes : List Nat} (inputIndex : Nat) (indexes : List (Option Nat))
    (inside : ∀ i ∈ schemaIndexes, i < indexes.length) (bounded : ∀ i, some i ∈ indexes → i < inputIndex) :
    ∃ indexes', inputIndexesBySchema inputIndex indexes schemaIndexes = some indexes' ∧
      indexes'.length = indexes.length ∧ ∀ i, some i ∈ indexes' → i < inputIndex + schemaIndexes.length := by
  induction schemaIndexes generalizing inputIndex indexes with
  | nil => exact ⟨indexes, rfl, rfl, bounded⟩
  | cons schemaIndex schemaIndexes ih =>
    obtain ⟨hin, hrest⟩ := List.forall_mem_cons.1 inside
    obtain ⟨indexes', hindexes, hlen, hbounded⟩ := ih (inputIndex + 1)
      (indexes.set schemaIndex (some inputIndex)) (by rwa [List.length_set]) fun i hi => by
        rcases List.mem_or_eq_of_mem_set hi with hi | hi
        · exact Nat.lt_succ_of_lt (bounded i hi)
        · rw [Option.some.inj hi]; exact Nat.lt_succ_self _
    refine ⟨indexes', ?_, hlen.trans List.length_set, fun i hi => ?_⟩
    · simp only [inputIndexesBySchema, setIndex, if_pos hin]
      exact hindexes
    · have := hbounded i hi
      rw [List.length_cons]
      omega

/-! ## Preparation -/

section
variable {declared : List Declared} {t : Table}

theorem validateProjected_spec {row : List Value} {column : Nat} {rest : List Declared} {indexes : List (Option Nat)}
    (h : Consistent declared t) (hrest : declared.drop column = rest) (bounded : ∀ i, some i ∈ indexes → i < row.length) :
    t.validateProjected row column (rest.map Prod.fst) indexes ≠ .panic ∧
      (t.validateProjected row column (rest.map Prod.fst) indexes = .ok () →
        ∀ (j i : Nat) (d : Declared) (value : Value), rest[j]? = some d → indexes[j]? = some (some i) →
          row[i]? = some value → Column.Admits d.kind value) := by
  induction rest generalizing column indexes with
  | nil =>
    cases indexes with
    | nil => exact ⟨nofun, nofun⟩
    | cons input indexes => cases input <;> exact ⟨nofun, nofun⟩
  | cons d rest ih =>
    have hd : declared[column]? = some d := by rw [← List.head?_drop, hrest]; rfl
    have hnext : declared.drop (column + 1) = rest := by rw [← List.drop_drop, hrest]; rfl
    cases indexes with
    | nil => exact ⟨nofun, nofun⟩
    | cons input indexes =>
      obtain ⟨hnopanic, hadmits⟩ := ih hnext fun i hi => bounded i (List.mem_cons_of_mem _ hi)
      cases input with
      | none =>
        refine ⟨hnopanic, fun hok j i d' value hd' hindex hvalue => ?_⟩
        cases j with
        | zero => cases hindex
        | succ j => exact hadmits hok j i d' value hd' hindex hvalue
      | some inputIndex =>
        have hlt : inputIndex < row.length := bounded inputIndex (List.mem_cons_self ..)
        have hin : row[inputIndex]? = some row[inputIndex] := List.getElem?_eq_getElem hlt
        simp only [List.map_cons, validateProjected, hin, orPanic_some, Exec.ok_bind]
        refine ⟨bind_ne_panic (validateValue_ne_panic h hd _ _) fun _ _ => hnopanic, fun hok => ?_⟩
        obtain ⟨_, hvalidated, hok⟩ := Exec.bind_eq_ok.1 hok
        intro j i d' value hd' hindex hvalue
        cases j with
        | zero =>
          obtain rfl : d = d' := Option.some.inj hd'
          obtain rfl : inputIndex = i := Option.some.inj (Option.some.inj hindex)
          obtain rfl : _ = value := Option.some.inj (hin.symm.trans hvalue)
          exact validateValue_eq_ok h hd hvalidated
        | succ j => exact hadmits hok j i d' value hd' hindex hvalue

def PreparedRow (declared : List Declared) (schemaIndexes : Option (List Nat)) (source row : List Value) : Prop :=
  match schemaIndexes with
  | none => row = source
  | some schemaIndexes => assignValues (declared.map Declared.default) source schemaIndexes = some row

/-- Prepared input that gives every declared column values it may hold. -/
def AdmitsPrepared (declared : List Declared) (prepared : PreparedInsertRows) : Prop :=
  ∀ source ∈ prepared.rows, ∃ row, PreparedRow declared prepared.schemaIndexes source row ∧ AdmitsRow declared row

theorem assigned_admits {schemaIndexes : List Nat} {indexes : List (Option Nat)} {source : List Value}
    (h : Consistent declared t)
    (hindexes : inputIndexesBySchema 0 (List.replicate t.schema.length none) schemaIndexes = some indexes)
    (hlen : source.length = schemaIndexes.length)
    (hok : ∀ (j i : Nat) (d : Declared) (value : Value), declared[j]? = some d → indexes[j]? = some (some i) →
      source[i]? = some value → Column.Admits d.kind value)
    (hindexesLen : indexes.length = t.schema.length) :
    ∃ row, assignValues (declared.map Declared.default) source schemaIndexes = some row ∧ AdmitsRow declared row := by
  have hdefaults : (declared.map Declared.default).length = t.schema.length := by
    rw [List.length_map, h.declared_length]
  obtain ⟨row, hassign, hrow⟩ := assignValues_chosen hindexes List.drop_zero hlen
    (hdefaults ▸ chosen_defaults source (declared.map Declared.default))
  refine ⟨row, hassign, List.forall₂_iff_get.2 ⟨?_, fun j hj hjrow => ?_⟩⟩
  · rw [hrow.length, hindexesLen, h.declared_length]
  · have hd : declared[j]? = some declared[j] := List.getElem?_eq_getElem hj
    have hvalue := hrow.value j
    rw [List.getElem?_eq_getElem hjrow, List.getElem?_eq_getElem (hrow.length ▸ hjrow)] at hvalue
    have hjindexes : j < indexes.length := hrow.length ▸ hjrow
    cases hinput : indexes[j] with
    | none =>
      rw [hinput] at hvalue
      rw [Option.bind_some, Option.elim_none, List.getElem?_map, hd] at hvalue
      have hdefault : row.get ⟨j, hjrow⟩ = declared[j].default := Option.some.inj hvalue
      rw [hdefault]
      exact h.admits_defaults hd
    | some i =>
      rw [hinput] at hvalue
      exact hok j i declared[j] row[j] hd (by rw [List.getElem?_eq_getElem hjindexes, hinput]) hvalue.symm

theorem prepareProjectedRowsWithCapacity_spec {schemaIndexes : List Nat} (h : Consistent declared t)
    (inside : ∀ i ∈ schemaIndexes, i < t.schema.length) (rows : List (List Value)) (capacityRows : Nat) :
    t.prepareProjectedRowsWithCapacity schemaIndexes rows capacityRows ≠ .panic ∧
      ∀ prepared, t.prepareProjectedRowsWithCapacity schemaIndexes rows capacityRows = .ok prepared →
        HasRoom t capacityRows ∧ prepared.rows = rows ∧ AdmitsPrepared declared prepared := by
  obtain ⟨indexes, hindexes, hindexesLen, hbounded⟩ := inputIndexesBySchema_spec 0
    (List.replicate t.schema.length none) (by rwa [List.length_replicate] : ∀ i ∈ schemaIndexes, _)
    fun i hi => absurd (List.eq_of_mem_replicate hi) (Option.some_ne_none i)
  rw [List.length_replicate] at hindexesLen
  simp only [Nat.zero_add] at hbounded
  have hprojected : ∀ row : List Value, row.length = schemaIndexes.length → _ := fun row hrow =>
    validateProjected_spec h List.drop_zero (fun i hi => hrow ▸ hbounded i hi : ∀ i, some i ∈ indexes → i < row.length)
  simp only [prepareProjectedRowsWithCapacity, hindexes, orPanic_some, Exec.ok_bind]
  constructor
  · refine bind_ne_panic (forEach_ne_panic fun _ _ => rejectIf_ne_panic _ _) fun _ hlen => ?_
    refine bind_ne_panic (validateRowCapacity_ne_panic _ _) fun _ _ => ?_
    refine bind_ne_panic (forEach_ne_panic fun row hrow => ?_) fun _ _ => ok_ne_panic _
    have hrowLen := forEach_eq_ok.1 hlen row hrow
    rw [rejectIf_eq_ok, not_not] at hrowLen
    rw [h.schema]
    exact (hprojected row hrowLen).1
  · intro prepared hok
    obtain ⟨_, hlen, hok⟩ := Exec.bind_eq_ok.1 hok
    obtain ⟨_, hcapacity, hok⟩ := Exec.bind_eq_ok.1 hok
    obtain ⟨_, hvalidated, hok⟩ := Exec.bind_eq_ok.1 hok
    obtain rfl := Exec.ok.inj hok
    refine ⟨validateRowCapacity_eq_ok h.nonempty h.maxRows hcapacity, rfl, fun source hsource => ?_⟩
    have hrowLen := forEach_eq_ok.1 hlen source hsource
    rw [rejectIf_eq_ok, not_not] at hrowLen
    have hrow := forEach_eq_ok.1 hvalidated source hsource
    rw [h.schema] at hrow
    obtain ⟨row, hassign, hadmits⟩ := assigned_admits h hindexes hrowLen ((hprojected source hrowLen).2 hrow) hindexesLen
    refine ⟨row, ?_, hadmits⟩
    show PreparedRow declared (if _ then none else some schemaIndexes) source row
    split
    · rename_i hrange
      have hdefaults : (declared.map Declared.default).length = source.length := by
        rw [hrowLen, hrange, List.length_range, List.length_map, h.declared_length]
      have hsource := assignValues_range [] hdefaults
      rw [hrange, List.range_eq_range', ← h.declared_length] at hassign
      rw [List.length_map] at hdefaults
      rw [List.length_nil, ← hdefaults] at hsource
      exact Option.some.inj (hassign.symm.trans hsource)
    · exact hassign

theorem schemaIndexesByName_lookup {name : String} {index : Nat} (h : t.schemaIndexesByName.lookup name = some index) :
    index < t.schema.length := by
  obtain ⟨before, after, heq, _⟩ := List.lookup_eq_some_iff.1 h
  have hmem : (name, index) ∈ t.schemaIndexesByName := by rw [heq]; simp
  obtain ⟨⟨field, i⟩, hfield, heq⟩ := List.mem_map.1 (List.mem_reverse.1 hmem)
  obtain rfl : i = index := (Prod.mk.inj heq).2
  exact List.snd_lt_of_mem_zipIdx hfield

theorem resolveInsertColumns_spec {schemaIndexes : List Nat} (names : List String)
    (inside : ∀ i ∈ schemaIndexes, i < t.schema.length) :
    t.resolveInsertColumns schemaIndexes names ≠ .panic ∧
      ∀ resolved, t.resolveInsertColumns schemaIndexes names = .ok resolved →
        ∀ i ∈ resolved, i < t.schema.length := by
  induction names generalizing schemaIndexes with
  | nil => exact ⟨nofun, fun resolved hok => Exec.ok.inj hok ▸ inside⟩
  | cons name names ih =>
    have hnext : ∀ i, t.schemaIndexesByName.lookup (toAsciiLowercase name) = some i →
        ∀ j ∈ schemaIndexes ++ [i], j < t.schema.length := by
      intro i hi j hj
      rcases List.mem_append.1 hj with hj | hj
      · exact inside j hj
      · rw [List.mem_singleton.1 hj]; exact schemaIndexesByName_lookup hi
    constructor
    · refine bind_ne_panic (getOr_ne_panic _ _) fun i hi => ?_
      exact bind_ne_panic (rejectIf_ne_panic _ _) fun _ _ => (ih (hnext i (getOr_eq_ok.1 hi))).1
    · intro resolved hok
      obtain ⟨i, hi, hok⟩ := Exec.bind_eq_ok.1 hok
      obtain ⟨_, _, hok⟩ := Exec.bind_eq_ok.1 hok
      exact (ih (hnext i (getOr_eq_ok.1 hi))).2 resolved hok

/-- Preparation never panics, and what it accepts fits the table. -/
theorem prepareInsertRows_spec (h : Consistent declared t) (insertColumns : Option (List String))
    (rows : List (List Value)) (capacityRows : Nat) :
    t.prepareInsertRows insertColumns rows capacityRows ≠ .panic ∧
      ∀ prepared, t.prepareInsertRows insertColumns rows capacityRows = .ok prepared →
        HasRoom t capacityRows ∧ prepared.rows = rows ∧ AdmitsPrepared declared prepared := by
  cases insertColumns with
  | none =>
    constructor
    · refine bind_ne_panic (validateRowCapacity_ne_panic _ _) fun _ _ => ?_
      exact bind_ne_panic (forEach_ne_panic fun row _ => (validateRow_spec h row).1) fun _ _ => ok_ne_panic _
    · intro prepared hok
      obtain ⟨_, hcapacity, hok⟩ := Exec.bind_eq_ok.1 hok
      obtain ⟨_, hvalidated, hok⟩ := Exec.bind_eq_ok.1 hok
      obtain rfl := Exec.ok.inj hok
      refine ⟨validateRowCapacity_eq_ok h.nonempty h.maxRows hcapacity, rfl, fun source hsource => ?_⟩
      exact ⟨source, rfl, (validateRow_spec h source).2 (forEach_eq_ok.1 hvalidated source hsource)⟩
  | some insertColumns =>
    simp only [prepareInsertRows]
    split
    · have hlt : 0 < t.schema.length := h.nonempty
      have hfirst : t.schema[0]? = some t.schema[0] := List.getElem?_eq_getElem hlt
      simp only [hfirst, orPanic_some, Exec.ok_bind]
      exact ⟨by rintro ⟨⟩, by rintro _ ⟨⟩⟩
    · have hresolve := resolveInsertColumns_spec insertColumns (List.forall_mem_nil fun i => i < t.schema.length)
      constructor
      · refine bind_ne_panic hresolve.1 fun schemaIndexes hschema => ?_
        refine bind_ne_panic (forEach_ne_panic fun _ _ => rejectIf_ne_panic _ _) fun _ _ => ?_
        exact (prepareProjectedRowsWithCapacity_spec h (hresolve.2 schemaIndexes hschema) rows capacityRows).1
      · intro prepared hok
        obtain ⟨schemaIndexes, hschema, hok⟩ := Exec.bind_eq_ok.1 hok
        obtain ⟨_, _, hok⟩ := Exec.bind_eq_ok.1 hok
        exact (prepareProjectedRowsWithCapacity_spec h (hresolve.2 schemaIndexes hschema) rows capacityRows).2 prepared hok

end

end Table

end RustHouse.Batch
