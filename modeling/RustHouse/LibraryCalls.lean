import RustHouse.DatabaseLogs
import RustHouse.IngestSound
import RustHouse.InsertBatchSound

/-!
# Calls of the library are atomic

Creation, appends, indexes, restores, ingestion, logs and recovery: each call
moves the database by steps, or fails and leaves it untouched. The limits of
tables may be any.
-/

namespace RustHouse.Batch

open Checked (usizeMax saturatingAdd)
open Exec Words KeyedTotals Method

/-! ## Tables with limits of their own -/

def anyLimits (_ : TableLimits) : Prop := True

namespace Database

section
variable {db : Database} {δ : Type}

theorem createInt64RangePartitionedTableWithLimits_atomically (tableName columnName : String)
    (partitions : List Int64RangePartition) (partitionLimits : Int64RangePartitionLimits) :
    Atomically anyLimits (createInt64RangePartitionedTableWithLimits tableName columnName partitions partitionLimits) db := by
  refine atomically_read (atomically_check fun _ _ => atomically_check fun table htable => ?_)
  exact (atomically_registerTable (good_withInt64RangePartitions htable trivial)).mapError _

theorem createInt64RangePartitionedTable_atomically (tableName columnName : String)
    (partitions : List Int64RangePartition) :
    Atomically anyLimits (createInt64RangePartitionedTable tableName columnName partitions) db :=
  atomically_read (createInt64RangePartitionedTableWithLimits_atomically tableName columnName partitions _)

/-! ## Restores -/

theorem prepareDecodedInt64Table_good {tableName : String} {restored : Int64Table} {table : Table}
    (h : db.prepareDecodedInt64Table tableName restored = .ok table) :
    Good anyLimits table ∧ table.name = tableName := by
  obtain ⟨_, _, h⟩ := Exec.bind_eq_ok.1 h
  dsimp only at h
  split at h
  · exact ⟨good_withNullableInt64Values h trivial, congrArg Prod.fst (Table.withNullableInt64Values_created h).1⟩
  · obtain ⟨values, _, h⟩ := Exec.bind_eq_ok.1 h
    exact ⟨good_withInt64Values h trivial, congrArg Prod.fst (Table.withInt64Values_created h).1⟩

theorem registerReopenedInt64Table_atomically (tableName : String) (restored : Int64Table) :
    Atomically anyLimits (registerReopenedInt64Table (δ := δ) tableName restored) db := by
  refine atomically_read (atomically_check fun table htable => Atomically.mapError (atomically_registerTable ?_) _)
  exact (prepareDecodedInt64Table_good (mapError_eq_ok.1 htable)).1

theorem restoreInt64TableFromFile_atomically (tableName : String)
    (restored : Exec (DatabaseSnapshotRestoreError δ) Int64Table) :
    Atomically anyLimits (restoreInt64TableFromFile tableName restored) db :=
  atomically_read (atomically_check fun _ _ => atomically_check fun restored _ =>
    registerReopenedInt64Table_atomically tableName restored)

theorem restoreInt64TableFromFileWithBackup_atomically (tableName : String)
    (recovered : Exec (DatabaseSnapshotRestoreError δ) (Int64Table × Int64TablePayloadFileRecoverySource)) :
    Atomically anyLimits (restoreInt64TableFromFileWithBackup tableName recovered) db :=
  atomically_read (atomically_check fun _ _ => atomically_check fun restored _ =>
    (registerReopenedInt64Table_atomically tableName restored.1).returns _)

theorem replaceRestoredInt64Table_atomically {tableName : String} {target : Table} (restored : Int64Table)
    (htarget : db.catalog.tables.lookup (normalize tableName) = some target) :
    Atomically anyLimits (replaceRestoredInt64Table (δ := δ) tableName target.name restored) db := by
  refine atomically_read (atomically_check fun replacement hreplacement => ?_)
  obtain ⟨hgood, hname⟩ := prepareDecodedInt64Table_good (mapError_eq_ok.1 hreplacement)
  refine wlp_bind.2 (wlp_mapError.2 (wlp_zoom.2 (wlp_iff.2 ⟨fun previous c hc => ?_, fun _ c hc => ?_⟩)))
  · simp only [Catalog.replaceTable, bind_eq_ok, read_eq_ok, call_eq_ok, write_eq_ok, pure_eq_ok] at hc
    obtain ⟨_, _, ⟨rfl, rfl⟩, _, _, ⟨hlookup, rfl⟩, _, _, rfl, rfl, rfl⟩ := hc
    obtain rfl := Option.some.inj (htarget.symm.trans (getOr_eq_ok.1 hlookup))
    exact ⟨.single (.changed htarget hgood hname), rfl⟩
  · rw [Catalog.replaceTable_atomic _ _ _ _ _ hc]
    exact .refl db

theorem replaceInt64TableFromFileWithBackup_atomically (tableName : String)
    (recovered : Exec (DatabaseSnapshotRestoreError δ) (Int64Table × Int64TablePayloadFileRecoverySource)) :
    Atomically anyLimits (replaceInt64TableFromFileWithBackup tableName recovered) db := by
  refine atomically_read (atomically_check fun _ _ => atomically_check fun target htarget => ?_)
  refine atomically_check fun restored _ => Atomically.returns ?_ _
  exact replaceRestoredInt64Table_atomically restored.1 (getOr_eq_ok.1 (mapError_eq_ok.1 htarget))

theorem replaceInt64TableFromFile_atomically (tableName : String)
    (restored : Exec (DatabaseSnapshotRestoreError δ) Int64Table) :
    Atomically anyLimits (replaceInt64TableFromFile tableName restored) db := by
  refine atomically_read (atomically_check fun _ _ => atomically_check fun target htarget => ?_)
  refine atomically_check fun restored _ => ?_
  exact replaceRestoredInt64Table_atomically restored (getOr_eq_ok.1 (mapError_eq_ok.1 htarget))

/-! ## Several tables at once -/

theorem register_steps {accepts : TableLimits → Prop} {c : Catalog} {tables : List Table} {incoming : List String}
    {index : Nat} {base : Map String Table} {m : DatabaseMeasurements}
    (hbase : ∀ key, key ∈ base → key ∈ c.tables ∨ key ∈ incoming)
    (hgood : ∀ table ∈ tables, Good accepts table) (h : c.preflightNames incoming index tables = .ok ()) :
    Relation.ReflTransGen (Step accepts) (⟨base⟩, m)
      (⟨tables.foldl (fun tables table => tables.insert (normalize table.name) table) base⟩,
        (tables.map TableMeasurements.read).foldl .add m) := by
  induction tables generalizing incoming index base m with
  | nil => exact .refl
  | cons table tables ih =>
    obtain ⟨_, hfresh, h⟩ := Exec.bind_eq_ok.1 h
    rw [rejectIf_eq_ok, not_or] at hfresh
    obtain ⟨hhere, hrest⟩ := List.forall_mem_cons.1 hgood
    have hnew : normalize table.name ∉ base := fun hmem => (hbase _ hmem).elim hfresh.1 hfresh.2
    refine .head (.registered hhere hnew) (ih (fun key hkey => ?_) hrest h)
    rcases (AList.mem_insert _).1 hkey with rfl | hkey
    · exact .inr (List.mem_cons_self ..)
    · exact (hbase key hkey).imp_right (List.mem_cons_of_mem _)

theorem addTotals_foldl (m : DatabaseMeasurements) : ∀ (tables : List TableMeasurements) (totals : DatabaseMeasurements),
    m.addTotals (tables.foldl .add totals) = tables.foldl .add (m.addTotals totals)
  | [], _ => rfl
  | table :: tables, totals => by
    rw [List.foldl_cons, addTotals_foldl m tables, List.foldl_cons]
    congr 1
    exact DatabaseMeasurements.ext (Nat.add_assoc _ _ _).symm (Nat.add_assoc _ _ _).symm (Nat.add_assoc _ _ _).symm

theorem registerTables_steps {accepts : TableLimits → Prop} {c c' : Catalog} {tables : List Table} {u : Unit}
    (m : DatabaseMeasurements) (hgood : ∀ table ∈ tables, Good accepts table)
    (h : Catalog.registerTables tables c = some (.ok u, c')) :
    Relation.ReflTransGen (Step accepts) (c, m) (c', (tables.map TableMeasurements.read).foldl .add m) := by
  simp only [Catalog.registerTables, bind_eq_ok, read_eq_ok, call_eq_ok, write_eq_ok] at h
  obtain ⟨_, _, ⟨rfl, rfl⟩, _, _, ⟨hnames, rfl⟩, rfl⟩ := h
  exact register_steps (fun _ => .inl) hgood hnames

theorem stageEntries_good {entries : List (DatabaseSnapshotRestoreEntry δ)} {index : Nat} {staged : List Table}
    (h : db.stageEntries index entries = .ok staged) : ∀ table ∈ staged, Good anyLimits table := by
  induction entries generalizing index staged with
  | nil =>
    obtain rfl := Exec.ok.inj h
    exact List.forall_mem_nil _
  | cons entry entries ih =>
    obtain ⟨table, htable, h⟩ := Exec.bind_eq_ok.1 h
    obtain ⟨tables, htables, h⟩ := Exec.bind_eq_ok.1 h
    obtain rfl := Exec.ok.inj h
    obtain ⟨restored, _, htable⟩ := Exec.bind_eq_ok.1 (mapError_eq_ok.1 htable)
    exact List.forall_mem_cons.2 ⟨(prepareDecodedInt64Table_good (mapError_eq_ok.1 htable)).1, ih htables⟩

theorem restoreInt64TablesFromFiles_atomically (entries : List (DatabaseSnapshotRestoreEntry δ)) (maxEntries : Nat) :
    Atomically anyLimits (restoreInt64TablesFromFiles entries maxEntries) db := by
  refine atomically_read ?_
  split
  · exact atomically_check fun _ _ => atomically_call _
  · refine atomically_check fun _ _ => atomically_check fun staged hstaged => ?_
    refine wlp_bind.2 (wlp_iff.2 ⟨fun outcome db' h => ?_, fun _ db' h => ?_⟩)
    · cases hregister : Catalog.registerTables staged db.catalog with
      | none => simp [Method.attempt, onCatalog, Method.zoom, hregister] at h
      | some result =>
        obtain ⟨result, c⟩ := result
        simp only [Method.attempt, onCatalog, Method.zoom, hregister, Option.map_some, Option.some.injEq, Prod.mk.injEq,
          Except.ok.injEq] at h
        obtain ⟨rfl, rfl⟩ := h
        cases result with
        | error rejected =>
          obtain rfl := Catalog.registerTables_atomic _ _ _ _ hregister
          exact atomically_call _
        | ok =>
          refine ⟨?_, rfl⟩
          have hsteps := registerTables_steps db.measurements (stageEntries_good hstaged) hregister
          rw [show db.measurements = db.measurements.addTotals .zero from rfl, ← addTotals_foldl] at hsteps
          exact hsteps
    · unfold Method.attempt at h
      cases hm : onCatalog (Catalog.registerTables staged) db <;> simp [hm] at h

/-! ## Rows -/

section
variable (hsound : Sound anyLimits db.core)
include hsound

omit hsound in
theorem nullableValue_admits {table : Table} {operation : String} {declared : List Declared}
    (h : expectNullableInt64Table table operation = .ok ()) (hconsistent : Table.Consistent declared table)
    (value : Option Int64) : AdmitsRow declared [nullableValue value] := by
  unfold expectNullableInt64Table at h
  split at h
  · rename_i values hcolumns
    have hfits := hconsistent.fits
    rw [hcolumns] at hfits
    match declared, hfits with
    | [d], .cons hd .nil =>
      refine .cons ?_ .nil
      rw [← hd.1]
      cases value
      · exact ⟨rfl, rfl⟩
      · exact rfl
  · obtain ⟨_, _, h⟩ := Exec.bind_eq_ok.1 h
    cases h

theorem appendNullableInt64Values_atomically (io : CommitIo) (tableName : String) (values : List (Option Int64)) :
    Atomically anyLimits (appendNullableInt64Values io tableName values) db := by
  refine atomically_read (atomically_check fun table htable => atomically_check fun _ hnullable => ?_)
  refine atomically_check fun _ hcapacity => (quiet_logInt64 io tableName _).andThen fun _ db' hdb' => ?_
  refine atomically_tableMut (hdb'.sound hsound) fun found hfound => ?_
  rw [show db'.catalog = db.catalog from congrArg Prod.fst hdb'.1] at hfound
  obtain rfl := Option.some.inj (hfound.symm.trans (getOr_eq_ok.1 htable))
  refine (hsound.good _ _ hfound).changes (fun declared hconsistent => ?_) (Table.appendValidatedRows_identity _)
  have hroom := Table.validateRowCapacity_eq_ok hconsistent.nonempty hconsistent.maxRows hcapacity
  rw [← List.length_map fun value => [nullableValue value], ← Nat.add_zero (List.length _)] at hroom
  refine wp_mono (Table.mark_after (Table.appendEach_wp hconsistent hroom fun row hrow => ?_)) (fun _ _ h => h.1)
    fun _ _ he => he
  obtain ⟨value, _, rfl⟩ := List.mem_map.1 hrow
  exact nullableValue_admits hnullable hconsistent value

theorem replaceNullableInt64Values_atomically (io : CommitIo) (tableName : String)
    (replacements : List (Nat × Option Int64)) :
    Atomically anyLimits (replaceNullableInt64Values io tableName replacements) db := by
  refine atomically_read (atomically_check fun _ _ => atomically_check fun _ _ => atomically_check fun first _ => ?_)
  refine atomically_check fun _ _ => (quiet_logInt64 io tableName _).andThen fun _ db' hdb' => ?_
  exact atomically_keeps (hdb'.sound hsound) tableName (fun _ _ h => Table.replaceColumnValues_keeps h _ _)
    (Table.replaceColumnValues_identity _ _)

/-! ## The sparse index -/

theorem createInt64MinMaxIndex_atomically (table column : String) (limits : Int64MinMaxIndexLimits) :
    Atomically anyLimits (createInt64MinMaxIndex table column limits) db := by
  refine atomically_read (atomically_check fun _ _ => atomically_check fun _ _ => atomically_check fun _ _ => ?_)
  refine atomically_check fun _ _ => ?_
  split
  · exact atomically_pure _
  · exact atomically_keeps hsound table (fun _ _ h => Table.tryCreateInt64MinMaxIndex_keeps h column limits)
      (Table.tryCreateInt64MinMaxIndex_identity column limits)

theorem dropInt64MinMaxIndex_atomically (table : String) : Atomically anyLimits (dropInt64MinMaxIndex table) db :=
  atomically_keeps hsound table (fun _ _ h => Table.dropInt64MinMaxIndex_keeps h) Table.dropInt64MinMaxIndex_identity

end

/-! ## Ingestion -/

section
variable {ε : Type}

/-- The rows of an input are prepared for the table, with room for all of them. -/
def Prepares (parseRows : Table → Exec ε PreparedInsertRows) : Prop :=
  ∀ declared table prepared, Table.Consistent declared table → parseRows table = .ok prepared →
    Table.HasRoom table prepared.rows.length ∧ Table.AdmitsPrepared declared prepared

theorem ingest_atomically (hsound : Sound anyLimits db.core) {parseRows : Table → Exec ε PreparedInsertRows}
    (hprepares : Prepares parseRows) (database : Error → ε) (logged : PreparedInsertRows → Bool) (io : CommitIo)
    (table : String) : Atomically anyLimits (ingest database parseRows logged io table) db := by
  refine atomically_read (atomically_check fun target htarget => atomically_check fun rows hrows => ?_)
  have happend : ∀ db', Untouched db db' → Atomically anyLimits (do
      Method.mapError database (tableMut table (Table.appendPreparedInsertRows rows))
      return rows.rows.length) db' := by
    intro db' hdb'
    refine Atomically.returns (Atomically.mapError ?_ database) _
    refine atomically_append (hdb'.sound hsound) ?_ fun declared hconsistent =>
      hprepares declared target rows hconsistent hrows
    rw [show db'.catalog = db.catalog from congrArg Prod.fst hdb'.1]
    exact mapError_eq_ok.1 htarget
  dsimp only
  split
  · exact ((quiet_logPreparedInt64Append io table rows).mapError database).andThen fun _ => happend
  · exact happend db (.refl db)

theorem prepareProjectedRows_prepares {database : Error → ε} {table : Table} {schemaIndexes : List Nat}
    {rows : List (List Value)} {prepared : PreparedInsertRows} {declared : List Declared}
    (hconsistent : Table.Consistent declared table) (inside : ∀ i ∈ schemaIndexes, i < table.schema.length)
    (h : Exec.mapError database (table.prepareProjectedRows schemaIndexes rows) = .ok prepared) :
    Table.HasRoom table prepared.rows.length ∧ Table.AdmitsPrepared declared prepared := by
  obtain ⟨hroom, hrows, hadmits⟩ :=
    (Table.prepareProjectedRowsWithCapacity_spec hconsistent inside rows rows.length).2 prepared (mapError_eq_ok.1 h)
  exact ⟨hrows ▸ hroom, hadmits⟩

theorem lookup_mem {entries : List (String × Nat)} {name : String} {i : Nat} (h : entries.lookup name = some i) :
    (name, i) ∈ entries := by
  induction entries with
  | nil => cases h
  | cons entry entries ih =>
    rw [List.lookup_cons] at h
    split at h
    · rename_i heq
      obtain rfl := Option.some.inj h
      obtain rfl := eq_of_beq heq
      exact List.mem_cons_self ..
    · exact List.mem_cons_of_mem _ (ih h)

theorem resolveHeader_inside {errors : HeaderErrors ε} {decode : List Char → Nat → Exec ε String} {table : Table}
    {fields : List (List Char)} {offset : Nat} {schemaIndexes resolved : List Nat}
    (hbefore : ∀ i ∈ schemaIndexes, i < table.schema.length)
    (h : resolveHeader errors decode table schemaIndexes offset fields = .ok resolved) :
    ∀ i ∈ resolved, i < table.schema.length := by
  induction fields generalizing offset schemaIndexes with
  | nil =>
    obtain rfl := Exec.ok.inj h
    exact hbefore
  | cons field fields ih =>
    obtain ⟨name, _, h⟩ := Exec.bind_eq_ok.1 h
    split at h
    · split at h <;> cases h
    · rename_i index hindex
      obtain ⟨_, _, h⟩ := Exec.bind_eq_ok.1 h
      refine ih (fun i hi => ?_) h
      rcases List.mem_append.1 hi with hi | hi
      · exact hbefore i hi
      · obtain rfl := List.mem_singleton.1 hi
        have hmem := List.mem_reverse.1 (lookup_mem hindex)
        obtain ⟨⟨column, j⟩, hcolumn, hentry⟩ := List.mem_map.1 hmem
        obtain ⟨rfl, rfl⟩ := Prod.mk.inj hentry
        exact (List.getElem?_eq_some_iff.1 (List.mem_zipIdx_iff_getElem?.1 hcolumn)).1

variable (float : FloatText)

theorem csv_prepares (input : Bytes) (limits : CsvIngestLimits) :
    Prepares fun t => Csv.parseRowsWithoutNames float t input limits := by
  intro declared table prepared hconsistent h
  simp only [Csv.parseRowsWithoutNames, Csv.parseDataRows, Exec.bind_eq_ok] at h
  obtain ⟨_, _, _, _, _, _, h⟩ := h
  exact prepareProjectedRows_prepares hconsistent (fun i hi => List.mem_range.1 hi) h

theorem csvWithNames_prepares (input : Bytes) (limits : CsvIngestLimits) :
    Prepares fun t => Csv.parseRowsWithNames float t input limits := by
  intro declared table prepared hconsistent h
  obtain ⟨_, _, h⟩ := Exec.bind_eq_ok.1 h
  obtain ⟨text, _, h⟩ := Exec.bind_eq_ok.1 h
  split at h
  · cases h
  · simp only [Csv.validateHeader, Csv.parseDataRows, Exec.bind_eq_ok] at h
    obtain ⟨_, _, _, ⟨_, _, _, _, hheader⟩, _, _, h⟩ := h
    exact prepareProjectedRows_prepares hconsistent (resolveHeader_inside (List.forall_mem_nil _) hheader) h

theorem tsv_prepares (input : Bytes) (limits : TsvIngestLimits) :
    Prepares fun t => Tsv.parseRowsWithoutNames float t input limits := by
  intro declared table prepared hconsistent h
  simp only [Tsv.parseRowsWithoutNames, Tsv.parseDataRows, Exec.bind_eq_ok] at h
  obtain ⟨_, _, _, _, _, _, h⟩ := h
  exact prepareProjectedRows_prepares hconsistent (fun i hi => List.mem_range.1 hi) h

theorem tsvWithNames_prepares (input : Bytes) (limits : TsvIngestLimits) :
    Prepares fun t => Tsv.parseRowsWithNames float t input limits := by
  intro declared table prepared hconsistent h
  obtain ⟨_, _, h⟩ := Exec.bind_eq_ok.1 h
  obtain ⟨text, _, h⟩ := Exec.bind_eq_ok.1 h
  split at h
  · cases h
  · simp only [Tsv.validateHeader, Tsv.parseDataRows, Exec.bind_eq_ok] at h
    obtain ⟨_, _, _, ⟨_, _, _, _, hheader⟩, _, _, h⟩ := h
    exact prepareProjectedRows_prepares hconsistent (resolveHeader_inside (List.forall_mem_nil _) hheader) h

theorem json_prepares (database : Error → ε) (readValues : Table → Exec ε (List Value)) :
    Prepares (fun t => do
      let values ← readValues t
      Exec.mapError database (t.prepareProjectedRows [0] (values.map fun value => [value]))) := by
  intro declared table prepared hconsistent h
  obtain ⟨values, _, h⟩ := Exec.bind_eq_ok.1 h
  refine prepareProjectedRows_prepares hconsistent (fun i hi => ?_) h
  obtain rfl := List.mem_singleton.1 hi
  exact hconsistent.nonempty

end

end

end Database

end RustHouse.Batch
