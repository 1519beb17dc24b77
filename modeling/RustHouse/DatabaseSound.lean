import RustHouse.DatabaseInvariant
import RustHouse.DatabaseStatements

/-!
# Statements are atomic

Every statement moves the database by steps, or fails and leaves its tables and
their totals as they were.
-/

namespace RustHouse.Batch

open Checked (usizeMax saturatingAdd)
open Exec Words KeyedTotals Method

/-! ## New tables -/

namespace Table

variable {name columnName : String} {limits : TableLimits} {t : Table}

theorem withLimits_created {schema : List ColumnDef} (h : withLimits name schema limits = .ok t) :
    t.identity = (name, limits) ∧ isValidSqlIdentifier name ∧ TableMeasurements.read t = .empty schema.length := by
  simp only [withLimits, Exec.bind_eq_ok] at h
  obtain ⟨_, hname, _, _, _, _, _, _, h⟩ := h
  obtain rfl := Exec.ok.inj h
  exact ⟨rfl, not_not.1 (rejectIf_eq_ok.1 hname), rfl⟩

theorem withInt64Values_created {values : List Int64} (h : withInt64Values name columnName values limits = .ok t) :
    t.identity = (name, limits) ∧ isValidSqlIdentifier name := by
  obtain ⟨table, htable, h⟩ := Exec.bind_eq_ok.1 h
  obtain ⟨_, _, h⟩ := Exec.bind_eq_ok.1 h
  obtain rfl := Exec.ok.inj h
  exact ⟨(withLimits_created htable).1, (withLimits_created htable).2.1⟩

theorem withNullableInt64Values_created {values : List (Option Int64)}
    (h : withNullableInt64Values name columnName values limits = .ok t) :
    t.identity = (name, limits) ∧ isValidSqlIdentifier name := by
  obtain ⟨table, htable, h⟩ := Exec.bind_eq_ok.1 h
  obtain ⟨_, _, h⟩ := Exec.bind_eq_ok.1 h
  obtain rfl := Exec.ok.inj h
  exact ⟨(withLimits_created htable).1, (withLimits_created htable).2.1⟩

theorem withInt64RangePartitions_created {partitions : List Int64RangePartition}
    {partitionLimits : Int64RangePartitionLimits}
    (h : withInt64RangePartitions name columnName partitions partitionLimits limits = .ok t) :
    t.identity = (name, limits) ∧ isValidSqlIdentifier name := by
  simp only [withInt64RangePartitions, Exec.bind_eq_ok] at h
  obtain ⟨_, _, _, _, _, _, _, _, table, htable, _, _, h⟩ := h
  split at h
  · cases h
  · obtain rfl := Exec.ok.inj h
    have hcreated := withLimits_created (mapError_eq_ok.1 htable)
    exact ⟨hcreated.1, hcreated.2.1⟩

end Table

section
variable {accepts : TableLimits → Prop} {name columnName : String} {limits : TableLimits} {t : Table}

theorem good_of_trailing (columns nullable : List Declared) (hconsistent : Table.Consistent (columns ++ nullable) t)
    (hcolumns : ∀ d ∈ columns, d.2 = false) (hlen : nullable.length ≤ 2)
    (hcreated : t.identity = (name, limits) ∧ isValidSqlIdentifier name) (hlimits : accepts limits) : Good accepts t := by
  obtain ⟨hidentity, hname⟩ := hcreated
  obtain ⟨rfl, rfl⟩ := Prod.mk.inj hidentity
  exact ⟨_, hconsistent, showable_trailing rfl hcolumns hlen, hname, hlimits⟩

theorem notNullable (columns : List ColumnDef) :
    ∀ d ∈ columns.map fun field => ((field, false) : Declared), d.2 = false := by
  intro d hd
  obtain ⟨field, _, rfl⟩ := List.mem_map.1 hd
  rfl

theorem good_withLimits {schema : List ColumnDef} (h : Table.withLimits name schema limits = .ok t)
    (hlimits : accepts limits) : Good accepts t := by
  have hconsistent := (Table.withLimits_consistent h).1
  rw [← List.append_nil (schema.map _)] at hconsistent
  have hcreated := Table.withLimits_created h
  exact good_of_trailing _ _ hconsistent (notNullable schema) (Nat.zero_le _) ⟨hcreated.1, hcreated.2.1⟩ hlimits

theorem good_withInt64Values {values : List Int64} (h : Table.withInt64Values name columnName values limits = .ok t)
    (hlimits : accepts limits) : Good accepts t :=
  good_of_trailing _ [] (Table.withInt64Values_consistent h) (notNullable [⟨columnName, .int64⟩])
    (Nat.zero_le _) (Table.withInt64Values_created h) hlimits

theorem good_withNullableInt64Values {values : List (Option Int64)}
    (h : Table.withNullableInt64Values name columnName values limits = .ok t) (hlimits : accepts limits) :
    Good accepts t :=
  good_of_trailing [] _ (Table.withNullableInt64Values_consistent h) (List.forall_mem_nil _)
    (Nat.le_succ _) (Table.withNullableInt64Values_created h) hlimits

theorem good_withInt64RangePartitions {partitions : List Int64RangePartition} {partitionLimits : Int64RangePartitionLimits}
    (h : Table.withInt64RangePartitions name columnName partitions partitionLimits limits = .ok t)
    (hlimits : accepts limits) : Good accepts t :=
  good_of_trailing _ [] (Table.withInt64RangePartitions_consistent h) (notNullable [⟨columnName, .int64⟩])
    (Nat.zero_le _) (Table.withInt64RangePartitions_created h) hlimits

theorem addNullableInt64Columns_ok {columns : List String} {declared : List Declared} {t t' : Table}
    (h : Table.Consistent declared t) (hadd : (Database.addNullableInt64Columns columns).applied t = .ok t') :
    Table.Consistent (declared ++ columns.map fun column => (⟨column, .int64⟩, true)) t' ∧ t'.identity = t.identity := by
  induction columns generalizing declared t with
  | nil =>
    obtain ⟨_, hadd⟩ := applied_eq_ok.1 hadd
    obtain rfl := (pure_eq_ok.1 hadd).2
    rw [List.map_nil, List.append_nil]
    exact ⟨h, rfl⟩
  | cons column columns ih =>
    obtain ⟨_, hadd⟩ := applied_eq_ok.1 hadd
    obtain ⟨_, t₁, hfirst, hrest⟩ := bind_eq_ok.1 hadd
    have hconsistent := (wp_iff.1 (Table.addNullableInt64Column_wp h column)).2.1 _ _ hfirst
    obtain ⟨hrest, hidentity⟩ := ih hconsistent (applied_eq_ok.2 ⟨_, hrest⟩)
    rw [List.map_cons, List.append_cons]
    exact ⟨hrest, hidentity.trans (Table.addNullableInt64Column_identity hfirst)⟩

theorem good_stageTable {columns : List ColumnDef} {nullableColumns : List String} (hlen : nullableColumns.length ≤ 2)
    (h : Database.stageTable name columns nullableColumns limits = .ok t) (hlimits : accepts limits) : Good accepts t := by
  have hnullable : (nullableColumns.map fun column => ((⟨column, .int64⟩, true) : Declared)).length ≤ 2 := by
    rwa [List.length_map]
  unfold Database.stageTable at h
  split at h
  · match nullableColumns, hlen, hnullable, h with
    | [first, second], _, hnullable, h =>
      obtain ⟨staged, hfirst, h⟩ := Exec.bind_eq_ok.1 h
      obtain ⟨staged', hsecond, h⟩ := Exec.bind_eq_ok.1 h
      obtain ⟨_, h⟩ := applied_eq_ok.1 h
      obtain rfl := (pure_eq_ok.1 h).2
      obtain ⟨_, hsecond⟩ := applied_eq_ok.1 hsecond
      have hconsistent := (wp_iff.1 (Table.addNullableInt64Column_wp (Table.withNullableInt64Values_consistent hfirst)
        second)).2.1 _ _ hsecond
      have hcreated := Table.withNullableInt64Values_created hfirst
      exact good_of_trailing [] _ hconsistent (List.forall_mem_nil _) hnullable
        ⟨(Table.addNullableInt64Column_identity hsecond).trans hcreated.1, hcreated.2⟩ hlimits
    | [], _, _, h => cases h
    | [_], _, _, h => cases h
  · obtain ⟨staged, hstaged, h⟩ := Exec.bind_eq_ok.1 h
    obtain ⟨hconsistent, hidentity⟩ := addNullableInt64Columns_ok (Table.withLimits_consistent hstaged).1 h
    have hcreated := Table.withLimits_created hstaged
    exact good_of_trailing _ _ hconsistent (notNullable columns) hnullable ⟨hidentity.trans hcreated.1, hcreated.2.1⟩ hlimits

end

/-! ## Creation and removal of tables -/

namespace Database

section
variable {accepts : TableLimits → Prop} {db : Database} {ε α β : Type}

theorem atomically_onCatalog {m : Method Catalog ε β} {rest : β → Method Database ε α} (hatomic : Atomic m)
    (h : ∀ b c, m db.catalog = some (.ok b, c) →
      wlp (rest b) (fun _ db' => Moves accepts db db') (fun _ db' => Untouched db db') { db with catalog := c }) :
    Atomically accepts (onCatalog m >>= rest) db := by
  refine wlp_bind.2 (wlp_zoom.2 (wlp_iff.2 ⟨fun b c hm => h b c hm, fun e c hm => ?_⟩))
  rw [hatomic _ _ _ hm]
  exact .refl db

theorem createTable_step {name : String} {columns : List ColumnDef} {c : Catalog}
    (h : Catalog.createTableWithLimits name columns db.tableLimits db.catalog = some (.ok (), c))
    (hlimits : accepts db.tableLimits) :
    Step accepts db.core (c, db.measurements.add (.empty columns.length)) := by
  simp only [Catalog.createTableWithLimits, bind_eq_ok, read_eq_ok, call_eq_ok, write_eq_ok] at h
  obtain ⟨_, _, ⟨rfl, rfl⟩, _, _, ⟨hfresh, rfl⟩, table, _, ⟨htable, rfl⟩, rfl⟩ := h
  obtain ⟨hidentity, _, hread⟩ := Table.withLimits_created htable
  obtain rfl : table.name = name := congrArg Prod.fst hidentity
  rw [← hread]
  exact .registered (good_withLimits htable hlimits) (rejectIf_eq_ok.1 hfresh)

theorem executeCreateStatement_atomically (name : String) (columns : List ColumnDef) (hlimits : accepts db.tableLimits) :
    Atomically accepts (executeCreateStatement name columns) db := by
  refine atomically_read (atomically_onCatalog (Catalog.createTableWithLimits_atomic _ _ _) fun _ c hc => ?_)
  exact ⟨.single (createTable_step hc hlimits), rfl⟩

theorem executeCreateIfNotExistsStatement_atomically (name : String) (columns : List ColumnDef)
    (hlimits : accepts db.tableLimits) : Atomically accepts (executeCreateIfNotExistsStatement name columns) db := by
  refine atomically_read (atomically_onCatalog (Catalog.createTableIfNotExistsWithLimits_atomic _ _ _) fun created c hc => ?_)
  simp only [Catalog.createTableIfNotExistsWithLimits, bind_eq_ok, read_eq_ok] at hc
  obtain ⟨_, _, ⟨rfl, rfl⟩, hc⟩ := hc
  split at hc
  · obtain ⟨rfl, rfl⟩ := pure_eq_ok.1 hc
    exact (Untouched.refl db).moves
  · obtain ⟨_, _, hcreate, hc⟩ := bind_eq_ok.1 hc
    obtain ⟨rfl, rfl⟩ := pure_eq_ok.1 hc
    exact ⟨.single (createTable_step hcreate hlimits), rfl⟩

theorem createNullableInt64TableWithLimits_atomically (tableName columnName : String) (values : List (Option Int64))
    {limits : TableLimits} (hlimits : accepts limits) :
    Atomically accepts (createNullableInt64TableWithLimits tableName columnName values limits) db :=
  atomically_check fun _ htable => atomically_registerTable (good_withNullableInt64Values htable hlimits)

theorem createNullableInt64Table_atomically (tableName columnName : String) (values : List (Option Int64))
    (hlimits : accepts db.tableLimits) : Atomically accepts (createNullableInt64Table tableName columnName values) db :=
  atomically_read (createNullableInt64TableWithLimits_atomically tableName columnName values hlimits)

theorem executeCreateNullableIfNotExistsStatement_atomically (name column : String) (hlimits : accepts db.tableLimits) :
    Atomically accepts (executeCreateNullableIfNotExistsStatement name column) db := by
  refine atomically_read ?_
  split
  · exact atomically_pure _
  · exact (createNullableInt64Table_atomically name column [] hlimits).returns _

theorem createTableWithTrailingNullableInt64_atomically (name : String) (columns : List ColumnDef)
    (nullableColumns : List String) (hlen : nullableColumns.length ≤ 2) (ifNotExists : Bool)
    (hlimits : accepts db.tableLimits) :
    Atomically accepts (createTableWithTrailingNullableInt64 name columns nullableColumns ifNotExists) db := by
  refine atomically_read ?_
  split
  · split
    · exact atomically_pure _
    · exact atomically_call _
  · exact atomically_check fun _ htable => atomically_registerTable (good_stageTable hlen htable hlimits)

theorem executeCreateTrailingStatement_atomically (name : String) (columns : List ColumnDef)
    (nullableColumns : List String) (hlen : nullableColumns.length ≤ 2) (ifNotExists : Bool)
    (hlimits : accepts db.tableLimits) :
    Atomically accepts (executeCreateTrailingStatement name columns nullableColumns ifNotExists) db :=
  (createTableWithTrailingNullableInt64_atomically name columns nullableColumns hlen ifNotExists hlimits).returns _

theorem executeDropStatement_atomically (name : String) : Atomically accepts (executeDropStatement name) db := by
  refine atomically_read (atomically_check fun _ _ => atomically_check fun table htable => ?_)
  refine atomically_onCatalog (Catalog.dropTable_atomic name) fun _ c hc => ?_
  simp only [Catalog.dropTable, Catalog.dropTableIfExists, bind_eq_ok, read_eq_ok, write_eq_ok, pure_eq_ok] at hc
  obtain ⟨_, _, ⟨_, _, ⟨rfl, rfl⟩, _, _, rfl, rfl, rfl⟩, hc⟩ := hc
  split at hc
  · obtain rfl := (pure_eq_ok.1 hc).2
    exact ⟨.single (.dropped (getOr_eq_ok.1 htable)), rfl⟩
  · exact absurd (call_eq_ok.1 hc).1 (by rintro ⟨⟩)

theorem dropTableIfExists_atomic (name : String) : Atomic (Catalog.dropTableIfExists name) := by
  intro c e c' h
  simp only [Catalog.dropTableIfExists, bind_eq_error, read_ne_error, write_ne_error, pure_ne_error, and_false,
    exists_false, or_false] at h

theorem executeDropIfExistsStatement_atomically (name : String) :
    Atomically accepts (executeDropIfExistsStatement name) db := by
  refine atomically_read (atomically_check fun _ _ => ?_)
  refine atomically_onCatalog (dropTableIfExists_atomic name) fun dropped c hc => ?_
  simp only [Catalog.dropTableIfExists, bind_eq_ok, read_eq_ok, write_eq_ok, pure_eq_ok] at hc
  obtain ⟨_, _, ⟨rfl, rfl⟩, _, _, rfl, rfl, rfl⟩ := hc
  rw [Catalog.tableExists]
  cases hlookup : db.catalog.tables.lookup (normalize name) with
  | none =>
    have hmissing : normalize name ∉ db.catalog.tables := AList.lookup_eq_none.1 hlookup
    rw [decide_eq_false hmissing]
    refine ⟨?_, rfl⟩
    show Relation.ReflTransGen _ db.core (⟨db.catalog.tables.erase (normalize name)⟩, db.measurements)
    rw [Catalog.erase_of_notMem hmissing]
    exact .refl
  | some table =>
    rw [decide_eq_true (AList.lookup_isSome.1 (by rw [hlookup]; rfl))]
    exact ⟨.single (.dropped hlookup), rfl⟩

theorem executeRenameStatement_atomically (source destination : String) :
    Atomically accepts (executeRenameStatement source destination) db := by
  refine atomically_read (atomically_check fun _ _ => ?_)
  exact atomically_onCatalog (Catalog.renameTable_atomic source destination) fun _ _ hc => ⟨.single (.renamed hc), rfl⟩

/-! ## Columns -/

theorem addColumn_changes {field : ColumnDef} {t : Table} (h : Good accepts t)
    (hadd : validateShowCreateAddition t field false = .ok ()) : ChangesTable accepts (Table.addColumn field) t := by
  obtain ⟨declared, hconsistent, _, hname, hlimits⟩ := h
  exact changesTable_of_wp (Showable.added (d := (field, false)) hconsistent hadd) hname hlimits
    (Table.addColumn_wp hconsistent field) fun _ _ _ => Table.addColumn_identity

theorem addNullableInt64Column_changes {column : String} {t : Table} (h : Good accepts t)
    (hadd : validateShowCreateAddition t ⟨column, .int64⟩ true = .ok ()) :
    ChangesTable accepts (Table.addNullableInt64Column column) t := by
  obtain ⟨declared, hconsistent, _, hname, hlimits⟩ := h
  exact changesTable_of_wp (Showable.added (d := (⟨column, .int64⟩, true)) hconsistent hadd) hname hlimits
    (Table.addNullableInt64Column_wp hconsistent column) fun _ _ _ => Table.addNullableInt64Column_identity

theorem dropColumn_changes (column : String) {t : Table} (h : Good accepts t) :
    ChangesTable accepts (Table.dropColumn column) t := by
  obtain ⟨declared, hconsistent, hshowable, hname, hlimits⟩ := h
  exact changesTable_of_wp (hshowable.dropped column) hname hlimits (Table.dropColumn_wp hconsistent column)
    fun _ _ _ => Table.dropColumn_identity

theorem renameColumn_changes (source destination : String) {t : Table} (h : Good accepts t) :
    ChangesTable accepts (Table.renameColumn source destination) t := by
  obtain ⟨declared, hconsistent, hshowable, hname, hlimits⟩ := h
  exact changesTable_of_wp (hshowable.renamed source destination) hname hlimits
    (Table.renameColumn_wp hconsistent source destination) fun _ _ _ => Table.renameColumn_identity

theorem renameColumn_measurements {source destination : String} {t t' : Table} {u : Unit}
    (h : Table.renameColumn source destination t = some (.ok u, t')) : TableMeasurements.read t' = .read t := by
  simp only [Table.renameColumn, bind_eq_ok, read_eq_ok, call_eq_ok, write_eq_ok] at h
  obtain ⟨_, _, ⟨rfl, rfl⟩, _, _, ⟨_, rfl⟩, _, _, ⟨_, rfl⟩, _, _, ⟨_, rfl⟩, rfl⟩ := h
  simp [TableMeasurements.read]

section
variable (hsound : Sound accepts db.core)
include hsound

theorem executeAddColumnStatement_atomically (table : String) (column : ColumnDef) :
    Atomically accepts (executeAddColumnStatement table column) db := by
  refine atomically_read (atomically_check fun _ _ => atomically_check fun existing hexisting => ?_)
  refine atomically_check fun _ hadd => Atomically.returns (atomically_tableMut hsound fun found hfound => ?_) _
  obtain rfl := Option.some.inj (hfound.symm.trans (getOr_eq_ok.1 hexisting))
  exact addColumn_changes (hsound.good _ _ hfound) hadd

theorem executeAddNullableInt64ColumnStatement_atomically (table column : String) :
    Atomically accepts (executeAddNullableInt64ColumnStatement table column) db := by
  refine atomically_read (atomically_check fun _ _ => atomically_check fun existing hexisting => ?_)
  refine atomically_check fun _ hadd => Atomically.returns (atomically_tableMut hsound fun found hfound => ?_) _
  obtain rfl := Option.some.inj (hfound.symm.trans (getOr_eq_ok.1 hexisting))
  exact addNullableInt64Column_changes (hsound.good _ _ hfound) hadd

omit hsound in
theorem executeUnlessColumnExists_atomically (table column : String) {add : Method Database Error StatementResult}
    (hadd : Atomically accepts add db) : Atomically accepts (executeUnlessColumnExists table column add) db := by
  refine atomically_read (atomically_check fun existing _ => ?_)
  split
  · exact atomically_pure _
  · exact hadd

theorem executeDropColumnStatement_atomically (table column : String) :
    Atomically accepts (executeDropColumnStatement table column) db := by
  refine atomically_read (atomically_check fun _ _ => Atomically.returns (atomically_tableMut hsound fun found hfound => ?_) _)
  exact dropColumn_changes column (hsound.good _ _ hfound)

theorem executeRenameColumnStatement_atomically (table source destination : String) :
    Atomically accepts (executeRenameColumnStatement table source destination) db := by
  refine atomically_read (atomically_check fun _ _ => ?_)
  refine atomically_onCatalog (Catalog.tableMut_atomic (Table.renameColumn_atomic source destination)) fun _ c hc => ?_
  rcases Catalog.tableMut_cases hc with ⟨_, herror, _⟩ | ⟨found, found', hfound, hcall, rfl⟩
  · cases herror
  · obtain ⟨hgood, hname⟩ := (wlp_iff.1 (renameColumn_changes source destination (hsound.good _ _ hfound))).1 _ _ hcall
    have hstep := Step.changed (m := db.measurements) hfound hgood hname
    have hmeasured : db.measurements = .ofTables db.catalog.tables := hsound.measured
    rw [renameColumn_measurements hcall, hmeasured, DatabaseMeasurements.replace_self hfound, ← hmeasured] at hstep
    exact ⟨.single hstep, rfl⟩

/-! ## Rows -/

theorem atomically_keeps {m : Method Table Error α} (name : String)
    (hkeeps : ∀ declared table, Table.Consistent declared table → Table.Keeps declared m table)
    (hid : Table.KeepsIdentity m) : Atomically accepts (tableMut name m) db :=
  atomically_tableMut hsound fun _ hfound => (hsound.good _ _ hfound).changes (fun declared => hkeeps declared _) hid

theorem atomically_append {name : String} {table : Table} {prepared : PreparedInsertRows}
    (htable : db.catalog.table name = .ok table)
    (hprepared : ∀ declared, Table.Consistent declared table →
      Table.HasRoom table prepared.rows.length ∧ Table.AdmitsPrepared declared prepared) :
    Atomically accepts (tableMut name (Table.appendPreparedInsertRows prepared)) db := by
  refine atomically_tableMut hsound fun found hfound => ?_
  obtain rfl := Option.some.inj (hfound.symm.trans (getOr_eq_ok.1 htable))
  have hgood := hsound.good _ _ hfound
  obtain ⟨declared, hconsistent, _⟩ := id hgood
  exact hgood.appends (hprepared declared hconsistent).1 fun declared hconsistent => (hprepared declared hconsistent).2

theorem executeInsertStatement_atomically (io : CommitIo) (table : String) (columns : Option (List String))
    (rows : List (List Value)) : Atomically accepts (executeInsertStatement io table columns rows) db := by
  refine atomically_read (atomically_check fun target htarget => atomically_check fun prepared hprepared => ?_)
  refine (quiet_logPreparedInt64Append io table prepared).andThen fun _ db' hdb' => Atomically.returns ?_ _
  have hadmits : ∀ declared, Table.Consistent declared target →
      Table.HasRoom target prepared.rows.length ∧ Table.AdmitsPrepared declared prepared := by
    intro declared hconsistent
    obtain ⟨hroom, hrows, hadmits⟩ := (Table.prepareInsertRows_spec hconsistent columns rows rows.length).2 _ hprepared
    exact ⟨hrows ▸ hroom, hadmits⟩
  refine atomically_append (hdb'.sound hsound) ?_ hadmits
  rw [show db'.catalog = db.catalog from congrArg Prod.fst hdb'.1]
  exact htarget

omit hsound in
theorem quiet_expectTable (name : String) : Quiet (expectTable name) db :=
  wlp_bind.2 (wlp_read.2 (wlp_bind.2 (wlp_call.2 ⟨fun _ _ => .refl db, fun _ _ => .refl db⟩)))

theorem executeDeleteStatement_atomically (table : String) (predicate : Predicate) (limits : QueryResultLimits) :
    Atomically accepts (executeDeleteStatement table predicate limits) db := by
  refine atomically_read (atomically_check fun _ _ => atomically_check fun _ _ => atomically_check fun _ _ => ?_)
  refine atomically_check fun _ _ => atomically_check fun rowIndexes _ => ?_
  refine (quiet_expectTable table).andThen fun _ db' hdb' => Atomically.returns ?_ _
  exact atomically_keeps (hdb'.sound hsound) table (fun _ _ h => Table.deleteRows_keeps h rowIndexes)
    (Table.deleteRows_identity rowIndexes)

omit hsound in
theorem quiet_logAlterUpdate (io : CommitIo) (table : String) (replacements : List (Nat × Value)) :
    Quiet (logAlterUpdate io table replacements) db := by
  refine wlp_bind.2 (wlp_read.2 ?_)
  split
  · exact wlp_bind.2 (wlp_call.2 ⟨fun _ _ => quiet_logInt64 io table _, fun _ _ => .refl db⟩)
  · exact quiet_pure ()

theorem executeAlterUpdateStatement_atomically (io : CommitIo) (table targetColumn : String) (value : AlterUpdateValue)
    (predicateColumn : String) (predicateValue : AlterUpdateValue) (limits : QueryResultLimits) :
    Atomically accepts
      (executeAlterUpdateStatement io table targetColumn value predicateColumn predicateValue limits) db := by
  refine atomically_read (atomically_check fun _ _ => atomically_check fun replacements _ => ?_)
  refine (quiet_logAlterUpdate io table replacements).andThen fun _ db₁ hdb₁ => ?_
  refine (quiet_expectTable table).andThen fun _ db₂ hdb₂ => Atomically.returns ?_ _
  exact atomically_keeps ((hdb₁.trans hdb₂).sound hsound) table
    (fun _ _ h => Table.replaceColumnValues_keeps h targetColumn replacements)
    (Table.replaceColumnValues_identity targetColumn replacements)

theorem executeTruncateStatement_atomically (io : CommitIo) (table : String) :
    Atomically accepts (executeTruncateStatement io table) db := by
  refine atomically_read (atomically_check fun _ _ => ?_)
  refine (quiet_logInt64 io table .truncate).andThen fun _ db' hdb' => Atomically.returns ?_ _
  exact atomically_keeps (hdb'.sound hsound) table (fun _ _ h => Table.truncate_keeps h) Table.truncate_identity

/-! ## Statements -/

/-- **Every statement is atomic.** It moves the database by steps, or fails and leaves its tables
and their totals as they were. -/
theorem executeStatementWithLimits_atomically (hlimits : accepts db.tableLimits) (queries : Queries) (io : CommitIo)
    (statement : Statement) (limits : QueryResultLimits) :
    Atomically accepts (executeStatementWithLimits queries io statement limits) db := by
  refine atomically_read ?_
  cases statement with
  | createTable name columns => exact executeCreateStatement_atomically name columns hlimits
  | createTableIfNotExists name columns => exact executeCreateIfNotExistsStatement_atomically name columns hlimits
  | createNullableInt64Table name column => exact (createNullableInt64Table_atomically name column [] hlimits).returns _
  | createNullableInt64TableIfNotExists name column =>
    exact executeCreateNullableIfNotExistsStatement_atomically name column hlimits
  | createTableWithTrailingNullableInt64 name columns nullable =>
    exact executeCreateTrailingStatement_atomically name columns [nullable] (Nat.le_succ 1) false hlimits
  | createTableWithTrailingNullableInt64IfNotExists name columns nullable =>
    exact executeCreateTrailingStatement_atomically name columns [nullable] (Nat.le_succ 1) true hlimits
  | createTableWithTwoTrailingNullableInt64 name columns nullable =>
    exact executeCreateTrailingStatement_atomically name columns [nullable.1, nullable.2] (Nat.le_refl 2) false hlimits
  | createTableWithTwoTrailingNullableInt64IfNotExists name columns nullable =>
    exact executeCreateTrailingStatement_atomically name columns [nullable.1, nullable.2] (Nat.le_refl 2) true hlimits
  | dropTable name => exact executeDropStatement_atomically name
  | dropTableIfExists name => exact executeDropIfExistsStatement_atomically name
  | renameTable source destination => exact executeRenameStatement_atomically source destination
  | renameColumn table source destination =>
    exact executeRenameColumnStatement_atomically hsound table source destination
  | addColumn table column => exact executeAddColumnStatement_atomically hsound table column
  | addColumnIfNotExists table column =>
    exact executeUnlessColumnExists_atomically table _ (executeAddColumnStatement_atomically hsound table column)
  | addNullableInt64Column table column =>
    exact executeAddNullableInt64ColumnStatement_atomically hsound table column
  | addNullableInt64ColumnIfNotExists table column =>
    exact executeUnlessColumnExists_atomically table _
      (executeAddNullableInt64ColumnStatement_atomically hsound table column)
  | dropColumn table column => exact executeDropColumnStatement_atomically hsound table column
  | alterUpdate => exact executeAlterUpdateStatement_atomically hsound io _ _ _ _ _ _
  | alterUpdateTyped => exact executeAlterUpdateStatement_atomically hsound io _ _ _ _ _ _
  | alterUpdateOwned => exact executeAlterUpdateStatement_atomically hsound io _ _ _ _ _ _
  | truncateTable name => exact executeTruncateStatement_atomically hsound io name
  | delete | deleteComparison | deleteConjunction | deleteNullness =>
    exact executeDeleteStatement_atomically hsound _ _ limits
  | insert table rows => exact executeInsertStatement_atomically hsound io table none rows
  | insertWithColumns table columns rows => exact executeInsertStatement_atomically hsound io table (some columns) rows
  | _ => exact Atomically.returns (atomically_call _) _

end

end

end Database

end RustHouse.Batch
