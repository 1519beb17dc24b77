import RustHouse.LibraryCalls

/-!
# Runs of a database

What a program can do to a database, in any order, with calls that succeed and
calls that fail. The totals are those of the tables in every database that is
reached, and a call that fails leaves the tables as they were; of a script, the
statements before the one that fails stay.
-/

namespace RustHouse.Batch

open Checked (usizeMax saturatingAdd)
open Exec Words KeyedTotals Method

/-! ## Logs and settings -/

namespace Database

section
variable {db : Database}

theorem enableInt64WriteAheadLog_quiet (io : Int64WriteAheadLog.CreateIo) (tableName : String)
    (limits : Int64WriteAheadLogLimits) : Quiet (enableInt64WriteAheadLog io tableName limits) db := by
  refine wlp_bind.2 (wlp_bind.2 (wlp_call.2 ⟨fun _ _ => ?_, fun _ _ => .refl db⟩))
  refine wlp_bind.2 (wlp_call.2 ⟨fun _ _ => ?_, fun _ _ => .refl db⟩)
  refine wlp_bind.2 (wlp_call.2 ⟨fun _ _ => ?_, fun _ _ => .refl db⟩)
  refine wlp_bind.2 (wlp_call.2 ⟨fun outcome _ => ?_, fun _ _ => .refl db⟩)
  cases outcome with
  | error => exact Untouched.refl db
  | ok => exact ⟨rfl, rfl⟩

theorem enableInt64WriteAheadLogRegistry_quiet (io : CreateRegistryIo) (tableNames : List String)
    (limits : Int64WriteAheadLogRegistryLimits) : Quiet (enableInt64WriteAheadLogRegistry io tableNames limits) db := by
  refine wlp_bind.2 (wlp_bind.2 (wlp_call.2 ⟨fun _ _ => ?_, fun _ _ => .refl db⟩))
  split
  · exact Untouched.refl db
  · refine wlp_bind.2 (wlp_call.2 ⟨fun _ _ => ?_, fun _ _ => .refl db⟩)
    refine wlp_bind.2 (wlp_call.2 ⟨fun outcome _ => ?_, fun _ _ => .refl db⟩)
    cases outcome with
    | error => exact Untouched.refl db
    | ok => exact ⟨rfl, rfl⟩

end

end Database

theorem Quiet.atomically {accepts : TableLimits → Prop} {db : Database} {ε α : Type} {m : Method Database ε α}
    (h : Quiet m db) : Atomically accepts m db :=
  wlp_mono h (fun _ _ h => h.moves) fun _ _ h => h

/-! ## Calls -/

/-- A call that is one operation, with any arguments. -/
inductive LibraryCall : {ε α : Type} → Method Database ε α → Prop
  | executeStatement (queries : Queries) (io : CommitIo) (statement : Statement) :
      LibraryCall (Database.executeStatement queries io statement)
  | executeInsertBatch (float : FloatText) (io : CommitIo) (sql : String) :
      LibraryCall (Database.executeInsertBatch float io sql)
  | executeInsertStatements (io : CommitIo) (statements : List Statement) :
      LibraryCall (Database.executeInsertStatements io statements)
  | createNullableInt64Table (tableName columnName : String) (values : List (Option Int64)) :
      LibraryCall (Database.createNullableInt64Table tableName columnName values)
  | createNullableInt64TableWithLimits (tableName columnName : String) (values : List (Option Int64))
      (limits : TableLimits) : LibraryCall (Database.createNullableInt64TableWithLimits tableName columnName values limits)
  | createInt64RangePartitionedTable (tableName columnName : String) (partitions : List Int64RangePartition) :
      LibraryCall (Database.createInt64RangePartitionedTable tableName columnName partitions)
  | createInt64RangePartitionedTableWithLimits (tableName columnName : String) (partitions : List Int64RangePartition)
      (partitionLimits : Int64RangePartitionLimits) :
      LibraryCall (Database.createInt64RangePartitionedTableWithLimits tableName columnName partitions partitionLimits)
  | appendNullableInt64Values (io : CommitIo) (tableName : String) (values : List (Option Int64)) :
      LibraryCall (Database.appendNullableInt64Values io tableName values)
  | replaceNullableInt64Values (io : CommitIo) (tableName : String) (replacements : List (Nat × Option Int64)) :
      LibraryCall (Database.replaceNullableInt64Values io tableName replacements)
  | createInt64MinMaxIndex (table column : String) (limits : Int64MinMaxIndexLimits) :
      LibraryCall (Database.createInt64MinMaxIndex table column limits)
  | dropInt64MinMaxIndex (table : String) : LibraryCall (Database.dropInt64MinMaxIndex table)
  | restoreInt64TableFromFile {δ : Type} (tableName : String)
      (restored : Exec (Database.DatabaseSnapshotRestoreError δ) Int64Table) :
      LibraryCall (Database.restoreInt64TableFromFile tableName restored)
  | restoreInt64TableRleFromFile {δ : Type} (tableName : String)
      (restored : Exec (Database.DatabaseSnapshotRestoreError δ) Int64Table) :
      LibraryCall (Database.restoreInt64TableRleFromFile tableName restored)
  | restoreInt64TableFromFileWithBackup {δ : Type} (tableName : String)
      (recovered : Exec (Database.DatabaseSnapshotRestoreError δ)
        (Int64Table × Database.Int64TablePayloadFileRecoverySource)) :
      LibraryCall (Database.restoreInt64TableFromFileWithBackup tableName recovered)
  | replaceInt64TableFromFile {δ : Type} (tableName : String)
      (restored : Exec (Database.DatabaseSnapshotRestoreError δ) Int64Table) :
      LibraryCall (Database.replaceInt64TableFromFile tableName restored)
  | replaceInt64TableFromFileWithBackup {δ : Type} (tableName : String)
      (recovered : Exec (Database.DatabaseSnapshotRestoreError δ)
        (Int64Table × Database.Int64TablePayloadFileRecoverySource)) :
      LibraryCall (Database.replaceInt64TableFromFileWithBackup tableName recovered)
  | restoreInt64TablesFromFiles {δ : Type} (entries : List (Database.DatabaseSnapshotRestoreEntry δ))
      (maxEntries : Nat) : LibraryCall (Database.restoreInt64TablesFromFiles entries maxEntries)
  | ingestCsv (float : FloatText) (io : CommitIo) (table : String) (input : Bytes) (limits : CsvIngestLimits) :
      LibraryCall (Database.ingestCsv float io table input limits)
  | ingestCsvWithNames (float : FloatText) (io : CommitIo) (table : String) (input : Bytes) (limits : CsvIngestLimits) :
      LibraryCall (Database.ingestCsvWithNames float io table input limits)
  | ingestTsv (float : FloatText) (io : CommitIo) (table : String) (input : Bytes) (limits : TsvIngestLimits) :
      LibraryCall (Database.ingestTsv float io table input limits)
  | ingestTsvWithNames (float : FloatText) (io : CommitIo) (table : String) (input : Bytes) (limits : TsvIngestLimits) :
      LibraryCall (Database.ingestTsvWithNames float io table input limits)
  | ingestJsonCompactEachRow {ε : Type} (database : Error → ε) (readValues : Table → Exec ε (List Value)) (io : CommitIo)
      (table : String) : LibraryCall (Database.ingestJsonCompactEachRow database readValues io table)
  | enableInt64WriteAheadLog (io : Int64WriteAheadLog.CreateIo) (tableName : String) (limits : Int64WriteAheadLogLimits) :
      LibraryCall (Database.enableInt64WriteAheadLog io tableName limits)
  | enableInt64WriteAheadLogRegistry (io : CreateRegistryIo) (tableNames : List String)
      (limits : Int64WriteAheadLogRegistryLimits) :
      LibraryCall (Database.enableInt64WriteAheadLogRegistry io tableNames limits)
  | disableInt64WriteAheadLog : LibraryCall Database.disableInt64WriteAheadLog
  | setGlobalAggregateWorkerCap (globalAggregateWorkerCap : Nat) :
      LibraryCall (Database.setGlobalAggregateWorkerCap globalAggregateWorkerCap)

/-- **Every call is atomic.** -/
theorem LibraryCall.atomically {ε α : Type} {m : Method Database ε α} (hcall : LibraryCall m) {db : Database}
    (hsound : Sound anyLimits db.core) : Atomically anyLimits m db := by
  cases hcall with
  | executeStatement queries io statement =>
    exact atomically_read (Database.executeStatementWithLimits_atomically hsound trivial queries io statement _)
  | executeInsertBatch float io sql => exact Database.executeInsertBatch_atomically hsound float io sql
  | executeInsertStatements io statements => exact Database.executeInsertStatements_atomically hsound io statements
  | createNullableInt64Table => exact Database.createNullableInt64Table_atomically _ _ _ trivial
  | createNullableInt64TableWithLimits => exact Database.createNullableInt64TableWithLimits_atomically _ _ _ trivial
  | createInt64RangePartitionedTable => exact Database.createInt64RangePartitionedTable_atomically _ _ _
  | createInt64RangePartitionedTableWithLimits =>
    exact Database.createInt64RangePartitionedTableWithLimits_atomically _ _ _ _
  | appendNullableInt64Values => exact Database.appendNullableInt64Values_atomically hsound _ _ _
  | replaceNullableInt64Values => exact Database.replaceNullableInt64Values_atomically hsound _ _ _
  | createInt64MinMaxIndex => exact Database.createInt64MinMaxIndex_atomically hsound _ _ _
  | dropInt64MinMaxIndex => exact Database.dropInt64MinMaxIndex_atomically hsound _
  | restoreInt64TableFromFile | restoreInt64TableRleFromFile =>
    exact Database.restoreInt64TableFromFile_atomically _ _
  | restoreInt64TableFromFileWithBackup => exact Database.restoreInt64TableFromFileWithBackup_atomically _ _
  | replaceInt64TableFromFile => exact Database.replaceInt64TableFromFile_atomically _ _
  | replaceInt64TableFromFileWithBackup => exact Database.replaceInt64TableFromFileWithBackup_atomically _ _
  | restoreInt64TablesFromFiles => exact Database.restoreInt64TablesFromFiles_atomically _ _
  | ingestCsv float _ _ input limits =>
    exact Database.ingest_atomically hsound (Database.csv_prepares float input limits) _ _ _ _
  | ingestCsvWithNames float _ _ input limits =>
    exact Database.ingest_atomically hsound (Database.csvWithNames_prepares float input limits) _ _ _ _
  | ingestTsv float _ _ input limits =>
    exact Database.ingest_atomically hsound (Database.tsv_prepares float input limits) _ _ _ _
  | ingestTsvWithNames float _ _ input limits =>
    exact Database.ingest_atomically hsound (Database.tsvWithNames_prepares float input limits) _ _ _ _
  | ingestJsonCompactEachRow database readValues =>
    exact Database.ingest_atomically hsound (Database.json_prepares database readValues) _ _ _ _
  | enableInt64WriteAheadLog => exact (Database.enableInt64WriteAheadLog_quiet _ _ _).atomically
  | enableInt64WriteAheadLogRegistry => exact (Database.enableInt64WriteAheadLogRegistry_quiet _ _ _).atomically
  | disableInt64WriteAheadLog => exact ⟨.refl, rfl⟩
  | setGlobalAggregateWorkerCap => exact ⟨.refl, rfl⟩

/-! ## Recovery -/

namespace Database

theorem recoveredTable_good {bootstrap : Int64WalBootstrap} {table : Table} (h : recoveredTable bootstrap = .ok table) :
    Good anyLimits table := by
  unfold recoveredTable at h
  dsimp only at h
  split at h
  · exact good_withNullableInt64Values h trivial
  · obtain ⟨values, _, h⟩ := Exec.bind_eq_ok.1 h
    exact good_withInt64Values h trivial

theorem recoverInt64WriteAheadLog_sound {recovered : Exec Int64WriteAheadLogError Int64WalBootstrap} {db : Database}
    (h : recoverInt64WriteAheadLog recovered = .ok db) : Sound anyLimits db.core := by
  obtain ⟨bootstrap, _, h⟩ := Exec.bind_eq_ok.1 h
  obtain ⟨table, htable, h⟩ := Exec.bind_eq_ok.1 h
  obtain ⟨_, _, h⟩ := Exec.bind_eq_ok.1 h
  obtain ⟨_, h⟩ := applied_eq_ok.1 (mapError_eq_ok.1 h)
  have hmoves := (wlp_iff.1 (atomically_registerTable (recoveredTable_good (mapError_eq_ok.1 htable)))).1 _ _ h
  exact sound_new.steps hmoves.1

theorem recoveredTables_good {bootstraps : List Int64WalBootstrap} {tables : List Table}
    (h : recoveredTables bootstraps = .ok tables) : ∀ table ∈ tables, Good anyLimits table := by
  induction bootstraps generalizing tables with
  | nil =>
    obtain rfl := Exec.ok.inj h
    exact List.forall_mem_nil _
  | cons bootstrap bootstraps ih =>
    obtain ⟨table, htable, h⟩ := Exec.bind_eq_ok.1 h
    obtain ⟨rest, hrest, h⟩ := Exec.bind_eq_ok.1 h
    obtain rfl := Exec.ok.inj h
    exact List.forall_mem_cons.2 ⟨recoveredTable_good (mapError_eq_ok.1 htable), ih hrest⟩

theorem recoverInt64WriteAheadLogRegistry_sound
    {recovered : Exec Int64WriteAheadLogRegistryError (List Int64WalBootstrap)} {db : Database}
    (h : recoverInt64WriteAheadLogRegistry recovered = .ok db) : Sound anyLimits db.core := by
  obtain ⟨bootstraps, _, h⟩ := Exec.bind_eq_ok.1 h
  obtain ⟨first, _, h⟩ := Exec.bind_eq_ok.1 h
  obtain ⟨tables, htables, h⟩ := Exec.bind_eq_ok.1 h
  obtain ⟨catalog, hcatalog, h⟩ := Exec.bind_eq_ok.1 h
  obtain rfl := Exec.ok.inj h
  obtain ⟨_, hregister⟩ := applied_eq_ok.1 (mapError_eq_ok.1 hcatalog)
  exact sound_new.steps (registerTables_steps .zero (recoveredTables_good htables) hregister)

/-! ## Scripts -/

def ReturnsCommand (m : Method Database Error StatementResult) : Prop :=
  ∀ db result db', m db = some (.ok result, db') → result.estimatedRetainedBytes = 0

theorem returnsCommand_pure (tag : String) (affectedRows : Nat) :
    ReturnsCommand (pure (.command tag affectedRows)) := by
  intro _ _ _ h
  rw [← (pure_eq_ok.1 h).1]
  rfl

theorem ReturnsCommand.behind {β : Type} {m : Method Database Error β} {f : β → Method Database Error StatementResult}
    (h : ∀ b, ReturnsCommand (f b)) : ReturnsCommand (m >>= f) := by
  intro db result db' hrun
  obtain ⟨b, db₁, _, hrest⟩ := bind_eq_ok.1 hrun
  exact h b db₁ result db' hrest

theorem executeAddColumnStatement_command (table : String) (column : ColumnDef) :
    ReturnsCommand (executeAddColumnStatement table column) :=
  .behind fun _ => .behind fun _ => .behind fun _ => .behind fun _ => .behind fun _ => returnsCommand_pure _ _

theorem executeAddNullableInt64ColumnStatement_command (table column : String) :
    ReturnsCommand (executeAddNullableInt64ColumnStatement table column) :=
  .behind fun _ => .behind fun _ => .behind fun _ => .behind fun _ => .behind fun _ => returnsCommand_pure _ _

theorem executeUnlessColumnExists_command (table column : String) {add : Method Database Error StatementResult}
    (hadd : ReturnsCommand add) : ReturnsCommand (executeUnlessColumnExists table column add) := by
  refine .behind fun _ => .behind fun existing => ?_
  split
  · exact returnsCommand_pure _ _
  · exact hadd

theorem executeInsertStatement_command (io : CommitIo) (table : String) (columns : Option (List String))
    (rows : List (List Value)) : ReturnsCommand (executeInsertStatement io table columns rows) :=
  .behind fun _ => .behind fun _ => .behind fun _ => .behind fun _ => .behind fun _ => returnsCommand_pure _ _

theorem executeDeleteStatement_command (table : String) (predicate : Predicate) (limits : QueryResultLimits) :
    ReturnsCommand (executeDeleteStatement table predicate limits) :=
  .behind fun _ => .behind fun _ => .behind fun _ => .behind fun _ => .behind fun _ => .behind fun _ =>
    .behind fun _ => .behind fun _ => returnsCommand_pure _ _

theorem executeAlterUpdateStatement_command (io : CommitIo) (table targetColumn : String) (value : AlterUpdateValue)
    (predicateColumn : String) (predicateValue : AlterUpdateValue) (limits : QueryResultLimits) :
    ReturnsCommand (executeAlterUpdateStatement io table targetColumn value predicateColumn predicateValue limits) :=
  .behind fun _ => .behind fun _ => .behind fun _ => .behind fun _ => .behind fun _ => .behind fun _ =>
    returnsCommand_pure _ _

theorem executeDropIfExistsStatement_command (name : String) : ReturnsCommand (executeDropIfExistsStatement name) := by
  refine .behind fun _ => .behind fun _ => .behind fun dropped => ?_
  cases dropped with
  | false => exact returnsCommand_pure _ _
  | true => exact .behind fun _ => .behind fun _ => returnsCommand_pure _ _

theorem executeCreateIfNotExistsStatement_command (name : String) (columns : List ColumnDef) :
    ReturnsCommand (executeCreateIfNotExistsStatement name columns) := by
  refine .behind fun _ => .behind fun created => ?_
  cases created with
  | false => exact returnsCommand_pure _ _
  | true => exact .behind fun _ => returnsCommand_pure _ _

theorem executeCreateNullableIfNotExistsStatement_command (name column : String) :
    ReturnsCommand (executeCreateNullableIfNotExistsStatement name column) := by
  refine .behind fun db => ?_
  cases db.catalog.tableExists name with
  | false => exact .behind fun _ => returnsCommand_pure _ _
  | true => exact returnsCommand_pure _ _

theorem untouched_of_result {queries : Queries} {io : CommitIo} {statement : Statement} {limits : QueryResultLimits}
    {db db' : Database} {result : StatementResult}
    (h : executeStatementWithLimits queries io statement limits db = some (.ok result, db'))
    (hresult : result.estimatedRetainedBytes ≠ 0) : db' = db := by
  have hcommand : ∀ {m : Method Database Error StatementResult}, ReturnsCommand m → m db = some (.ok result, db') →
      db' = db := fun hm hrun => absurd (hm db result db' hrun) hresult
  obtain ⟨_, _, hread, h⟩ := bind_eq_ok.1 h
  obtain ⟨rfl, rfl⟩ := read_eq_ok.1 hread
  cases statement with
  | createTable => exact hcommand (.behind fun _ => .behind fun _ => .behind fun _ => returnsCommand_pure _ _) h
  | createTableIfNotExists => exact hcommand (executeCreateIfNotExistsStatement_command _ _) h
  | createNullableInt64Table => exact hcommand (.behind fun _ => returnsCommand_pure _ _) h
  | createNullableInt64TableIfNotExists => exact hcommand (executeCreateNullableIfNotExistsStatement_command _ _) h
  | createTableWithTrailingNullableInt64 | createTableWithTrailingNullableInt64IfNotExists
  | createTableWithTwoTrailingNullableInt64 | createTableWithTwoTrailingNullableInt64IfNotExists =>
    exact hcommand (.behind fun _ => returnsCommand_pure _ _) h
  | dropTable =>
    exact hcommand (.behind fun _ => .behind fun _ => .behind fun _ => .behind fun _ => .behind fun _ =>
      returnsCommand_pure _ _) h
  | dropTableIfExists => exact hcommand (executeDropIfExistsStatement_command _) h
  | renameTable | renameColumn | dropColumn =>
    exact hcommand (.behind fun _ => .behind fun _ => .behind fun _ => returnsCommand_pure _ _) h
  | addColumn => exact hcommand (executeAddColumnStatement_command _ _) h
  | addColumnIfNotExists =>
    exact hcommand (executeUnlessColumnExists_command _ _ (executeAddColumnStatement_command _ _)) h
  | addNullableInt64Column => exact hcommand (executeAddNullableInt64ColumnStatement_command _ _) h
  | addNullableInt64ColumnIfNotExists =>
    exact hcommand (executeUnlessColumnExists_command _ _ (executeAddNullableInt64ColumnStatement_command _ _)) h
  | alterUpdate | alterUpdateTyped | alterUpdateOwned =>
    exact hcommand (executeAlterUpdateStatement_command _ _ _ _ _ _ _) h
  | truncateTable =>
    exact hcommand (.behind fun _ => .behind fun _ => .behind fun _ => .behind fun _ => returnsCommand_pure _ _) h
  | delete | deleteComparison | deleteConjunction | deleteNullness =>
    exact hcommand (executeDeleteStatement_command _ _ _) h
  | insert | insertWithColumns => exact hcommand (executeInsertStatement_command _ _ _ _) h
  | _ =>
    obtain ⟨_, _, hquery, h⟩ := bind_eq_ok.1 h
    rw [← (pure_eq_ok.1 h).2, (call_eq_ok.1 hquery).2]

section
variable {accepts : TableLimits → Prop} {db db' : Database} {queries : Queries} {io : Nat → CommitIo}
  {maxResultBytes index retainedBytes : Nat} {statements : List Statement}

/-- The first statement of a script that succeeds, and the others. -/
theorem executeStatementsFrom_cons {statement : Statement} {results : List StatementResult}
    (h : executeStatementsFrom queries io maxResultBytes index retainedBytes (statement :: statements) db =
      some (.ok results, db')) :
    ∃ limits result rest db₁, executeStatementWithLimits queries (io index) statement limits db = some (.ok result, db₁) ∧
      executeStatementsFrom queries io maxResultBytes (index + 1)
        (saturatingAdd retainedBytes result.estimatedRetainedBytes) statements db₁ = some (.ok rest, db') := by
  obtain ⟨_, _, hread, h⟩ := bind_eq_ok.1 h
  obtain ⟨rfl, rfl⟩ := read_eq_ok.1 hread
  obtain ⟨result, db₁, hstatement, h⟩ := bind_eq_ok.1 h
  obtain ⟨_, _, hcheck, h⟩ := bind_eq_ok.1 h
  obtain ⟨_, rfl⟩ := call_eq_ok.1 hcheck
  obtain ⟨rest, _, hrest, h⟩ := bind_eq_ok.1 h
  obtain ⟨_, rfl⟩ := pure_eq_ok.1 h
  exact ⟨_, result, rest, db₁, Method.mapError_eq_ok.1 hstatement, hrest⟩

theorem executeStatementsFrom_moves {results : List StatementResult} (hsound : Sound accepts db.core)
    (hlimits : accepts db.tableLimits)
    (h : executeStatementsFrom queries io maxResultBytes index retainedBytes statements db = some (.ok results, db')) :
    Moves accepts db db' := by
  induction statements generalizing index retainedBytes results db with
  | nil =>
    obtain rfl := (pure_eq_ok.1 h).2
    exact (Untouched.refl db).moves
  | cons statement statements ih =>
    obtain ⟨limits, result, rest, db₁, hstatement, hrest⟩ := executeStatementsFrom_cons h
    have hmoves := (wlp_iff.1 (executeStatementWithLimits_atomically hsound hlimits queries (io index) statement
      limits)).1 _ _ hstatement
    exact hmoves.trans (ih (hsound.steps hmoves.1) (hmoves.2 ▸ hlimits) hrest)

/-- **A script that fails** leaves behind what the statements before the failing one did. -/
theorem executeStatementsFrom_error {e : Error} (hsound : Sound accepts db.core) (hlimits : accepts db.tableLimits)
    (hretained : retainedBytes ≤ maxResultBytes)
    (h : executeStatementsFrom queries io maxResultBytes index retainedBytes statements db = some (.error e, db')) :
    ∃ before failed rest results db₁, statements = before ++ failed :: rest ∧
      executeStatementsFrom queries io maxResultBytes index retainedBytes before db = some (.ok results, db₁) ∧
      Untouched db₁ db' := by
  induction statements generalizing index retainedBytes db with
  | nil => exact absurd h pure_ne_error
  | cons statement statements ih =>
    rcases bind_eq_error.1 h with hread | ⟨_, _, hread, h⟩
    · exact absurd hread read_ne_error
    obtain ⟨rfl, rfl⟩ := read_eq_ok.1 hread
    have hatomic := fun limits => wlp_iff.1 (executeStatementWithLimits_atomically hsound hlimits queries (io index)
      statement limits)
    rcases bind_eq_error.1 h with hfailed | ⟨result, db₁, hstatement, h⟩
    · obtain ⟨e', hfailed, _⟩ := Method.mapError_eq_error.1 hfailed
      exact ⟨[], statement, statements, [], db, rfl, rfl, (hatomic _).2 _ _ hfailed⟩
    have hstatement' := Method.mapError_eq_ok.1 hstatement
    rcases bind_eq_error.1 h with hfailed | ⟨_, _, hcheck, h⟩
    · -- Only a query makes the results too large.
      obtain ⟨hexceeded, rfl⟩ := call_eq_error.1 hfailed
      have hlarge : saturatingAdd retainedBytes result.estimatedRetainedBytes > maxResultBytes :=
        (rejectIf_eq_error.1 hexceeded).1
      have hresult : result.estimatedRetainedBytes ≠ 0 := by
        intro hzero
        rw [hzero, saturatingAdd] at hlarge
        omega
      obtain rfl := untouched_of_result hstatement' hresult
      exact ⟨[], statement, statements, [], _, rfl, rfl, .refl _⟩
    · obtain ⟨hcheck', rfl⟩ := call_eq_ok.1 hcheck
      rcases bind_eq_error.1 h with hfailed | ⟨_, _, _, h⟩
      · have hmoves := (hatomic _).1 _ _ hstatement'
        obtain ⟨before, failed, rest, results, db₂, rfl, hbefore, hrest⟩ :=
          ih (hsound.steps hmoves.1) (hmoves.2 ▸ hlimits) (Nat.le_of_not_gt (rejectIf_eq_ok.1 hcheck')) hfailed
        refine ⟨statement :: before, failed, rest, result :: results, db₂, rfl, ?_, hrest⟩
        refine bind_eq_ok.2 ⟨db, db, read_eq_ok.2 ⟨rfl, rfl⟩, bind_eq_ok.2 ⟨result, db₁, hstatement, ?_⟩⟩
        exact bind_eq_ok.2 ⟨(), db₁, hcheck, bind_eq_ok.2 ⟨results, db₂, hbefore, pure_eq_ok.2 ⟨rfl, rfl⟩⟩⟩
      · exact absurd h pure_ne_error

theorem executeStatementsFrom_steps {outcome : Except Error (List StatementResult)} (hsound : Sound accepts db.core)
    (hlimits : accepts db.tableLimits)
    (h : executeStatementsWithResultLimit queries io statements maxResultBytes db = some (outcome, db')) :
    Moves accepts db db' := by
  cases outcome with
  | ok results => exact executeStatementsFrom_moves hsound hlimits h
  | error e =>
    obtain ⟨_, _, _, _, _, _, hbefore, huntouched⟩ := executeStatementsFrom_error hsound hlimits (Nat.zero_le _) h
    exact (executeStatementsFrom_moves hsound hlimits hbefore).trans huntouched.moves

theorem executeWithResultLimit_steps {float : FloatText} {sql : String}
    {outcome : Except Error (List StatementResult)} (hsound : Sound accepts db.core) (hlimits : accepts db.tableLimits)
    (h : executeWithResultLimit queries float io sql maxResultBytes db = some (outcome, db')) : Moves accepts db db' := by
  cases outcome with
  | ok results =>
    obtain ⟨statements, _, hparse, h⟩ := bind_eq_ok.1 h
    obtain ⟨_, rfl⟩ := call_eq_ok.1 hparse
    exact executeStatementsFrom_steps hsound hlimits h
  | error e =>
    rcases bind_eq_error.1 h with hparse | ⟨statements, _, hparse, h⟩
    · rw [(call_eq_error.1 hparse).2]
      exact (Untouched.refl _).moves
    · obtain ⟨_, rfl⟩ := call_eq_ok.1 hparse
      exact executeStatementsFrom_steps hsound hlimits h

end

/-! ## Reachable databases -/

inductive Reachable : Database → Prop
  | new : Reachable .new
  | withQueryResultLimits (limits : QueryResultLimits) : Reachable (.withQueryResultLimits limits)
  | withGlobalAggregateWorkerCap (cap : Nat) : Reachable (.withGlobalAggregateWorkerCap cap)
  | withMaxRowsPerTable (maxRows : Nat) : Reachable (.withMaxRowsPerTable maxRows)
  | withTableLimits (limits : TableLimits) : Reachable (.withTableLimits limits)
  | recovered {recovered : Exec Int64WriteAheadLogError Int64WalBootstrap} {db : Database} :
      recoverInt64WriteAheadLog recovered = .ok db → Reachable db
  | recoveredRegistry {recovered : Exec Int64WriteAheadLogRegistryError (List Int64WalBootstrap)} {db : Database} :
      recoverInt64WriteAheadLogRegistry recovered = .ok db → Reachable db
  | called {db db' : Database} {ε α : Type} {m : Method Database ε α} {outcome : Except ε α} :
      Reachable db → LibraryCall m → m db = some (outcome, db') → Reachable db'
  | script {db db' : Database} {queries : Queries} {float : FloatText} {io : Nat → CommitIo} {sql : String}
      {maxResultBytes : Nat} {outcome : Except Error (List StatementResult)} :
      Reachable db → executeWithResultLimit queries float io sql maxResultBytes db = some (outcome, db') → Reachable db'
  | statements {db db' : Database} {queries : Queries} {io : Nat → CommitIo} {statements : List Statement}
      {maxResultBytes : Nat} {outcome : Except Error (List StatementResult)} : Reachable db →
      executeStatementsWithResultLimit queries io statements maxResultBytes db = some (outcome, db') → Reachable db'

theorem Reachable.sound {db : Database} (h : Reachable db) : Sound anyLimits db.core := by
  induction h with
  | new => exact sound_new
  | withQueryResultLimits => exact sound_new
  | withGlobalAggregateWorkerCap => exact sound_new
  | withMaxRowsPerTable => exact sound_new
  | withTableLimits => exact sound_new
  | recovered hrecovered => exact recoverInt64WriteAheadLog_sound hrecovered
  | recoveredRegistry hrecovered => exact recoverInt64WriteAheadLogRegistry_sound hrecovered
  | called _ hcall hrun ih => exact ih.steps ((hcall.atomically ih).steps hrun).1
  | script _ hrun ih => exact ih.steps (executeWithResultLimit_steps ih trivial hrun).1
  | statements _ hrun ih => exact ih.steps (executeStatementsFrom_steps ih trivial hrun).1

/-! ## Exact measurements -/

theorem foldl_add (total : Nat) (values : List Nat) : values.foldl (· + ·) total = total + values.sum := by
  induction values generalizing total with
  | nil => rfl
  | cons value values ih => rw [List.foldl_cons, ih, List.sum_cons, Nat.add_assoc]

/-- **The totals that are kept are those of the tables**, in every database that is reached; what
each table counts is what its columns hold. -/
theorem measurements_exact {db : Database} (h : Reachable db) :
    db.retainedMetrics =
        (db.catalog.tableCount, db.catalog.columnCount, db.catalog.retainedRowCount, db.catalog.retainedValueBytes) ∧
      db.measurements = .ofTables db.catalog.tables ∧
      ∀ key table, db.catalog.tables.lookup key = some table →
        table.columns.length = table.schema.length ∧ (∀ column ∈ table.columns, column.len = table.rowCount) ∧
          table.retainedValueBytes = (table.columns.map Column.retainedValueBytesExact).sum := by
  have hmeasured : db.measurements = .ofTables db.catalog.tables := h.sound.measured
  refine ⟨?_, hmeasured, fun key table hlookup => ?_⟩
  · simp only [retainedMetrics, hmeasured, DatabaseMeasurements.ofTables, Catalog.columnCount, Catalog.retainedRowCount,
      Catalog.retainedValueBytes, Checked.foldl_saturatingAdd_zero, foldl_add, Nat.zero_add]
    rfl
  · obtain ⟨declared, hconsistent, _⟩ := h.sound.good key table hlookup
    refine ⟨hconsistent.columns_length, fun column hcolumn => ?_, hconsistent.retained⟩
    obtain ⟨i, hi⟩ := List.mem_iff_getElem?.1 hcolumn
    obtain ⟨hlt, _⟩ := List.getElem?_eq_some_iff.1 hi
    have hdeclared : i < declared.length := by rw [hconsistent.fits.length_eq]; exact hlt
    obtain ⟨column', hcolumn', _, hlen⟩ := hconsistent.column_of_declared (List.getElem?_eq_getElem hdeclared)
    obtain rfl := Option.some.inj (hi.symm.trans hcolumn')
    exact hlen

/-- Queries that are never asked. -/
def noQueries : Queries := fun _ _ _ => .panic

/-- A script with a statement that fails. -/
def sampleScript : String :=
  "CREATE TABLE t (x Int64); INSERT INTO t VALUES (1); DROP TABLE u"

def runSample : Method Database Error (List StatementResult) :=
  execute noQueries sampleFloatText (fun _ => .success) sampleScript

theorem runSample_outcome : (runSample .new).map (fun outcome => (outcome.1.toBool, outcome.2.retainedMetrics)) =
    some (false, 1, 1, 1, 8) := by
  decide +kernel

/-- Statements on two tables, the last of which fails. -/
def sampleStatements : List Statement :=
  [.createTable "t" [⟨"x", .int64⟩], .insert "t" [[.int64 1]],
    .createTable "items" [⟨"id", .int64⟩, ⟨"name", .string⟩, ⟨"size", .int64⟩],
    .insert "items" [[.int64 1, .string "a", .int64 10], [.int64 2, .string "bc", .int64 20],
      [.int64 3, .string "def", .int64 30], [.int64 2, .string "g", .int64 40]],
    .addNullableInt64Column "items" "seen", .insert "ITEMS" [[.int64 4, .string "", .int64 50, .int64 7]],
    .alterUpdateOwned "items" "name" (.string "longer") "id" (.literal (.int64 1)),
    .deleteComparison "items" "id" .greater (.int64 3), .dropTable "u"]

def runStatements : Method Database Error (List StatementResult) :=
  executeStatementsWithResultLimit noQueries (fun _ => .success) sampleStatements defaultMaxRetainedResultBytes

theorem runStatements_outcome : (runStatements .new).map (fun outcome =>
    (outcome.1.toBool, outcome.2.retainedMetrics, (outcome.2.catalog.tables.lookup "items").map Table.retainedValueBytes)) =
    some (false, (2, 5, 5, 120), some 112) := by
  decide +kernel

/-- A failed script leaves the totals of what it did: rows inserted and deleted, a column added and texts that grew. -/
theorem measurements_exact_sample : ∃ outcome db table, runStatements .new = some (outcome, db) ∧
    db.catalog.tableCount = 2 ∧ db.catalog.columnCount = 5 ∧ db.catalog.retainedRowCount = 5 ∧
    db.catalog.retainedValueBytes = 120 ∧ db.catalog.tables.lookup "items" = some table ∧
    (table.columns.map Column.retainedValueBytesExact).sum = 112 ∧ ∀ column ∈ table.columns, column.len = table.rowCount := by
  obtain ⟨⟨outcome, db⟩, hrun, hvalues⟩ := Option.map_eq_some_iff.1 runStatements_outcome
  obtain ⟨-, hvalues⟩ := Prod.mk.inj hvalues
  obtain ⟨hvalues, htable⟩ := Prod.mk.inj hvalues
  obtain ⟨table, hlookup, htable⟩ := Option.map_eq_some_iff.1 htable
  obtain ⟨hmetrics, -, htables⟩ := measurements_exact (.statements .new hrun)
  obtain ⟨-, hlengths, hbytes⟩ := htables "items" table hlookup
  rw [hvalues] at hmetrics
  simp only [Prod.mk.injEq] at hmetrics
  exact ⟨outcome, db, table, hrun, hmetrics.1.symm, hmetrics.2.1.symm, hmetrics.2.2.1.symm, hmetrics.2.2.2.symm, hlookup,
    hbytes.symm.trans htable, hlengths⟩

/-! ## Failures -/

/-- The tables, with their indexes, and the totals are exactly as before. -/
def SameData (db db' : Database) : Prop := db'.catalog = db.catalog ∧ db'.measurements = db.measurements

theorem sameData_of_untouched {db db' : Database} (h : Untouched db db') : SameData db db' := Prod.mk.inj h.1

/-- **Failures leave no trace.** A call that fails leaves all tables and totals as they were; a
script that fails leaves them as the statements before the failing one did; and what a batch of
`INSERT`s prepared is applied without a failure. -/
theorem failures_leave_no_trace {db : Database} (h : Reachable db) :
    (∀ {ε α : Type} {m : Method Database ε α} (e : ε) (db' : Database), LibraryCall m →
      m db = some (.error e, db') → SameData db db') ∧
    (∀ queries float io sql maxResultBytes e db',
      executeWithResultLimit queries float io sql maxResultBytes db = some (.error e, db') →
        (parse float sql = .error e ∧ db' = db) ∨
        ∃ before failed rest results db₁, parse float sql = .ok (before ++ failed :: rest) ∧
          executeStatementsWithResultLimit queries io before maxResultBytes db = some (.ok results, db₁) ∧
          SameData db₁ db') ∧
    (∀ io statements prepared db₁, prepareInsertStatements db.catalog ∅ statements = .ok prepared →
      logInsertStatements io prepared db = some (.ok (), db₁) →
        ∃ results db', applyInsertStatements prepared db₁ = some (.ok results, db')) := by
  refine ⟨fun e db' hcall hrun => ?_, fun queries float io sql maxResultBytes e db' hrun => ?_,
    fun io statements prepared db₁ hprepared hlogged => ?_⟩
  · exact sameData_of_untouched ((wlp_iff.1 (hcall.atomically h.sound)).2 _ _ hrun)
  · rcases bind_eq_error.1 hrun with hparse | ⟨statements, _, hparse, hrun⟩
    · obtain ⟨hrejected, rfl⟩ := call_eq_error.1 hparse
      exact .inl ⟨hrejected, rfl⟩
    · obtain ⟨hparsed, rfl⟩ := call_eq_ok.1 hparse
      obtain ⟨before, failed, rest, results, db₁, rfl, hbefore, huntouched⟩ :=
        executeStatementsFrom_error h.sound trivial (Nat.zero_le _) hrun
      exact .inr ⟨before, failed, rest, results, db₁, hparsed, hbefore, sameData_of_untouched huntouched⟩
  · have huntouched := (wlp_iff.1 (quiet_logInsertStatements io prepared)).1 _ _ hlogged
    have hready : Ready anyLimits db₁.catalog.found prepared := by
      rw [(sameData_of_untouched huntouched).1]
      exact ready_of_prepared h.sound.good hprepared
    obtain ⟨happlied, _, hfails⟩ := wp_iff.1 (applyInsertStatements_wp hready)
    obtain ⟨outcome, houtcome⟩ := Option.ne_none_iff_exists'.1 happlied
    obtain ⟨result, db'⟩ := outcome
    cases result with
    | ok results => exact ⟨results, db', houtcome⟩
    | error e => exact (hfails e db' houtcome).elim

/-- A batch whose second statement has a row of the wrong type. -/
def insertSample : Method Database Error (List StatementResult) :=
  executeInsertBatch sampleFloatText .success "INSERT INTO t VALUES (2); INSERT INTO t VALUES ('')"

theorem insertSample_outcome : ((runSample .new).bind fun outcome => insertSample outcome.2).map
    (fun outcome => outcome.1.toBool) = some false := by
  decide +kernel

theorem failures_leave_no_trace_sample : ∃ outcome db e db', runSample .new = some (outcome, db) ∧
    insertSample db = some (.error e, db') ∧ SameData db db' := by
  obtain ⟨⟨result, db'⟩, hruns, hfailed⟩ := Option.map_eq_some_iff.1 insertSample_outcome
  obtain ⟨⟨outcome, db⟩, hrun, hinsert⟩ := Option.bind_eq_some_iff.1 hruns
  cases result with
  | ok results => cases hfailed
  | error e =>
    exact ⟨outcome, db, e, db', hrun, hinsert, (failures_leave_no_trace (.script .new hrun)).1 e db'
      (.executeInsertBatch sampleFloatText .success _) hinsert⟩

/-- A script that fails keeps what its first statements did. -/
theorem failed_script_leaves_table : ∃ db e db', Reachable db ∧ runSample db = some (.error e, db') ∧
    db'.catalog ≠ db.catalog := by
  obtain ⟨⟨result, db'⟩, hrun, hvalues⟩ := Option.map_eq_some_iff.1 runSample_outcome
  cases result with
  | ok results => cases congrArg Prod.fst hvalues
  | error e =>
    refine ⟨.new, e, db', .new, hrun, fun hsame => ?_⟩
    have hcount : db'.catalog.tableCount = 1 := congrArg (fun values => values.2.1) hvalues
    rw [hsame] at hcount
    cases hcount

end Database

end RustHouse.Batch
