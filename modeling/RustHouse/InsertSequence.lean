import RustHouse.DatabaseRuns
import RustHouse.InsertBatchSound
import RustHouse.TableRows

/-!
# A batch of INSERT and its statements in turn

A batch prepares every statement for the tables that it starts with, and counts
the rows of the statements before it. In turn, a statement meets tables that
have those rows already. A table that has grown by as many rows as were counted
takes the same input, so that both ways end in one database.
-/

namespace RustHouse.Batch

open Exec Words KeyedTotals Method

namespace Table

/-! ## Tables that differ in their rows only -/

structure Alike (t t' : Table) : Prop where
  name : t'.name = t.name
  schema : t'.schema = t.schema
  limits : t'.limits = t.limits
  nullable : t'.columns.map Column.isNullableInt64 = t.columns.map Column.isNullableInt64

section
variable {declared : List Declared} {t t' : Table}

theorem Alike.refl (t : Table) : Alike t t := ⟨rfl, rfl, rfl, rfl⟩

theorem Alike.trans {t'' : Table} (h : Alike t t') (h' : Alike t' t'') : Alike t t'' :=
  ⟨h'.name.trans h.name, h'.schema.trans h.schema, h'.limits.trans h.limits, h'.nullable.trans h.nullable⟩

theorem Consistent.alike (h : Consistent declared t) (h' : Consistent declared t') (hidentity : t'.identity = t.identity) :
    Alike t t' := by
  obtain ⟨hname, hlimits⟩ := Prod.mk.inj hidentity
  exact ⟨hname, h'.schema.trans h.schema.symm, hlimits, h'.nullable.trans h.nullable.symm⟩

/-! ## What is checked of the input -/

theorem validateValue_alike (h : Alike t t') : t'.validateValue = t.validateValue := by
  funext column field value
  cases value with
  | null dataType =>
    have hnullable : (t'.columns[column]?).map Column.isNullableInt64 = (t.columns[column]?).map Column.isNullableInt64 := by
      rw [← List.getElem?_map, ← List.getElem?_map, h.nullable]
    rw [validateValue, validateValue, h.name]
    cases hcolumn : t.columns[column]? with
    | none =>
      rw [hcolumn, Option.map_none, Option.map_eq_none_iff] at hnullable
      rw [hnullable]
    | some physical =>
      rw [hcolumn, Option.map_some, Option.map_eq_some_iff] at hnullable
      obtain ⟨physical', hcolumn', hsame⟩ := hnullable
      rw [hcolumn', orPanic_some, orPanic_some, Exec.ok_bind, Exec.ok_bind, hsame]
  | int64 _ => rw [validateValue, validateValue, h.name] <;> simp
  | float64 number => rw [validateValue, validateValue, h.name]
  | bool _ => rw [validateValue, validateValue, h.name] <;> simp
  | string _ => rw [validateValue, validateValue, h.name] <;> simp

theorem validateValues_alike (h : Alike t t') (column : Nat) (schema : List ColumnDef) (row : List Value) :
    t'.validateValues column schema row = t.validateValues column schema row := by
  induction schema generalizing column row with
  | nil => rfl
  | cons field schema ih =>
    cases row with
    | nil => rfl
    | cons value row => rw [validateValues, validateValues, validateValue_alike h, ih]

theorem validateRow_alike (h : Alike t t') : t'.validateRow = t.validateRow := by
  funext row
  rw [validateRow, validateRow, h.name, h.schema, validateValues_alike h]

theorem validateProjected_alike (h : Alike t t') (row : List Value) (column : Nat) (schema : List ColumnDef)
    (indexes : List (Option Nat)) :
    t'.validateProjected row column schema indexes = t.validateProjected row column schema indexes := by
  induction schema generalizing column indexes with
  | nil => rfl
  | cons field schema ih =>
    cases indexes with
    | nil => rfl
    | cons input indexes =>
      cases input with
      | none => exact ih (column + 1) indexes
      | some inputIndex =>
        simp only [validateProjected, validateValue_alike h, ih]

theorem resolveInsertColumns_alike (h : Alike t t') (schemaIndexes : List Nat) (names : List String) :
    t'.resolveInsertColumns schemaIndexes names = t.resolveInsertColumns schemaIndexes names := by
  induction names generalizing schemaIndexes with
  | nil => rfl
  | cons name names ih =>
    simp only [resolveInsertColumns, schemaIndexesByName, h.name, h.schema, ih]

/-- **Tables that are alike take the same input** wherever they have room for it. -/
theorem prepareInsertRows_alike (h : Alike t t') {capacity capacity' : Nat}
    (hcapacity : t'.validateRowCapacity capacity' = .ok () ↔ t.validateRowCapacity capacity = .ok ())
    (columns : Option (List String)) (rows : List (List Value)) (prepared : PreparedInsertRows) :
    t'.prepareInsertRows columns rows capacity' = .ok prepared ↔ t.prepareInsertRows columns rows capacity = .ok prepared := by
  cases columns with
  | none =>
    simp only [prepareInsertRows, validateRow_alike h, Exec.bind_eq_ok]
    exact exists_congr fun _ => and_congr_left fun _ => hcapacity
  | some columns =>
    simp only [prepareInsertRows]
    by_cases hcolumns : columns = []
    · rw [if_pos hcolumns, if_pos hcolumns, h.schema, h.name]
    · rw [if_neg hcolumns, if_neg hcolumns, h.name, resolveInsertColumns_alike h]
      simp only [prepareProjectedRowsWithCapacity, h.name, h.schema, validateProjected_alike h, Exec.bind_eq_ok]
      refine exists_congr fun _ => and_congr_right fun _ => exists_congr fun _ => and_congr_right fun _ => ?_
      refine exists_congr fun _ => and_congr_right fun _ => exists_congr fun _ => and_congr_right fun _ => ?_
      exact exists_congr fun _ => and_congr_left fun _ => hcapacity

/-! ## Rows that are counted -/

theorem appendValidatedRow_rowCount {row : List Value} {u : Unit} (hrun : appendValidatedRow row t = some (.ok u, t')) :
    t'.rowCount = t.rowCount + 1 := by
  simp only [appendValidatedRow, bind_eq_ok, read_eq_ok, call_eq_ok, write_eq_ok] at hrun
  obtain ⟨_, _, ⟨rfl, rfl⟩, _, _, ⟨_, rfl⟩, rfl⟩ := hrun
  rfl

theorem appendEach_rowCount {rows : List (List Value)} {u : Unit} (hrun : appendEach rows t = some (.ok u, t')) :
    t'.rowCount = t.rowCount + rows.length := by
  induction rows generalizing t with
  | nil => rw [← (pure_eq_ok.1 hrun).2]; rfl
  | cons row rows ih =>
    obtain ⟨_, t₁, hrow, hrows⟩ := bind_eq_ok.1 hrun
    rw [ih hrows, appendValidatedRow_rowCount hrow, List.length_cons, Nat.add_assoc, Nat.add_comm 1]

theorem appendDefaulted_rowCount {schemaIndexes : List Nat} {rows : List (List Value)} {u : Unit}
    (hrun : appendDefaulted schemaIndexes rows t = some (.ok u, t')) : t'.rowCount = t.rowCount + rows.length := by
  induction rows generalizing t with
  | nil => rw [← (pure_eq_ok.1 hrun).2]; rfl
  | cons source rows ih =>
    simp only [appendDefaulted, bind_eq_ok, read_eq_ok, call_eq_ok] at hrun
    obtain ⟨_, _, ⟨rfl, rfl⟩, _, _, ⟨_, rfl⟩, _, t₁, hrow, hrows⟩ := hrun
    rw [ih hrows, appendValidatedRow_rowCount hrow, List.length_cons, Nat.add_assoc, Nat.add_comm 1]

theorem markIf_rowCount {changed : Prop} [Decidable changed] {u : Unit}
    (hrun : (if changed then markValuesMutated else pure ()) t = some (.ok u, t')) : t'.rowCount = t.rowCount := by
  split at hrun
  · exact (markValuesMutated_contents hrun).2.2
  · rw [(pure_eq_ok.1 hrun).2]

theorem appendPreparedInsertRows_rowCount {prepared : PreparedInsertRows} {u : Unit}
    (hrun : appendPreparedInsertRows prepared t = some (.ok u, t')) : t'.rowCount = t.rowCount + prepared.rows.length := by
  unfold appendPreparedInsertRows at hrun
  cases hindexes : prepared.schemaIndexes with
  | none =>
    rw [hindexes] at hrun
    obtain ⟨_, t₁, hrows, hmark⟩ := bind_eq_ok.1 hrun
    rw [markIf_rowCount hmark, appendEach_rowCount hrows]
  | some schemaIndexes =>
    rw [hindexes] at hrun
    obtain ⟨_, t₁, hrows, hmark⟩ := bind_eq_ok.1 hrun
    rw [markIf_rowCount hmark, appendDefaulted_rowCount hrows]

/-! ## A table that has grown -/

/-- A consistent table that has got so many rows since. -/
structure Grown (earlier : Nat) (t t' : Table) : Prop where
  consistent : ∃ declared, Consistent declared t ∧ Consistent declared t'
  identity : t'.identity = t.identity
  rowCount : t'.rowCount = t.rowCount + earlier

theorem Grown.refl (h : Consistent declared t) : Grown 0 t t := ⟨⟨declared, h, h⟩, rfl, rfl⟩

theorem validateRowCapacity_iff {rows : Nat} (h : Consistent declared t) :
    t.validateRowCapacity rows = .ok () ↔ HasRoom t rows :=
  ⟨validateRowCapacity_eq_ok h.nonempty h.maxRows, validateRowCapacity_of_hasRoom⟩

/-- **Room is counted alike**: behind the earlier rows, or with them. -/
theorem Grown.prepareInsertRows {earlier : Nat} (h : Grown earlier t t') (columns : Option (List String))
    (rows : List (List Value)) (prepared : PreparedInsertRows) :
    t'.prepareInsertRows columns rows rows.length = .ok prepared ↔
      t.prepareInsertRows columns rows (earlier + rows.length) = .ok prepared := by
  obtain ⟨declared, hconsistent, hconsistent'⟩ := h.consistent
  have halike := hconsistent.alike hconsistent' h.identity
  refine prepareInsertRows_alike halike ?_ columns rows prepared
  rw [validateRowCapacity_iff hconsistent, validateRowCapacity_iff hconsistent']
  have hrows : t'.rowCount + rows.length = t.rowCount + (earlier + rows.length) := by rw [h.rowCount, Nat.add_assoc]
  constructor
  · intro ⟨hfit, hcells⟩
    exact ⟨by rwa [← hrows, ← halike.limits], by rwa [← hrows, ← halike.limits, ← halike.schema]⟩
  · intro ⟨hfit, hcells⟩
    exact ⟨by rwa [hrows, halike.limits], by rwa [hrows, halike.limits, halike.schema]⟩

theorem Grown.append {earlier : Nat} (h : Grown earlier t t') {columns : Option (List String)} {rows : List (List Value)}
    {prepared : PreparedInsertRows} (hprepared : t'.prepareInsertRows columns rows rows.length = .ok prepared) :
    wp (appendPreparedInsertRows prepared) (fun _ t'' => Grown (earlier + rows.length) t t'') (fun _ _ => False) t' := by
  obtain ⟨declared, hconsistent, hconsistent'⟩ := h.consistent
  obtain ⟨hroom, hrows, hadmits⟩ := (prepareInsertRows_spec hconsistent' columns rows rows.length).2 prepared hprepared
  have hroom' : HasRoom t' (prepared.rows.length + 0) := by rwa [Nat.add_zero, hrows]
  have hcounted : ∀ u t'', appendPreparedInsertRows prepared t' = some (.ok u, t'') →
      t''.identity = t'.identity ∧ t''.rowCount = t'.rowCount + prepared.rows.length := fun u t'' hrun =>
    ⟨appendPreparedInsertRows_identity prepared t' u t'' hrun, appendPreparedInsertRows_rowCount hrun⟩
  refine wp_mono (wp_and (appendPreparedInsertRows_wp hconsistent' hroom' hadmits) hcounted) ?_ fun _ _ he => he
  intro _ t'' ⟨⟨hconsistent'', _⟩, hidentity, hcount⟩
  refine ⟨⟨declared, hconsistent, hconsistent''⟩, hidentity.trans h.identity, ?_⟩
  rw [hcount, h.rowCount, hrows, Nat.add_assoc]

end

end Table

namespace Database

/-! ## Statements in turn -/

/-- Every `INSERT` is executed before the next is looked at; the answers of the operating system go by position. -/
def executeInsertsInTurn (io : Nat → CommitIo) (index : Nat) :
    List Statement → Method Database Error (List StatementResult)
  | [] => pure []
  | statement :: statements => do
    let (table, columns, rows) ← .call (orPanic (insertParts statement))
    let result ← executeInsertStatement (io index) table columns rows
    let results ← executeInsertsInTurn io (index + 1) statements
    return result :: results

/-- An `INSERT` into a table that no write-ahead log tracks. -/
def UntrackedInsert (db : Database) (statement : Statement) : Prop :=
  ∃ table columns rows, insertParts statement = some (table, columns, rows) ∧ db.walTracks table = false

/-- The tables of a catalog, each grown by the rows that were counted for it. -/
def GrownFrom (c : Catalog) (incoming : Map String Nat) (db : Database) : Prop :=
  ∀ key, Option.Rel (Table.Grown (earlierRows incoming key)) (c.found key) (db.catalog.found key)

section
variable {c : Catalog} {incoming : Map String Nat} {db db' : Database}

theorem grownFrom_start (hsound : Sound anyLimits db.core) : GrownFrom db.catalog ∅ db := by
  intro key
  cases hfound : db.catalog.found key with
  | none => exact .none
  | some table =>
    obtain ⟨declared, hconsistent, _⟩ := hsound.good key table hfound
    exact .some (.refl hconsistent)

theorem GrownFrom.start (h : GrownFrom c incoming db) {name : String} {target' : Table}
    (htarget' : db.catalog.table name = .ok target') :
    ∃ target, c.table name = .ok target ∧ Table.Grown (earlierRows incoming (normalize name)) target target' := by
  have hkey := h (normalize name)
  rw [show db.catalog.found (normalize name) = some target' from getOr_eq_ok.1 htarget'] at hkey
  cases hstart : c.found (normalize name) with
  | none => rw [hstart] at hkey; cases hkey
  | some target =>
    rw [hstart] at hkey
    cases hkey with
    | some hgrown => exact ⟨target, getOr_eq_ok.2 hstart, hgrown⟩

theorem GrownFrom.now (h : GrownFrom c incoming db) {name : String} {target : Table}
    (htarget : c.table name = .ok target) :
    ∃ target', db.catalog.table name = .ok target' ∧
      Table.Grown (earlierRows incoming (normalize name)) target target' := by
  have hkey := h (normalize name)
  rw [show c.found (normalize name) = some target from getOr_eq_ok.1 htarget] at hkey
  cases hnow : db.catalog.found (normalize name) with
  | none => rw [hnow] at hkey; cases hkey
  | some target' =>
    rw [hnow] at hkey
    cases hkey with
    | some hgrown => exact ⟨target', getOr_eq_ok.2 hnow, hgrown⟩

theorem walTracks_congr (hlog : db'.int64WriteAheadLog = db.int64WriteAheadLog) (name : String) :
    db'.walTracks name = db.walTracks name := by
  rw [walTracks, walTracks, hlog]

/-- **One statement**: its rows are appended, and are counted for the statements behind it. -/
theorem GrownFrom.append (h : GrownFrom c incoming db) {name : String} {target target' : Table}
    (htarget : c.table name = .ok target) (htarget' : db.catalog.table name = .ok target')
    (hgrown : Table.Grown (earlierRows incoming (normalize name)) target target') {columns : Option (List String)}
    {rows : List (List Value)} {prepared : PreparedInsertRows}
    (hprepared : target'.prepareInsertRows columns rows rows.length = .ok prepared)
    (hrun : tableMut name (Table.appendPreparedInsertRows prepared) db = some (.ok (), db')) :
    GrownFrom c (incoming.insert (normalize name) (earlierRows incoming (normalize name) + rows.length)) db' ∧
      db'.int64WriteAheadLog = db.int64WriteAheadLog := by
  have hstart : c.found (normalize name) = some target := getOr_eq_ok.1 htarget
  have hnow : db.catalog.tables.lookup (normalize name) = some target' := getOr_eq_ok.1 htarget'
  have happends := wp_tableMut (Q := fun _ db' =>
      GrownFrom c (incoming.insert (normalize name) (earlierRows incoming (normalize name) + rows.length)) db' ∧
      db'.int64WriteAheadLog = db.int64WriteAheadLog) (E := fun _ _ => False) hnow
    (wp_mono (hgrown.append hprepared) (fun _ grown hafter => ⟨fun key => ?_, rfl⟩) fun _ _ he => he)
  · exact (wp_iff.1 happends).2.1 () db' hrun
  · rw [Catalog.found_replace hnow, Function.update_apply, earlierRows]
    by_cases hkey : key = normalize name
    · subst hkey
      rw [if_pos rfl, hstart, AList.lookup_insert]
      exact .some hafter
    · rw [if_neg hkey, AList.lookup_insert_ne hkey]
      exact h key

theorem logPreparedInt64Append_untracked {io : CommitIo} {name : String} {prepared : PreparedInsertRows}
    (hwal : db.walTracks name = false) : logPreparedInt64Append io name prepared db = some (.ok (), db) := by
  rw [logPreparedInt64Append, bind_of_ok (read_eq_ok.2 ⟨rfl, rfl⟩), hwal]
  rfl

/-! ## The steps of both ways -/

section
variable {io : CommitIo} {name : String} {columns : Option (List String)} {rows : List (List Value)}
  {results : List StatementResult}

theorem executeInsertStatement_eq_ok {result : StatementResult} (hwal : db.walTracks name = false) :
    executeInsertStatement io name columns rows db = some (.ok result, db') ↔
      ∃ target prepared, db.catalog.table name = .ok target ∧
        target.prepareInsertRows columns rows rows.length = .ok prepared ∧
        tableMut name (Table.appendPreparedInsertRows prepared) db = some (.ok (), db') ∧
        result = .command "INSERT" prepared.rows.length := by
  simp only [executeInsertStatement, bind_eq_ok, read_eq_ok, call_eq_ok, pure_eq_ok]
  constructor
  · intro h
    obtain ⟨_, _, ⟨rfl, rfl⟩, target, _, ⟨htarget, rfl⟩, prepared, _, ⟨hprepared, rfl⟩, _, _, hlog, _, _, hrun, hresult,
      rfl⟩ := h
    rw [logPreparedInt64Append_untracked hwal] at hlog
    obtain ⟨_, rfl⟩ := Prod.mk.inj (Option.some.inj hlog)
    exact ⟨target, prepared, htarget, hprepared, hrun, hresult.symm⟩
  · intro h
    obtain ⟨target, prepared, htarget, hprepared, hrun, hresult⟩ := h
    exact ⟨db, db, ⟨rfl, rfl⟩, target, db, ⟨htarget, rfl⟩, prepared, db, ⟨hprepared, rfl⟩, (), db,
      logPreparedInt64Append_untracked hwal, (), db', hrun, hresult.symm, rfl⟩

theorem executeInsertsInTurn_cons {io : Nat → CommitIo} {index : Nat} {statement : Statement} {statements : List Statement}
    (hparts : insertParts statement = some (name, columns, rows)) :
    executeInsertsInTurn io index (statement :: statements) db = some (.ok results, db') ↔
      ∃ result db₁ rest, executeInsertStatement (io index) name columns rows db = some (.ok result, db₁) ∧
        executeInsertsInTurn io (index + 1) statements db₁ = some (.ok rest, db') ∧ results = result :: rest := by
  simp only [executeInsertsInTurn, hparts, orPanic_some, bind_eq_ok, call_eq_ok, pure_eq_ok]
  constructor
  · intro h
    obtain ⟨_, _, ⟨hsame, rfl⟩, result, db₁, hrun, rest, _, hrest, hresults, rfl⟩ := h
    obtain rfl := Exec.ok.inj hsame
    exact ⟨result, db₁, rest, hrun, hrest, hresults.symm⟩
  · intro h
    obtain ⟨result, db₁, rest, hrun, hrest, hresults⟩ := h
    exact ⟨_, db, ⟨rfl, rfl⟩, result, db₁, hrun, rest, db', hrest, hresults.symm, rfl⟩

theorem prepareInsertStatements_cons {statement : Statement} {statements : List Statement} {prepared : List PreparedInsert}
    (hparts : insertParts statement = some (name, columns, rows)) :
    prepareInsertStatements c incoming (statement :: statements) = .ok prepared ↔
      ∃ target first rest, c.table name = .ok target ∧
        target.prepareInsertRows columns rows (earlierRows incoming (normalize name) + rows.length) = .ok first ∧
        prepareInsertStatements c (incoming.insert (normalize name) (earlierRows incoming (normalize name) + rows.length))
          statements = .ok rest ∧ prepared = (name, first) :: rest := by
  simp only [prepareInsertStatements, hparts, orPanic_some, Exec.ok_bind, Exec.bind_eq_ok, Exec.ok.injEq]
  constructor
  · intro ⟨target, htarget, first, hfirst, rest, hrest, hprepared⟩
    exact ⟨target, first, rest, htarget, hfirst, hrest, hprepared.symm⟩
  · intro ⟨target, first, rest, htarget, hfirst, hrest, hprepared⟩
    exact ⟨target, htarget, first, hfirst, rest, hrest, hprepared.symm⟩

theorem expect_eq_ok {α : Type} {m : Method Database Error α} {a : α} :
    Method.expect m db = some (.ok a, db') ↔ m db = some (.ok a, db') := by
  unfold Method.expect
  rcases m db with _ | ⟨_ | _, _⟩ <;> simp

theorem applyInsertStatements_cons {first : PreparedInsertRows} {prepared : List PreparedInsert} :
    applyInsertStatements ((name, first) :: prepared) db = some (.ok results, db') ↔
      ∃ db₁ rest, tableMut name (Table.appendPreparedInsertRows first) db = some (.ok (), db₁) ∧
        applyInsertStatements prepared db₁ = some (.ok rest, db') ∧
        results = .command "INSERT" first.rows.length :: rest := by
  simp only [applyInsertStatements, bind_eq_ok, expect_eq_ok, pure_eq_ok]
  constructor
  · intro h
    obtain ⟨_, db₁, hrun, rest, _, hrest, hresults, rfl⟩ := h
    exact ⟨db₁, rest, hrun, hrest, hresults.symm⟩
  · intro h
    obtain ⟨db₁, rest, hrun, hrest, hresults⟩ := h
    exact ⟨(), db₁, hrun, rest, db', hrest, hresults.symm, rfl⟩

end

theorem inTurn_iff {io : Nat → CommitIo} {index : Nat} {statements : List Statement} {results : List StatementResult}
    (h : GrownFrom c incoming db) (huntracked : ∀ statement ∈ statements, UntrackedInsert db statement) :
    executeInsertsInTurn io index statements db = some (.ok results, db') ↔
      ∃ prepared, prepareInsertStatements c incoming statements = .ok prepared ∧
        applyInsertStatements prepared db = some (.ok results, db') := by
  induction statements generalizing index incoming db results with
  | nil =>
    constructor
    · intro hrun
      exact ⟨[], rfl, hrun⟩
    · intro ⟨prepared, hprepared, hrun⟩
      obtain rfl := Exec.ok.inj hprepared
      exact hrun
  | cons statement statements ih =>
    obtain ⟨⟨name, columns, rows, hparts, hwal⟩, hrest⟩ := List.forall_mem_cons.1 huntracked
    have huntracked' : ∀ {db₁ : Database}, db₁.int64WriteAheadLog = db.int64WriteAheadLog →
        ∀ statement ∈ statements, UntrackedInsert db₁ statement := fun hlog statement hmem =>
      let ⟨name, columns, rows, hparts, hwal⟩ := hrest statement hmem
      ⟨name, columns, rows, hparts, (walTracks_congr hlog name).trans hwal⟩
    rw [executeInsertsInTurn_cons hparts]
    constructor
    · intro ⟨result, db₁, rest, hrun, hturn, hresults⟩
      obtain ⟨target', first, htarget', hfirst, happended, rfl⟩ := (executeInsertStatement_eq_ok hwal).1 hrun
      obtain ⟨target, htarget, hgrown⟩ := h.start htarget'
      obtain ⟨hgrownFrom, hlog⟩ := h.append htarget htarget' hgrown hfirst happended
      obtain ⟨prepared, hprepared, happlied⟩ := (ih hgrownFrom (huntracked' hlog)).1 hturn
      exact ⟨(name, first) :: prepared, (prepareInsertStatements_cons hparts).2
        ⟨target, first, prepared, htarget, (hgrown.prepareInsertRows columns rows first).1 hfirst, hprepared, rfl⟩,
        applyInsertStatements_cons.2 ⟨db₁, rest, happended, happlied, hresults⟩⟩
    · intro ⟨prepared, hprepared, happlied⟩
      obtain ⟨target, first, rest, htarget, hfirst, hothers, rfl⟩ := (prepareInsertStatements_cons hparts).1 hprepared
      obtain ⟨db₁, restResults, hrun, happlied, hresults⟩ := applyInsertStatements_cons.1 happlied
      obtain ⟨target', htarget', hgrown⟩ := h.now htarget
      have hfirst' := (hgrown.prepareInsertRows columns rows first).2 hfirst
      obtain ⟨hgrownFrom, hlog⟩ := h.append htarget htarget' hgrown hfirst' hrun
      exact ⟨_, _, restResults, (executeInsertStatement_eq_ok hwal).2 ⟨target', first, htarget', hfirst', hrun, rfl⟩,
        (ih hgrownFrom (huntracked' hlog)).2 ⟨rest, hothers, happlied⟩, hresults⟩

/-! ## The batch -/

theorem prepareInsertStatements_untracked {statements : List Statement} {prepared : List PreparedInsert}
    (huntracked : ∀ statement ∈ statements, UntrackedInsert db statement)
    (hprepared : prepareInsertStatements c incoming statements = .ok prepared) :
    ∀ insert ∈ prepared, db.walTracks insert.1 = false := by
  induction statements generalizing incoming prepared with
  | nil =>
    obtain rfl := Exec.ok.inj hprepared
    exact List.forall_mem_nil _
  | cons statement statements ih =>
    obtain ⟨⟨name, columns, rows, hparts, hwal⟩, hrest⟩ := List.forall_mem_cons.1 huntracked
    obtain ⟨_, first, rest, _, _, hothers, rfl⟩ := (prepareInsertStatements_cons hparts).1 hprepared
    exact List.forall_mem_cons.2 ⟨hwal, ih hrest hothers⟩

theorem walAppend_untracked {prepared : List PreparedInsert} (h : ∀ insert ∈ prepared, db.walTracks insert.1 = false) :
    db.walAppend none [] prepared = .ok (none, []) := by
  induction prepared with
  | nil => rfl
  | cons insert prepared ih =>
    obtain ⟨hwal, hrest⟩ := List.forall_mem_cons.1 h
    rw [walAppend, hwal]
    exact ih hrest

theorem logInsertStatements_untracked {io : CommitIo} {prepared : List PreparedInsert}
    (h : ∀ insert ∈ prepared, db.walTracks insert.1 = false) :
    logInsertStatements io prepared db = some (.ok (), db) := by
  rw [logInsertStatements, bind_of_ok (read_eq_ok.2 ⟨rfl, rfl⟩), walAppend_untracked h]
  rfl

theorem prepareInsertStatements_ne_panic (hgood : ∀ key table, c.tables.lookup key = some table → Good anyLimits table)
    {statements : List Statement} (hinserts : ∀ statement ∈ statements, UntrackedInsert db statement) :
    prepareInsertStatements c incoming statements ≠ .panic := by
  induction statements generalizing incoming with
  | nil => exact Exec.ok_ne_panic _
  | cons statement statements ih =>
    obtain ⟨⟨name, columns, rows, hparts, _⟩, hrest⟩ := List.forall_mem_cons.1 hinserts
    rw [prepareInsertStatements, hparts, orPanic_some, Exec.ok_bind]
    refine bind_ne_panic (getOr_ne_panic _ _) fun target htarget => ?_
    obtain ⟨declared, hconsistent, _⟩ := hgood _ _ (getOr_eq_ok.1 htarget)
    refine bind_ne_panic (Table.prepareInsertRows_spec hconsistent columns rows _).1 fun first _ => ?_
    exact bind_ne_panic (ih hrest) fun _ _ => Exec.ok_ne_panic _

/-- **A batch of INSERT is its statements in turn**: it succeeds when they do, with their results and the database they
leave, and otherwise changes nothing. -/
theorem executeInsertStatements_in_turn (hdb : Reachable db) (statements : List Statement)
    (hinserts : ∀ statement ∈ statements, UntrackedInsert db statement) (io : CommitIo) (answers : Nat → CommitIo) :
    (∀ results db', executeInsertStatements io statements db = some (.ok results, db') ↔
      executeInsertsInTurn answers 0 statements db = some (.ok results, db')) ∧
    ((∃ results db', executeInsertStatements io statements db = some (.ok results, db')) ∨
      ∃ error, executeInsertStatements io statements db = some (.error error, db)) := by
  have honly : rejectOtherStatements statements = .ok () := forEach_eq_ok.2 fun statement hmem => by
    obtain ⟨name, columns, rows, hparts, _⟩ := hinserts statement hmem
    exact rejectIf_of_not (by rw [hparts]; exact Option.some_ne_none _)
  have hturn := fun results db' => @inTurn_iff _ _ _ db' answers 0 _ results (grownFrom_start hdb.sound) hinserts
  have hbatch : executeInsertStatements io statements db =
      (Method.call (prepareInsertStatements db.catalog ∅ statements) >>= fun prepared =>
        logInsertStatements io prepared >>= fun _ => applyInsertStatements prepared) db := by
    rw [executeInsertStatements, bind_of_ok (read_eq_ok.2 ⟨rfl, rfl⟩), bind_of_ok (call_eq_ok.2 ⟨honly, rfl⟩)]
  cases hprepared : prepareInsertStatements db.catalog ∅ statements with
  | panic => exact absurd hprepared (prepareInsertStatements_ne_panic hdb.sound.good hinserts)
  | error error =>
    rw [hprepared] at hbatch
    have herror : executeInsertStatements io statements db = some (.error error, db) := hbatch
    refine ⟨fun results db' => ?_, .inr ⟨error, herror⟩⟩
    rw [hturn, herror, hprepared]
    simp
  | ok prepared =>
    have happly : executeInsertStatements io statements db = applyInsertStatements prepared db := by
      rw [hbatch, bind_of_ok (call_eq_ok.2 ⟨hprepared, rfl⟩),
        bind_of_ok (logInsertStatements_untracked (prepareInsertStatements_untracked hinserts hprepared))]
    rw [happly]
    constructor
    · intro results db'
      rw [hturn, hprepared]
      simp
    · have hready : Ready anyLimits db.catalog.found prepared := ready_of_prepared hdb.sound.good hprepared
      obtain ⟨results, db', hrun, _⟩ := exists_of_wp (applyInsertStatements_wp hready)
      exact .inl ⟨results, db', hrun⟩

/-- One table by two spellings of its name, once with a column list. -/
def insertVariants : List Statement := [.insert "t" [[.int64 5]], .insertWithColumns "T" ["X"] [[.int64 6]]]

theorem insertVariants_outcome : (runSample .new).bind (fun outcome =>
    (executeInsertStatements .success insertVariants outcome.2).map fun inserted =>
      (outcome.2.walTracks "t", outcome.2.walTracks "T", inserted.1.toOption)) =
    some (false, false, some [.command "INSERT" 1, .command "INSERT" 1]) := by
  decide +kernel

theorem executeInsertStatements_in_turn_variants : ∃ outcome db results db', runSample .new = some (outcome, db) ∧
    executeInsertStatements .success insertVariants db = some (.ok results, db') ∧
    executeInsertsInTurn (fun _ => .success) 0 insertVariants db = some (.ok results, db') := by
  obtain ⟨⟨outcome, db⟩, hrun, hvalues⟩ := Option.bind_eq_some_iff.1 insertVariants_outcome
  obtain ⟨⟨result, db'⟩, hinsert, hvalues⟩ := Option.map_eq_some_iff.1 hvalues
  obtain ⟨hfirst, hvalues⟩ := Prod.mk.inj hvalues
  obtain ⟨hsecond, hvalues⟩ := Prod.mk.inj hvalues
  have hinserts : ∀ statement ∈ insertVariants, UntrackedInsert db statement :=
    List.forall_mem_cons.2 ⟨⟨_, _, _, rfl, hfirst⟩, List.forall_mem_cons.2 ⟨⟨_, _, _, rfl, hsecond⟩, List.forall_mem_nil _⟩⟩
  cases result with
  | error error => cases hvalues
  | ok results =>
    exact ⟨outcome, db, results, db', hrun, hinsert, ((executeInsertStatements_in_turn (.script .new hrun) insertVariants
      hinserts .success fun _ => .success).1 results db').1 hinsert⟩

end

end Database

end RustHouse.Batch
