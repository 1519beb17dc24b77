import RustHouse.Catalog

/-!
# The catalog is a map by name

Every table is stored under its own name in lower case, whatever sequence of
operations built the catalog. A lookup finds what was last published under a
name, and an operation that fails leaves the catalog as it was. No operation
counts the tables: there is no limit on their number.
-/

namespace RustHouse.Batch

open Exec Words KeyedTotals Method

/-! ## Failures of tables -/

namespace Table

theorem markValuesMutated_ne_error {t t' : Table} {e : Error} : markValuesMutated t ≠ some (.error e, t') := by
  intro h
  simp only [markValuesMutated, bind_eq_error, read_ne_error, read_eq_ok, false_or] at h
  obtain ⟨_, _, ⟨rfl, rfl⟩, h⟩ := h
  cases hindex : t.int64MinMaxIndex with
  | none => simp [hindex] at h
  | some previous =>
    simp only [hindex] at h
    generalize buildInt64MinMaxIndex _ previous.column previous.limits = built at h
    cases built <;> simp at h

theorem publishAddedColumn_ne_error {field : ColumnDef} {column : Column} {t t' : Table} {e : Error} :
    publishAddedColumn field column t ≠ some (.error e, t') := by
  intro h
  simp only [publishAddedColumn, bind_eq_error, read_ne_error, read_eq_ok, write_ne_error, write_eq_ok, false_or] at h
  obtain ⟨_, _, _, _, _, _, h⟩ := h
  exact markValuesMutated_ne_error h

theorem renameColumn_atomic (source destination : String) : Atomic (renameColumn source destination) := by
  intro t e t' h
  simp only [renameColumn, bind_eq_error, read_ne_error, read_eq_ok, call_eq_error, call_eq_ok, write_ne_error,
    false_or, or_false, and_false, exists_false] at h
  grind

theorem addColumn_atomic (field : ColumnDef) : Atomic (addColumn field) := by
  intro t e t' h
  simp only [addColumn, bind_eq_error, read_ne_error, read_eq_ok, call_eq_error, call_eq_ok, publishAddedColumn_ne_error,
    false_or, or_false, and_false, exists_false] at h
  grind

theorem addNullableInt64Column_atomic (name : String) : Atomic (addNullableInt64Column name) := by
  intro t e t' h
  simp only [addNullableInt64Column, bind_eq_error, read_ne_error, read_eq_ok, call_eq_error, call_eq_ok,
    publishAddedColumn_ne_error, false_or, or_false, and_false, exists_false] at h
  grind

theorem dropColumn_atomic (column : String) : Atomic (dropColumn column) := by
  intro t e t' h
  simp only [dropColumn, bind_eq_error, read_ne_error, read_eq_ok, call_eq_error, call_eq_ok, write_ne_error,
    false_or, or_false, and_false, exists_false] at h
  grind

/-! ## What a mutation of a table leaves alone -/

def identity (t : Table) : String × TableLimits := (t.name, t.limits)

theorem markValuesMutated_identity {t t' : Table} {u : Unit} (h : markValuesMutated t = some (.ok u, t')) :
    t'.identity = t.identity := by
  simp only [markValuesMutated, bind_eq_ok, read_eq_ok] at h
  obtain ⟨_, _, ⟨rfl, rfl⟩, h⟩ := h
  cases hindex : t.int64MinMaxIndex with
  | none =>
    simp only [hindex, write_eq_ok] at h
    rw [← h]; rfl
  | some previous =>
    simp only [hindex] at h
    generalize buildInt64MinMaxIndex _ previous.column previous.limits = built at h
    cases built with
    | ok index => rw [← write_eq_ok.1 h]; rfl
    | error rejection => rw [← write_eq_ok.1 h]; rfl
    | panic => exact absurd (call_eq_ok.1 h).1 (Exec.ok_ne_panic _).symm

theorem publishAddedColumn_identity {field : ColumnDef} {column : Column} {t t' : Table} {u : Unit}
    (h : publishAddedColumn field column t = some (.ok u, t')) : t'.identity = t.identity := by
  simp only [publishAddedColumn, bind_eq_ok, read_eq_ok, write_eq_ok] at h
  obtain ⟨_, _, ⟨rfl, rfl⟩, _, _, rfl, h⟩ := h
  rw [markValuesMutated_identity h]; rfl

theorem renameColumn_identity {source destination : String} {t t' : Table} {u : Unit}
    (h : renameColumn source destination t = some (.ok u, t')) : t'.identity = t.identity := by
  simp only [renameColumn, bind_eq_ok, read_eq_ok, call_eq_ok, write_eq_ok] at h
  obtain ⟨_, _, ⟨rfl, rfl⟩, _, _, ⟨_, rfl⟩, _, _, ⟨_, rfl⟩, _, _, ⟨_, rfl⟩, rfl⟩ := h
  rfl

theorem addColumn_identity {field : ColumnDef} {t t' : Table} {u : Unit} (h : addColumn field t = some (.ok u, t')) :
    t'.identity = t.identity := by
  simp only [addColumn, bind_eq_ok, read_eq_ok, call_eq_ok] at h
  obtain ⟨_, _, ⟨rfl, rfl⟩, _, _, ⟨_, rfl⟩, h⟩ := h
  exact publishAddedColumn_identity h

theorem addNullableInt64Column_identity {name : String} {t t' : Table} {u : Unit}
    (h : addNullableInt64Column name t = some (.ok u, t')) : t'.identity = t.identity := by
  simp only [addNullableInt64Column, bind_eq_ok, read_eq_ok, call_eq_ok] at h
  obtain ⟨_, _, ⟨rfl, rfl⟩, _, _, ⟨_, rfl⟩, h⟩ := h
  exact publishAddedColumn_identity h

theorem dropColumn_identity {column : String} {t t' : Table} {u : Unit} (h : dropColumn column t = some (.ok u, t')) :
    t'.identity = t.identity := by
  simp only [dropColumn, bind_eq_ok, read_eq_ok, call_eq_ok, write_eq_ok] at h
  obtain ⟨_, _, ⟨rfl, rfl⟩, _, _, ⟨_, rfl⟩, _, _, ⟨_, rfl⟩, _, _, ⟨_, rfl⟩, rfl⟩ := h
  rfl

end Table

/-! ## Single operations -/

namespace Catalog

variable {c c' : Catalog} {α : Type}

theorem ext {c c' : Catalog} (h : c.tables = c'.tables) : c = c' := congrArg Catalog.mk h

theorem tableMut_cases {name : String} {m : Method Table Error α} {r : Except Error α}
    (h : tableMut name m c = some (r, c')) :
    (c.tables.lookup (normalize name) = none ∧ r = .error (.tableNotFound name) ∧ c' = c) ∨
    ∃ table table', c.tables.lookup (normalize name) = some table ∧ m table = some (r, table') ∧
      c' = ⟨c.tables.replace (normalize name) table'⟩ := by
  unfold tableMut at h
  split at h
  · rename_i hlookup
    left
    simp only [Option.some.injEq, Prod.mk.injEq] at h
    exact ⟨hlookup, h.1.symm, h.2.symm⟩
  · rename_i table hlookup
    right
    cases hm : m table with
    | none => simp [hm] at h
    | some outcome =>
      simp only [hm, Option.map_some, Option.some.injEq, Prod.mk.injEq] at h
      exact ⟨table, outcome.2, hlookup, by rw [hm, ← h.1], h.2.symm⟩

theorem tableMut_atomic {name : String} {m : Method Table Error α} (hm : Atomic m) : Atomic (tableMut name m) := by
  intro c e c' h
  rcases tableMut_cases h with ⟨_, _, rfl⟩ | ⟨table, table', hlookup, hcall, rfl⟩
  · rfl
  · rw [hm _ _ _ hcall]
    exact ext (replace_self hlookup)

theorem createTableWithLimits_atomic (name : String) (schema : List ColumnDef) (limits : TableLimits) :
    Atomic (createTableWithLimits name schema limits) := by
  intro c e c' h
  simp only [createTableWithLimits, bind_eq_error, read_ne_error, read_eq_ok, call_eq_error, call_eq_ok, write_ne_error,
    false_or, or_false, and_false, exists_false] at h
  grind

theorem createTableIfNotExistsWithLimits_atomic (name : String) (schema : List ColumnDef) (limits : TableLimits) :
    Atomic (createTableIfNotExistsWithLimits name schema limits) := by
  intro c e c' h
  simp only [createTableIfNotExistsWithLimits, bind_eq_error, read_ne_error, read_eq_ok, false_or] at h
  obtain ⟨_, _, ⟨rfl, rfl⟩, h⟩ := h
  split at h
  · exact absurd h pure_ne_error
  · simp only [bind_eq_error, pure_ne_error, and_false, exists_false, or_false] at h
    exact createTableWithLimits_atomic name schema limits _ _ _ h

theorem registerTable_atomic (table : Table) : Atomic (registerTable table) := by
  intro c e c' h
  simp only [registerTable, bind_eq_error, read_ne_error, read_eq_ok, call_eq_error, call_eq_ok, write_ne_error,
    false_or, or_false, and_false, exists_false] at h
  grind

theorem replaceTable_atomic (name : String) (replacement : Table) : Atomic (replaceTable name replacement) := by
  intro c e c' h
  simp only [replaceTable, bind_eq_error, read_ne_error, read_eq_ok, call_eq_error, call_eq_ok, write_ne_error,
    pure_ne_error, false_or, or_false, and_false, exists_false] at h
  grind

theorem registerTables_atomic (tables : List Table) : Atomic (registerTables tables) := by
  intro c e c' h
  simp only [registerTables, bind_eq_error, read_ne_error, read_eq_ok, call_eq_error, call_eq_ok, write_ne_error,
    false_or, or_false, and_false, exists_false] at h
  grind

theorem renameTable_atomic (source destination : String) : Atomic (renameTable source destination) := by
  intro c e c' h
  simp only [renameTable, bind_eq_error, read_ne_error, read_eq_ok, call_eq_error, call_eq_ok, false_or] at h
  obtain ⟨_, _, ⟨rfl, rfl⟩, ⟨_, rfl⟩ | ⟨_, _, ⟨_, rfl⟩, ⟨_, rfl⟩ | ⟨_, _, ⟨_, rfl⟩, ⟨_, rfl⟩ | ⟨_, _, ⟨_, rfl⟩, ⟨_, rfl⟩ |
    ⟨_, _, ⟨_, rfl⟩, h⟩⟩⟩⟩⟩ := h
  · rfl
  · rfl
  · rfl
  · rfl
  · split at h <;> exact absurd h write_ne_error

theorem erase_of_notMem {key : String} {tables : Map String Table} (h : key ∉ tables) : tables.erase key = tables :=
  AList.ext (List.kerase_of_notMem_keys h)

theorem dropTable_atomic (name : String) : Atomic (dropTable name) := by
  intro c e c' h
  simp only [dropTable, dropTableIfExists, bind_eq_error, bind_eq_ok, read_ne_error, read_eq_ok, write_ne_error,
    write_eq_ok, pure_ne_error, pure_eq_ok, and_false, exists_false, or_false, false_or] at h
  obtain ⟨_, _, ⟨_, _, ⟨rfl, rfl⟩, _, _, rfl, rfl, rfl⟩, h⟩ := h
  split at h
  · exact absurd h pure_ne_error
  · rename_i hmissing
    rw [← (call_eq_error.1 h).2]
    exact ext (erase_of_notMem (by simpa [tableExists] using hmissing))

end Catalog

/-! ## Sequences of operations -/

inductive ColumnChange where
  | renameColumn (source destination : String)
  | addColumn (column : ColumnDef)
  | addNullableInt64Column (column : String)
  | dropColumn (column : String)

def ColumnChange.method : ColumnChange → Method Table Error Unit
  | renameColumn source destination => Table.renameColumn source destination
  | addColumn column => Table.addColumn column
  | addNullableInt64Column column => Table.addNullableInt64Column column
  | dropColumn column => Table.dropColumn column

theorem ColumnChange.atomic : ∀ change : ColumnChange, Atomic change.method
  | renameColumn source destination => Table.renameColumn_atomic source destination
  | addColumn column => Table.addColumn_atomic column
  | addNullableInt64Column column => Table.addNullableInt64Column_atomic column
  | dropColumn column => Table.dropColumn_atomic column

theorem ColumnChange.identity {t t' : Table} {u : Unit} : ∀ {change : ColumnChange},
    change.method t = some (.ok u, t') → t'.identity = t.identity
  | renameColumn _ _, h => Table.renameColumn_identity h
  | addColumn _, h => Table.addColumn_identity h
  | addNullableInt64Column _, h => Table.addNullableInt64Column_identity h
  | dropColumn _, h => Table.dropColumn_identity h

inductive CatalogOperation where
  | create (name : String) (schema : List ColumnDef) (limits : TableLimits)
  | createIfNotExists (name : String) (schema : List ColumnDef) (limits : TableLimits)
  | rename (source destination : String)
  | drop (name : String)
  | dropIfExists (name : String)
  | replace (name : String) (replacement : Table)
  | register (table : Table)
  | registerAll (tables : List Table)
  | alter (table : String) (change : ColumnChange)

namespace CatalogOperation

open Catalog

def run : CatalogOperation → Method Catalog Error Unit
  | create name schema limits => createTableWithLimits name schema limits
  | createIfNotExists name schema limits => do let _ ← createTableIfNotExistsWithLimits name schema limits
  | rename source destination => renameTable source destination
  | drop name => dropTable name
  | dropIfExists name => do let _ ← dropTableIfExists name
  | replace name replacement => do let _ ← replaceTable name replacement
  | register table => registerTable table
  | registerAll tables => (registerTables tables).mapError Prod.snd
  | alter table change => tableMut table change.method

/-- What the caller of a replacement is responsible for: the target keeps its name. -/
def Admissible (c : Catalog) : CatalogOperation → Prop
  | replace name replacement => ∀ target, c.tables.lookup (normalize name) = some target →
      normalize replacement.name = normalize target.name
  | _ => True

end CatalogOperation

/-- What an operation makes known of a name: the table now under it, or that there is none. -/
inductive Publication where
  | published (table : Table)
  | withdrawn (name : String)

namespace Publication

def applyTo (found : String → Option Table) : Publication → String → Option Table
  | published table => Function.update found (normalize table.name) (some table)
  | withdrawn name => Function.update found (normalize name) none

/-- What was last made known of each name in lower case. -/
def latest (publications : List Publication) : String → Option Table := publications.foldl applyTo fun _ => none

end Publication

open Publication

def CatalogOperation.publications (c : Catalog) : CatalogOperation → List Publication
  | create name schema limits =>
    match Table.withLimits name schema limits with
    | .ok table => [published table]
    | _ => []
  | createIfNotExists name schema limits =>
    if c.tableExists name then [] else
    match Table.withLimits name schema limits with
    | .ok table => [published table]
    | _ => []
  | rename source destination =>
    match c.tables.lookup (normalize source) with
    | some table => [withdrawn source, published { table with name := destination }]
    | none => []
  | drop name | dropIfExists name => [withdrawn name]
  | replace _ replacement => [published replacement]
  | register table => [published table]
  | registerAll tables => tables.map published
  | alter name change =>
    match c.tables.lookup (normalize name) with
    | some table =>
      match change.method table with
      | some (.ok _, table) => [published table]
      | _ => []
    | none => []

/-- The catalogs that operations lead to, with all that was published on the way. -/
inductive CatalogRun : List Publication → Catalog → Prop
  | new : CatalogRun [] .new
  | succeeded {publications : List Publication} {c c' : Catalog} {operation : CatalogOperation} :
      CatalogRun publications c → operation.Admissible c → operation.run c = some (.ok (), c') →
      CatalogRun (publications ++ operation.publications c) c'
  | failed {publications : List Publication} {c c' : Catalog} {operation : CatalogOperation} {e : Error} :
      CatalogRun publications c → operation.Admissible c → operation.run c = some (.error e, c') →
      CatalogRun publications c'

/-! ## One operation -/

/-- What a catalog finds under each key. -/
def Catalog.found (c : Catalog) : String → Option Table := fun key => c.tables.lookup key

/-- Every table found under a key has the key as its name in lower case. -/
def Keyed (found : String → Option Table) : Prop := ∀ key table, found key = some table → key = normalize table.name

namespace Catalog

variable {tables : Map String Table} {key : String} {table : Table}

theorem found_insert : found ⟨tables.insert key table⟩ = Function.update (found ⟨tables⟩) key (some table) := by
  funext j
  by_cases hj : j = key
  · subst hj
    rw [Function.update_self]; exact AList.lookup_insert _
  · rw [Function.update_of_ne hj]; exact AList.lookup_insert_ne hj

theorem found_erase : found ⟨tables.erase key⟩ = Function.update (found ⟨tables⟩) key none := by
  funext j
  by_cases hj : j = key
  · subst hj
    rw [Function.update_self]; exact AList.lookup_erase _ _
  · rw [Function.update_of_ne hj]; exact AList.lookup_erase_ne hj

theorem found_replace {old : Table} (h : tables.lookup key = some old) :
    found ⟨tables.replace key table⟩ = Function.update (found ⟨tables⟩) key (some table) := by
  funext j
  show (tables.replace key table).lookup j = _
  rw [lookup_replace]
  by_cases hj : key = j
  · subst hj
    rw [if_pos rfl, h, Function.update_self]; rfl
  · rw [if_neg hj, Function.update_of_ne (Ne.symm hj)]; rfl

theorem withLimits_name {name : String} {schema : List ColumnDef} {limits : TableLimits}
    (h : Table.withLimits name schema limits = .ok table) : table.name = name := by
  simp only [Table.withLimits, Exec.bind_eq_ok, Exec.ok.injEq] at h
  obtain ⟨_, _, _, _, _, _, _, _, rfl⟩ := h
  rfl

variable {c c' : Catalog}

theorem createTableWithLimits_ok {name : String} {schema : List ColumnDef} {limits : TableLimits}
    (h : createTableWithLimits name schema limits c = some (.ok (), c')) :
    ∃ table, Table.withLimits name schema limits = .ok table ∧ c'.found = (published table).applyTo c.found := by
  simp only [createTableWithLimits, bind_eq_ok, read_eq_ok, call_eq_ok, write_eq_ok] at h
  obtain ⟨_, _, ⟨rfl, rfl⟩, _, _, ⟨_, rfl⟩, table, _, ⟨htable, rfl⟩, rfl⟩ := h
  refine ⟨table, htable, ?_⟩
  rw [found_insert, applyTo, withLimits_name htable]

theorem registerTable_ok (h : registerTable table c = some (.ok (), c')) :
    c'.found = (published table).applyTo c.found := by
  simp only [registerTable, bind_eq_ok, read_eq_ok, call_eq_ok, write_eq_ok] at h
  obtain ⟨_, _, ⟨rfl, rfl⟩, _, _, ⟨_, rfl⟩, rfl⟩ := h
  exact found_insert

theorem found_foldl_insert : ∀ (incoming : List Table) (tables : Map String Table),
    found ⟨incoming.foldl (fun tables table => tables.insert (normalize table.name) table) tables⟩ =
      (incoming.map published).foldl applyTo (found ⟨tables⟩)
  | [], _ => rfl
  | table :: incoming, tables => by
    rw [List.foldl_cons, found_foldl_insert incoming, found_insert]; rfl

theorem registerTables_ok {incoming : List Table} (h : registerTables incoming c = some (.ok (), c')) :
    c'.found = (incoming.map published).foldl applyTo c.found := by
  simp only [registerTables, bind_eq_ok, read_eq_ok, call_eq_ok, write_eq_ok] at h
  obtain ⟨_, _, ⟨rfl, rfl⟩, _, _, ⟨_, rfl⟩, rfl⟩ := h
  exact found_foldl_insert incoming _

theorem replaceTable_ok {name : String} {replacement target : Table}
    (h : replaceTable name replacement c = some (.ok target, c')) :
    c.tables.lookup (normalize name) = some target ∧
      c'.found = Function.update c.found (normalize name) (some replacement) := by
  simp only [replaceTable, bind_eq_ok, read_eq_ok, call_eq_ok, write_eq_ok, pure_eq_ok] at h
  obtain ⟨_, _, ⟨rfl, rfl⟩, _, _, ⟨hlookup, rfl⟩, _, _, rfl, rfl, rfl⟩ := h
  exact ⟨getOr_eq_ok.1 hlookup, found_replace (getOr_eq_ok.1 hlookup)⟩

theorem dropTableIfExists_ok {name : String} {existed : Bool} (h : dropTableIfExists name c = some (.ok existed, c')) :
    existed = c.tableExists name ∧ c'.found = (withdrawn name).applyTo c.found := by
  simp only [dropTableIfExists, bind_eq_ok, read_eq_ok, write_eq_ok, pure_eq_ok] at h
  obtain ⟨_, _, ⟨rfl, rfl⟩, _, _, rfl, rfl, rfl⟩ := h
  exact ⟨rfl, found_erase⟩

theorem dropTable_ok {name : String} (h : dropTable name c = some (.ok (), c')) :
    c'.found = (withdrawn name).applyTo c.found := by
  simp only [dropTable, bind_eq_ok] at h
  obtain ⟨existed, _, hdrop, h⟩ := h
  split at h
  · rw [← (pure_eq_ok.1 h).2]
    exact (dropTableIfExists_ok hdrop).2
  · exact absurd (call_eq_ok.1 h).1 (by rintro ⟨⟩)

theorem renameTable_ok {source destination : String} (h : renameTable source destination c = some (.ok (), c')) :
    ∃ table, c.tables.lookup (normalize source) = some table ∧
      c'.found = (published { table with name := destination }).applyTo ((withdrawn source).applyTo c.found) := by
  simp only [renameTable, bind_eq_ok, read_eq_ok, call_eq_ok] at h
  obtain ⟨_, _, ⟨rfl, rfl⟩, _, _, ⟨_, rfl⟩, _, _, ⟨_, rfl⟩, _, _, ⟨_, rfl⟩, table, _, ⟨htable, rfl⟩, h⟩ := h
  have hlookup : c.tables.lookup (normalize source) = some table := orPanic_eq_ok.1 htable
  refine ⟨table, hlookup, ?_⟩
  split at h
  · rename_i hsame
    rw [← write_eq_ok.1 h, found_replace hlookup, applyTo, applyTo]
    show _ = Function.update _ (normalize destination) _
    rw [← hsame, Function.update_idem]; rfl
  · rw [← write_eq_ok.1 h, found_insert, found_erase]; rfl

end Catalog

/-! ## Runs -/

theorem keyed_applyTo {found : String → Option Table} (h : Keyed found) (publication : Publication) :
    Keyed (publication.applyTo found) := by
  intro key table hkey
  cases publication with
  | published table' =>
    by_cases heq : key = normalize table'.name
    · rw [heq, applyTo, Function.update_self] at hkey
      rw [heq, Option.some.inj hkey]
    · rw [applyTo, Function.update_of_ne heq] at hkey
      exact h key table hkey
  | withdrawn name =>
    by_cases heq : key = normalize name
    · rw [heq, applyTo, Function.update_self] at hkey
      exact absurd hkey.symm (Option.some_ne_none _)
    · rw [applyTo, Function.update_of_ne heq] at hkey
      exact h key table hkey

theorem keyed_foldl : ∀ (publications : List Publication) {found : String → Option Table}, Keyed found →
    Keyed (publications.foldl applyTo found)
  | [], _, h => h
  | publication :: publications, _, h => keyed_foldl publications (keyed_applyTo h publication)

theorem keyed_latest (publications : List Publication) : Keyed (latest publications) :=
  keyed_foldl publications fun _ _ h => absurd h.symm (Option.some_ne_none _)

theorem CatalogOperation.run_atomic : ∀ operation : CatalogOperation, Atomic operation.run
  | create name schema limits => Catalog.createTableWithLimits_atomic name schema limits
  | createIfNotExists name schema limits => fun c e c' h =>
    Catalog.createTableIfNotExistsWithLimits_atomic name schema limits c e c'
      (by simpa only [run, bind_eq_error, pure_ne_error, and_false, exists_false, or_false] using h)
  | rename source destination => Catalog.renameTable_atomic source destination
  | drop name => Catalog.dropTable_atomic name
  | dropIfExists name => fun c e c' h => by
    simp only [run, Catalog.dropTableIfExists, bind_eq_error, read_ne_error, write_ne_error, pure_ne_error, and_false,
      exists_false, or_false] at h
  | replace name replacement => fun c e c' h =>
    Catalog.replaceTable_atomic name replacement c e c'
      (by simpa only [run, bind_eq_error, pure_ne_error, and_false, exists_false, or_false] using h)
  | register table => Catalog.registerTable_atomic table
  | registerAll tables => fun c e c' h => by
    obtain ⟨e', hcall, _⟩ := Method.mapError_eq_error.1 h
    exact Catalog.registerTables_atomic tables c e' c' hcall
  | alter _ change => Catalog.tableMut_atomic change.atomic

theorem CatalogOperation.run_ok {c c' : Catalog} (keyed : Keyed c.found) : ∀ {operation : CatalogOperation},
    operation.Admissible c → operation.run c = some (.ok (), c') →
      c'.found = (operation.publications c).foldl applyTo c.found
  | create name schema limits, _, h => by
    obtain ⟨table, htable, hfound⟩ := Catalog.createTableWithLimits_ok h
    simp only [publications, htable]
    exact hfound
  | createIfNotExists name schema limits, _, h => by
    simp only [run, Catalog.createTableIfNotExistsWithLimits, bind_eq_ok, read_eq_ok] at h
    obtain ⟨_, _, ⟨_, _, ⟨rfl, rfl⟩, h⟩, hpure⟩ := h
    obtain rfl := (pure_eq_ok.1 hpure).2
    rw [publications]
    split at h
    · rename_i hexists
      rw [if_pos hexists, ← (pure_eq_ok.1 h).2]; rfl
    · rename_i hmissing
      rw [if_neg hmissing]
      obtain ⟨_, _, hcreate, hpure⟩ := bind_eq_ok.1 h
      rw [(pure_eq_ok.1 hpure).2] at hcreate
      obtain ⟨table, htable, hfound⟩ := Catalog.createTableWithLimits_ok hcreate
      simp only [htable]
      exact hfound
  | rename source destination, _, h => by
    obtain ⟨table, hlookup, hfound⟩ := Catalog.renameTable_ok h
    simp only [publications, hlookup]
    exact hfound
  | drop name, _, h => Catalog.dropTable_ok h
  | dropIfExists name, _, h => by
    simp only [run, bind_eq_ok, pure_eq_ok] at h
    obtain ⟨existed, _, hdrop, _, rfl⟩ := h
    exact (Catalog.dropTableIfExists_ok hdrop).2
  | replace name replacement, hadm, h => by
    simp only [run, bind_eq_ok, pure_eq_ok] at h
    obtain ⟨target, _, hreplace, _, rfl⟩ := h
    obtain ⟨hlookup, hfound⟩ := Catalog.replaceTable_ok hreplace
    have hname : normalize replacement.name = normalize name :=
      (hadm target hlookup).trans (keyed _ _ hlookup).symm
    rw [hfound, ← hname]; rfl
  | register table, _, h => Catalog.registerTable_ok h
  | registerAll tables, _, h => Catalog.registerTables_ok (Method.mapError_eq_ok.1 h)
  | alter name change, _, h => by
    rcases Catalog.tableMut_cases h with ⟨_, herror, _⟩ | ⟨table, table', hlookup, hcall, rfl⟩
    · simp at herror
    · have hname : normalize table'.name = normalize name := by
        rw [show table'.name = table.name from congrArg Prod.fst (change.identity hcall)]
        exact (keyed _ _ hlookup).symm
      simp only [publications, hlookup, hcall]
      rw [Catalog.found_replace hlookup, ← hname]; rfl

theorem CatalogRun.found_eq {publications : List Publication} {c : Catalog} (h : CatalogRun publications c) :
    c.found = latest publications := by
  induction h with
  | new => rfl
  | @succeeded publications c c' operation _ hadm hrun ih =>
    have keyed : Keyed c.found := ih ▸ keyed_latest publications
    rw [CatalogOperation.run_ok keyed hadm hrun, ih, latest, latest, ← List.foldl_append]
  | @failed publications c c' operation e _ _ hrun ih => rw [operation.run_atomic _ _ _ hrun, ih]

theorem normalize_eq_iff {a b : String} : eqIgnoreAsciiCase a b = true ↔ normalize a = normalize b := beq_iff_eq

/-- **The catalog is a map by name.** Keys are lower-case names, so no two tables have the
same one; a lookup finds what was last published; a rename keeps the data; a failure changes
nothing. -/
theorem catalog_by_name {publications : List Publication} {c : Catalog} (h : CatalogRun publications c) :
    (∀ key table, c.tables.lookup key = some table → key = normalize table.name) ∧
    (∀ key₁ key₂ table₁ table₂, c.tables.lookup key₁ = some table₁ → c.tables.lookup key₂ = some table₂ →
      eqIgnoreAsciiCase table₁.name table₂.name = true → key₁ = key₂ ∧ table₁ = table₂) ∧
    (∀ name variant table, eqIgnoreAsciiCase variant name = true →
      (c.table variant = .ok table ↔ latest publications (normalize name) = some table)) ∧
    (∀ source destination c', c.renameTable source destination = some (.ok (), c') →
      ∃ table, c.table source = .ok table ∧ c'.table destination = .ok { table with name := destination } ∧
        (normalize source ≠ normalize destination → c'.table source = .error (.tableNotFound source)) ∧
        ∀ name, normalize name ≠ normalize source → normalize name ≠ normalize destination →
          c'.tables.lookup (normalize name) = c.tables.lookup (normalize name)) ∧
    (∀ (operation : CatalogOperation) e c', operation.run c = some (.error e, c') → c' = c) := by
  have keyed : Keyed c.found := h.found_eq ▸ keyed_latest publications
  refine ⟨keyed, ?_, ?_, ?_, fun operation => operation.run_atomic c⟩
  · intro key₁ key₂ table₁ table₂ h₁ h₂ hname
    have hkeys : key₁ = key₂ := by
      rw [keyed _ _ h₁, keyed _ _ h₂, normalize_eq_iff.1 hname]
    subst hkeys
    exact ⟨rfl, Option.some.inj (h₁.symm.trans h₂)⟩
  · intro name variant table hname
    rw [Catalog.table, getOr_eq_ok, ← normalize_eq_iff.1 hname, ← h.found_eq]; rfl
  · intro source destination c' hrename
    obtain ⟨table, hlookup, hfound⟩ := Catalog.renameTable_ok hrename
    have hfound' : ∀ key, c'.tables.lookup key = _ := fun key => congrFun hfound key
    refine ⟨table, getOr_eq_ok.2 hlookup, getOr_eq_ok.2 ?_, ?_, ?_⟩
    · rw [hfound']; exact Function.update_self _ _ _
    · intro hne
      rw [Catalog.table, hfound', applyTo, Function.update_of_ne hne, applyTo, Function.update_self]; rfl
    · intro name hsource hdestination
      rw [hfound', applyTo, Function.update_of_ne hdestination, applyTo, Function.update_of_ne hsource]; rfl

def CatalogOperation.runAll : List CatalogOperation → List Publication × Catalog → Option (List Publication × Catalog)
  | [], state => some state
  | operation :: operations, (publications, c) =>
    match operation.run c with
    | some (.ok (), c') => runAll operations (publications ++ operation.publications c, c')
    | some (.error _, c') => runAll operations (publications, c')
    | none => none

theorem CatalogRun.runAll {operations : List CatalogOperation} (hadmissible : ∀ operation ∈ operations, ∀ c,
    operation.Admissible c) {publications publications' : List Publication} {c c' : Catalog}
    (h : CatalogRun publications c) (hrun : CatalogOperation.runAll operations (publications, c) = some (publications', c')) :
    CatalogRun publications' c' := by
  induction operations generalizing publications c with
  | nil =>
    obtain ⟨rfl, rfl⟩ := Prod.mk.inj (Option.some.inj hrun)
    exact h
  | cons operation operations ih =>
    obtain ⟨hoperation, hadmissible⟩ := List.forall_mem_cons.1 hadmissible
    rw [CatalogOperation.runAll] at hrun
    split at hrun
    · rename_i hok
      exact ih hadmissible (h.succeeded (hoperation c) hok) hrun
    · rename_i herror
      exact ih hadmissible (h.failed (hoperation c) herror) hrun
    · cases hrun

def sampleOperations : List CatalogOperation :=
  [.create "Events" [⟨"id", .int64⟩] .default, .create "users" [⟨"id", .int64⟩] .default, .rename "events" "EVENTS",
    .drop "USERS", .drop "users"]

theorem sample_run : ∃ publications c table c', CatalogOperation.runAll sampleOperations ([], .new) = some (publications, c) ∧
    c.table "events" = .ok table ∧ table.name = "EVENTS" ∧ c.table "Users" = .error (.tableNotFound "Users") ∧
    c.renameTable "events" "log" = some (.ok (), c') :=
  ⟨_, _, _, _, rfl, rfl, rfl, rfl, rfl⟩

/-- A table that is renamed to a variant of its name is found under every variant, a dropped one is not, and a second
drop changes nothing. -/
theorem catalog_by_name_sample : ∃ publications c table, CatalogRun publications c ∧ table.name = "EVENTS" ∧
    latest publications "events" = some table ∧ c.table "eVENTS" = .ok table ∧ (∀ table, c.table "USERS" ≠ .ok table) ∧
    (∃ c', c.renameTable "events" "log" = some (.ok (), c') ∧ c'.table "log" = .ok { table with name := "log" } ∧
      c'.table "events" = .error (.tableNotFound "events")) := by
  obtain ⟨publications, c, table, c', hrun, htable, hname, habsent, hrename⟩ := sample_run
  have h : CatalogRun publications c := CatalogRun.new.runAll (by simp [sampleOperations, CatalogOperation.Admissible]) hrun
  obtain ⟨-, -, hlatest, hrenamed, -⟩ := catalog_by_name h
  have hpublished := (hlatest "Events" "events" table (by decide)).1 htable
  have habsent : ∀ table, latest publications (normalize "users") ≠ some table := by
    intro table hlookup
    rw [(hlatest "users" "Users" table (by decide)).2 hlookup] at habsent
    cases habsent
  obtain ⟨_, hsource, hdestination, hgone, -⟩ := hrenamed _ _ _ hrename
  cases hsource.symm.trans htable
  refine ⟨publications, c, table, h, hname, hpublished, (hlatest "Events" "eVENTS" table (by decide)).2 hpublished,
    fun table hfound => habsent table ((hlatest "users" "USERS" table (by decide)).1 hfound), c', hrename,
    hdestination, hgone (by decide)⟩

/-! ## No limit on the number of tables -/

def numberedName (n : Nat) : String := String.ofList (List.replicate (n + 1) 't')

theorem normalize_numberedName (n : Nat) : normalize (numberedName n) = numberedName n := by
  rw [normalize, numberedName, toAsciiLowercase, String.toList_ofList, List.map_replicate]; rfl

theorem numberedName_injective {m n : Nat} (h : numberedName m = numberedName n) : m = n := by
  have hlen := congrArg (fun name => name.toList.length) h
  simpa [numberedName] using hlen

theorem validateTableName_numberedName (n : Nat) : validateTableName (numberedName n) = .ok () := by
  have hvalid : isValidSqlIdentifier (numberedName n) = true := by
    rw [isValidSqlIdentifier, numberedName, String.toList_ofList, List.replicate_succ]
    simp [isSqlIdentifierStart, isSqlIdentifierContinue]
  rw [validateTableName, validateSqlIdentifier, rejectIf_eq_ok, not_not]
  exact hvalid

theorem numberedTables : ∀ n, ∃ publications c, CatalogRun publications c ∧ c.tableCount = n ∧
    ∀ m, n ≤ m → numberedName m ∉ c.tables
  | 0 => ⟨[], .new, .new, rfl, fun m _ => AList.notMem_empty _⟩
  | n + 1 => by
    obtain ⟨publications, c, hrun, hcount, hfresh⟩ := numberedTables n
    have hnew : numberedName n ∉ c.tables := hfresh n (Nat.le_refl n)
    obtain ⟨table, htable⟩ : ∃ table, Table.withLimits (numberedName n) [⟨"id", .int64⟩] .default = .ok table := by
      rw [Table.withLimits, validateTableName_numberedName]
      exact ⟨_, rfl⟩
    have hcreate : (CatalogOperation.create (numberedName n) [⟨"id", .int64⟩] .default).run c =
        some (.ok (), ⟨c.tables.insert (normalize (numberedName n)) table⟩) := by
      simp only [CatalogOperation.run, Catalog.createTableWithLimits, bind_eq_ok, read_eq_ok, call_eq_ok, write_eq_ok,
        normalize_numberedName]
      exact ⟨_, _, ⟨rfl, rfl⟩, (), _, ⟨rejectIf_eq_ok.2 hnew, rfl⟩, table, _, ⟨htable, rfl⟩, rfl⟩
    refine ⟨_, _, hrun.succeeded (by trivial) hcreate, ?_, ?_⟩
    · rw [normalize_numberedName, Catalog.tableCount, AList.entries_insert_of_notMem hnew, List.length_cons, ← hcount]; rfl
    · intro m hm
      rw [normalize_numberedName, AList.mem_insert]
      rintro (heq | hmem)
      · have := numberedName_injective heq; omega
      · exact hfresh m (by omega) hmem

/-- **Nothing limits the number of tables.** -/
theorem tableCount_unbounded : ¬ ∃ limit : Nat, ∀ publications c, CatalogRun publications c → c.tableCount ≤ limit := by
  intro ⟨limit, hlimit⟩
  obtain ⟨publications, c, hrun, hcount, _⟩ := numberedTables (limit + 1)
  have hle := hlimit publications c hrun
  rw [hcount] at hle
  exact Nat.not_succ_le_self limit hle

end RustHouse.Batch
