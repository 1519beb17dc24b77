import RustHouse.KeyedTotals
import RustHouse.TableMutations

/-!
# The catalog

The named tables of a database, each stored under its name in lower case. The
name of a table is also kept inside it, in the spelling it was created or last
renamed with.
-/

namespace RustHouse.Batch

open Checked Exec Words KeyedTotals

def normalize (identifier : String) : String := toAsciiLowercase identifier

structure Catalog where
  tables : Map String Table

namespace Catalog

open Method

def new : Catalog := ⟨∅⟩

/-! ## Lookup -/

def tableExists (c : Catalog) (name : String) : Bool := decide (normalize name ∈ c.tables)

def table (c : Catalog) (name : String) : Exec Error Table :=
  getOr (c.tables.lookup (normalize name)) (.tableNotFound name)

def tableMut {α : Type} (name : String) (m : Method Table Error α) : Method Catalog Error α := fun c =>
  match c.tables.lookup (normalize name) with
  | none => some (.error (.tableNotFound name), c)
  | some table => (m table).map fun outcome => (outcome.1, ⟨c.tables.replace (normalize name) outcome.2⟩)

def int64MinMaxIndexOwner (c : Catalog) : Option String :=
  (c.tables.entries.find? fun entry => entry.2.int64MinMaxIndex.isSome).map fun entry => entry.2.name

/-! ## Registration -/

def createTableWithLimits (name : String) (schema : List ColumnDef) (limits : TableLimits) :
    Method Catalog Error Unit := do
  let c ← read
  let key := normalize name
  call (rejectIf (key ∈ c.tables) (.tableAlreadyExists name))
  let table ← call (Table.withLimits name schema limits)
  write ⟨c.tables.insert key table⟩

def createTableIfNotExistsWithLimits (name : String) (schema : List ColumnDef) (limits : TableLimits) :
    Method Catalog Error Bool := do
  let c ← read
  if c.tableExists name then return false
  createTableWithLimits name schema limits
  return true

/-- Registers a complete table; an existing one is never replaced. -/
def registerTable (table : Table) : Method Catalog Error Unit := do
  let c ← read
  let key := normalize table.name
  call (rejectIf (key ∈ c.tables) (.tableAlreadyExists table.name))
  write ⟨c.tables.insert key table⟩

/-- Swaps a complete table into an existing place; the caller keeps the name. -/
def replaceTable (name : String) (replacement : Table) : Method Catalog Error Table := do
  let c ← read
  let target ← call (getOr (c.tables.lookup (normalize name)) (.tableNotFound name))
  write ⟨c.tables.replace (normalize name) replacement⟩
  return target

def preflightNames (c : Catalog) (incomingNames : List String) (index : Nat) : List Table → Exec (Nat × Error) Unit
  | [] => .ok ()
  | table :: tables => do
    let key := normalize table.name
    rejectIf (key ∈ c.tables ∨ key ∈ incomingNames) (index, .tableAlreadyExists table.name)
    preflightNames c (key :: incomingNames) (index + 1) tables

/-- Registers all the tables or none; the error carries the index of the first one rejected. -/
def registerTables (tables : List Table) : Method Catalog (Nat × Error) Unit := do
  let c ← read
  call (c.preflightNames [] 0 tables)
  write ⟨tables.foldl (fun tables table => tables.insert (normalize table.name) table) c.tables⟩

/-! ## Removal and renaming -/

def dropTableIfExists (name : String) : Method Catalog Error Bool := do
  let c ← read
  write ⟨c.tables.erase (normalize name)⟩
  return c.tableExists name

def dropTable (name : String) : Method Catalog Error Unit := do
  if ← dropTableIfExists name then return ()
  call (.error (.tableNotFound name))

/-- Renames a table; with one key for both names only the spelling changes. -/
def renameTable (source destination : String) : Method Catalog Error Unit := do
  let c ← read
  let sourceKey := normalize source
  let destinationKey := normalize destination
  call (rejectIf (sourceKey ∉ c.tables) (.tableNotFound source))
  call (rejectIf (sourceKey ≠ destinationKey ∧ destinationKey ∈ c.tables) (.tableAlreadyExists destination))
  call (validateTableName destination)
  let table ← call (orPanic (c.tables.lookup sourceKey))
  if sourceKey = destinationKey then
    write ⟨c.tables.replace sourceKey (table.setName destination)⟩
  else
    write ⟨(c.tables.erase sourceKey).insert destinationKey (table.setName destination)⟩

/-! ## Columns -/

def renameColumn (table source destination : String) : Method Catalog Error Unit :=
  tableMut table (Table.renameColumn source destination)

def addColumn (table : String) (column : ColumnDef) : Method Catalog Error Unit :=
  tableMut table (Table.addColumn column)

def addNullableInt64Column (table column : String) : Method Catalog Error Unit :=
  tableMut table (Table.addNullableInt64Column column)

def dropColumn (table column : String) : Method Catalog Error Unit := tableMut table (Table.dropColumn column)

/-! ## Totals -/

def tableCount (c : Catalog) : Nat := c.tables.entries.length

def columnCount (c : Catalog) : Nat :=
  (c.tables.entries.map fun entry => entry.2.schema.length).foldl saturatingAdd 0

def retainedRowCount (c : Catalog) : Nat := (c.tables.entries.map fun entry => entry.2.rowCount).foldl saturatingAdd 0

def retainedValueBytes (c : Catalog) : Nat :=
  min ((c.tables.entries.map fun entry => entry.2.retainedValueBytes).foldl (· + ·) 0) usizeMax

end Catalog

end RustHouse.Batch
