import Mathlib.Logic.Relation
import RustHouse.CatalogSound
import RustHouse.Database
import RustHouse.ShowCreateShape

/-!
# The invariant of databases

The totals of a database are those of its tables, every table is stored under
its name, and every table is consistent. What a call does to a database is a
sequence of steps, each of which creates, drops, renames or changes one table
and moves the totals with it; a call that fails does none.
-/

namespace RustHouse.Batch

open Checked (usizeMax saturatingAdd)
open Exec Words KeyedTotals Method

/-! ## Mutations of a table keep its name and limits -/

namespace Table

variable {α β : Type}

def KeepsIdentity (m : Method Table Error α) : Prop := ∀ t a t', m t = some (.ok a, t') → t'.identity = t.identity

theorem KeepsIdentity.bind {m : Method Table Error α} {f : α → Method Table Error β} (hm : KeepsIdentity m)
    (hf : ∀ a, KeepsIdentity (f a)) : KeepsIdentity (m >>= f) := by
  intro t b t' h
  obtain ⟨a, t₁, hfirst, hrest⟩ := bind_eq_ok.1 h
  exact (hf a _ _ _ hrest).trans (hm _ _ _ hfirst)

theorem keepsIdentity_pure (a : α) : KeepsIdentity (pure a) := fun _ _ _ h => by rw [(pure_eq_ok.1 h).2]

theorem keepsIdentity_mark : KeepsIdentity markValuesMutated := fun _ _ _ h => markValuesMutated_identity h

theorem keepsIdentity_markIf (changed : Prop) [Decidable changed] :
    KeepsIdentity (if changed then markValuesMutated else pure ()) := by
  split
  · exact keepsIdentity_mark
  · exact keepsIdentity_pure ()

theorem appendValidatedRow_identity (row : List Value) : KeepsIdentity (appendValidatedRow row) := by
  intro t a t' h
  simp only [appendValidatedRow, bind_eq_ok, read_eq_ok, call_eq_ok, write_eq_ok] at h
  obtain ⟨_, _, ⟨rfl, rfl⟩, _, _, ⟨_, rfl⟩, rfl⟩ := h
  rfl

theorem appendEach_identity : ∀ rows : List (List Value), KeepsIdentity (appendEach rows)
  | [] => keepsIdentity_pure ()
  | row :: rows => (appendValidatedRow_identity row).bind fun _ => appendEach_identity rows

theorem appendValidatedRows_identity (rows : List (List Value)) : KeepsIdentity (appendValidatedRows rows) :=
  (appendEach_identity rows).bind fun _ => keepsIdentity_markIf _

theorem appendDefaulted_identity (schemaIndexes : List Nat) : ∀ rows : List (List Value),
    KeepsIdentity (appendDefaulted schemaIndexes rows)
  | [] => keepsIdentity_pure ()
  | source :: rows => by
    intro t a t' h
    simp only [appendDefaulted, bind_eq_ok, read_eq_ok, call_eq_ok] at h
    obtain ⟨_, _, ⟨rfl, rfl⟩, row, _, ⟨_, rfl⟩, _, t₁, hrow, hrows⟩ := h
    exact (appendDefaulted_identity schemaIndexes rows _ _ _ hrows).trans (appendValidatedRow_identity row _ _ _ hrow)

theorem appendPreparedInsertRows_identity (prepared : PreparedInsertRows) :
    KeepsIdentity (appendPreparedInsertRows prepared) := by
  rw [appendPreparedInsertRows]
  split
  · exact appendValidatedRows_identity _
  · exact (appendDefaulted_identity _ _).bind fun _ => keepsIdentity_markIf _

theorem replaceColumnValues_identity (column : String) (replacements : List (Nat × Value)) :
    KeepsIdentity (replaceColumnValues column replacements) := by
  intro t a t' h
  simp only [replaceColumnValues, bind_eq_ok, read_eq_ok, call_eq_ok, write_eq_ok] at h
  obtain ⟨_, _, ⟨rfl, rfl⟩, _, _, ⟨_, rfl⟩, _, _, ⟨_, rfl⟩, _, _, ⟨_, rfl⟩, _, _, ⟨_, rfl⟩, _, _, ⟨_, rfl⟩, _, _, ⟨_, rfl⟩,
    _, _, rfl, h⟩ := h
  split at h
  · obtain ⟨_, _, hmark, hpure⟩ := bind_eq_ok.1 h
    rw [← (pure_eq_ok.1 hpure).2, markValuesMutated_identity hmark]; rfl
  · rw [← (pure_eq_ok.1 h).2]; rfl

theorem deleteRows_identity (rowIndexes : List Nat) : KeepsIdentity (deleteRows rowIndexes) := by
  intro t a t' h
  simp only [deleteRows, bind_eq_ok, read_eq_ok, call_eq_ok] at h
  obtain ⟨_, _, ⟨rfl, rfl⟩, _, _, ⟨_, rfl⟩, h⟩ := h
  split at h
  · rw [← (pure_eq_ok.1 h).2]
  · simp only [bind_eq_ok, call_eq_ok, write_eq_ok, pure_eq_ok] at h
    obtain ⟨_, _, ⟨_, rfl⟩, _, _, rfl, _, _, hmark, _, rfl⟩ := h
    rw [markValuesMutated_identity hmark]; rfl

theorem truncate_identity : KeepsIdentity truncate := by
  intro t a t' h
  simp only [truncate, bind_eq_ok, read_eq_ok, write_eq_ok] at h
  obtain ⟨_, _, ⟨rfl, rfl⟩, _, _, rfl, h⟩ := h
  split at h
  · obtain ⟨_, _, hmark, hpure⟩ := bind_eq_ok.1 h
    rw [← (pure_eq_ok.1 hpure).2, markValuesMutated_identity hmark]; rfl
  · rw [← (pure_eq_ok.1 h).2]; rfl

theorem tryCreateInt64MinMaxIndex_identity (column : String) (limits : Int64MinMaxIndexLimits) :
    KeepsIdentity (tryCreateInt64MinMaxIndex column limits) := by
  intro t a t' h
  simp only [tryCreateInt64MinMaxIndex, bind_eq_ok, read_eq_ok, call_eq_ok] at h
  obtain ⟨_, _, ⟨rfl, rfl⟩, index, _, ⟨_, rfl⟩, _, _, ⟨_, rfl⟩, _, _, ⟨_, rfl⟩, h⟩ := h
  split at h
  · rw [← (pure_eq_ok.1 h).2]
  · revert h
    cases t.buildInt64MinMaxIndex index limits with
    | ok built =>
      intro h
      simp only [bind_eq_ok, write_eq_ok, call_eq_ok, pure_eq_ok] at h
      obtain ⟨_, _, rfl, _, _, ⟨_, rfl⟩, _, rfl⟩ := h
      rfl
    | error rejection => intro h; rw [← (pure_eq_ok.1 h).2]
    | panic => intro h; exact absurd (call_eq_ok.1 h).1 (Exec.ok_ne_panic _).symm

theorem dropInt64MinMaxIndex_identity : KeepsIdentity dropInt64MinMaxIndex := by
  intro t a t' h
  simp only [dropInt64MinMaxIndex, bind_eq_ok, read_eq_ok, write_eq_ok, pure_eq_ok] at h
  obtain ⟨_, _, ⟨rfl, rfl⟩, _, _, rfl, _, rfl⟩ := h
  rfl

end Table

/-! ## Good tables -/

/-- A consistent table that one batch of statements creates again, with limits that are accepted. -/
def Good (accepts : TableLimits → Prop) (t : Table) : Prop :=
  ∃ declared, Table.Consistent declared t ∧ Showable declared ∧ isValidSqlIdentifier t.name ∧ accepts t.limits

/-- A method of a table that ends in a good table of the same name, or fails and changes nothing. -/
def ChangesTable {α : Type} (accepts : TableLimits → Prop) (m : Method Table Error α) (t : Table) : Prop :=
  wlp m (fun _ t' => Good accepts t' ∧ t'.name = t.name) (fun _ t' => t' = t) t

section
variable {accepts : TableLimits → Prop} {t : Table} {α : Type}

theorem Good.named (h : Good accepts t) {name : String} (hname : isValidSqlIdentifier name) :
    Good accepts { t with name } := by
  obtain ⟨declared, hconsistent, hshowable, _, hlimits⟩ := h
  exact ⟨declared, { hconsistent with }, hshowable, hname, hlimits⟩

theorem changesTable_of_wp {m : Method Table Error α} {declared' : List Declared} (hshowable : Showable declared')
    (hname : isValidSqlIdentifier t.name) (hlimits : accepts t.limits)
    (hwp : wp m (fun _ t' => Table.Consistent declared' t') (fun _ t' => t' = t) t) (hid : Table.KeepsIdentity m) :
    ChangesTable accepts m t := by
  refine wlp_of_wp (wp_mono (wp_and hwp fun a t' hm => hid t a t' hm) (fun _ t' ht' => ?_) fun _ _ he => he)
  have hidentity : t'.name = t.name ∧ t'.limits = t.limits := Prod.mk.inj ht'.2
  refine ⟨⟨declared', ht'.1, hshowable, ?_, ?_⟩, hidentity.1⟩
  · rw [hidentity.1]; exact hname
  · rw [hidentity.2]; exact hlimits

theorem Good.changes {m : Method Table Error α} (h : Good accepts t)
    (hkeeps : ∀ declared, Table.Consistent declared t → Table.Keeps declared m t) (hid : Table.KeepsIdentity m) :
    ChangesTable accepts m t := by
  obtain ⟨declared, hconsistent, hshowable, hname, hlimits⟩ := h
  exact changesTable_of_wp hshowable hname hlimits (hkeeps declared hconsistent) hid

theorem Good.appends (h : Good accepts t) {prepared : PreparedInsertRows}
    (hroom : Table.HasRoom t prepared.rows.length)
    (hadmits : ∀ declared, Table.Consistent declared t → Table.AdmitsPrepared declared prepared) :
    ChangesTable accepts (Table.appendPreparedInsertRows prepared) t :=
  h.changes (fun declared hconsistent =>
    wp_mono (Table.appendPreparedInsertRows_wp hconsistent (Nat.add_zero prepared.rows.length ▸ hroom)
      (hadmits declared hconsistent)) (fun _ _ h => h.1) fun _ _ he => he)
    (Table.appendPreparedInsertRows_identity prepared)

end

/-! ## Steps -/

/-- The totals, computed from the tables. -/
def DatabaseMeasurements.ofTables (tables : Map String Table) : DatabaseMeasurements where
  columnCount := total (fun table => table.schema.length) tables
  retainedRowCount := total Table.rowCount tables
  retainedValueBytes := total Table.retainedValueBytes tables

namespace DatabaseMeasurements

theorem ext {m n : DatabaseMeasurements} (hcolumns : m.columnCount = n.columnCount)
    (hrows : m.retainedRowCount = n.retainedRowCount) (hbytes : m.retainedValueBytes = n.retainedValueBytes) : m = n := by
  cases m
  cases n
  simp_all

variable {tables : Map String Table} {key : String} {table : Table}

theorem inserted_total (f : Table → Nat) (h : key ∉ tables) : total f (tables.insert key table) = total f tables + f table :=
  (total_insert f table h).trans (Nat.add_comm _ _)

theorem erased_total (f : Table → Nat) (h : tables.lookup key = some table) :
    total f (tables.erase key) = total f tables - f table :=
  Nat.eq_sub_of_add_eq (total_erase f h)

theorem replaced_total (f : Table → Nat) (table' : Table) (h : tables.lookup key = some table) :
    total f (tables.replace key table') = total f tables - f table + f table' := by
  have hreplace := total_replace f table' h
  have hle := le_total f h
  omega

theorem ofTables_insert (h : key ∉ tables) : ofTables (tables.insert key table) = (ofTables tables).add (.read table) :=
  ext (inserted_total (fun table => table.schema.length) h) (inserted_total Table.rowCount h)
    (inserted_total Table.retainedValueBytes h)

theorem ofTables_erase (h : tables.lookup key = some table) :
    ofTables (tables.erase key) = (ofTables tables).subtract (.read table) :=
  ext (erased_total (fun table => table.schema.length) h) (erased_total Table.rowCount h)
    (erased_total Table.retainedValueBytes h)

theorem ofTables_replace (table' : Table) (h : tables.lookup key = some table) :
    ofTables (tables.replace key table') = (ofTables tables).replace (.read table) (.read table') :=
  ext (replaced_total (fun table => table.schema.length) table' h) (replaced_total Table.rowCount table' h)
    (replaced_total Table.retainedValueBytes table' h)

theorem replace_self (h : tables.lookup key = some table) :
    (ofTables tables).replace (.read table) (.read table) = ofTables tables := by
  rw [← ofTables_replace table h, KeyedTotals.replace_self h]

end DatabaseMeasurements

/-- The tables of a database and their totals. -/
abbrev Core := Catalog × DatabaseMeasurements

def Database.core (db : Database) : Core := (db.catalog, db.measurements)

/-- **The invariant of databases.** -/
structure Sound (accepts : TableLimits → Prop) (core : Core) : Prop where
  measured : core.2 = .ofTables core.1.tables
  keyed : Keyed core.1.found
  good : ∀ key table, core.1.tables.lookup key = some table → Good accepts table

inductive Step (accepts : TableLimits → Prop) : Core → Core → Prop
  | registered {c : Catalog} {m : DatabaseMeasurements} {table : Table} : Good accepts table →
      normalize table.name ∉ c.tables →
      Step accepts (c, m) (⟨c.tables.insert (normalize table.name) table⟩, m.add (.read table))
  | dropped {c : Catalog} {m : DatabaseMeasurements} {key : String} {table : Table} : c.tables.lookup key = some table →
      Step accepts (c, m) (⟨c.tables.erase key⟩, m.subtract (.read table))
  | renamed {c c' : Catalog} {m : DatabaseMeasurements} {source destination : String} :
      c.renameTable source destination = some (.ok (), c') → Step accepts (c, m) (c', m)
  | changed {c : Catalog} {m : DatabaseMeasurements} {key : String} {table table' : Table} :
      c.tables.lookup key = some table → Good accepts table' → table'.name = table.name →
      Step accepts (c, m) (⟨c.tables.replace key table'⟩, m.replace (.read table) (.read table'))

section
variable {accepts : TableLimits → Prop}

theorem keyed_update {found : String → Option Table} {key : String} {table : Table} (h : Keyed found)
    (hkey : key = normalize table.name) : Keyed (Function.update found key (some table)) := by
  intro j table' hj
  by_cases heq : j = key
  · subst heq
    rw [Function.update_self] at hj
    rw [hkey, Option.some.inj hj]
  · rw [Function.update_of_ne heq] at hj
    exact h j table' hj

theorem good_update {found : String → Option Table} {key : String} {table : Table}
    (h : ∀ key table, found key = some table → Good accepts table) (hgood : Good accepts table) :
    ∀ j table', Function.update found key (some table) j = some table' → Good accepts table' := by
  intro j table' hj
  by_cases heq : j = key
  · subst heq
    rw [Function.update_self] at hj
    exact Option.some.inj hj ▸ hgood
  · rw [Function.update_of_ne heq] at hj
    exact h j table' hj

theorem renamed_valid {c c' : Catalog} {source destination : String}
    (h : c.renameTable source destination = some (.ok (), c')) : isValidSqlIdentifier destination := by
  simp only [Catalog.renameTable, bind_eq_ok, read_eq_ok, call_eq_ok] at h
  obtain ⟨_, _, ⟨rfl, rfl⟩, _, _, ⟨_, rfl⟩, _, _, ⟨_, rfl⟩, _, _, ⟨hvalid, rfl⟩, _⟩ := h
  exact not_not.1 (rejectIf_eq_ok.1 hvalid)

theorem renamed_total {c c' : Catalog} {source destination : String} (f : Table → Nat)
    (hf : ∀ t : Table, f (t.setName destination) = f t)
    (h : c.renameTable source destination = some (.ok (), c')) : total f c'.tables = total f c.tables := by
  simp only [Catalog.renameTable, bind_eq_ok, read_eq_ok, call_eq_ok] at h
  obtain ⟨_, _, ⟨rfl, rfl⟩, _, _, ⟨_, rfl⟩, _, _, ⟨htaken, rfl⟩, _, _, ⟨_, rfl⟩, table, _, ⟨htable, rfl⟩, h⟩ := h
  have hlookup := orPanic_eq_ok.1 htable
  split at h
  · rw [← write_eq_ok.1 h]
    have := total_replace f (table.setName destination) hlookup
    rw [hf] at this
    exact Nat.add_right_cancel this
  · rename_i hne
    rw [← write_eq_ok.1 h]
    have hfresh : normalize destination ∉ c.tables.erase (normalize source) := by
      rw [AList.mem_erase]
      rw [rejectIf_eq_ok] at htaken
      exact fun hmem => htaken ⟨hne, hmem.2⟩
    show total f (AList.insert _ _ _) = _
    rw [total_insert f _ hfresh, hf, Nat.add_comm]
    exact total_erase f hlookup

theorem Step.sound {core core' : Core} (hstep : Step accepts core core') (h : Sound accepts core) : Sound accepts core' := by
  cases hstep with
  | @registered c m table hgood hfresh =>
    have hmeasured : m = .ofTables c.tables := h.measured
    refine ⟨?_, ?_, ?_⟩
    · exact hmeasured ▸ (DatabaseMeasurements.ofTables_insert hfresh).symm
    · rw [Catalog.found_insert]
      exact keyed_update h.keyed rfl
    · show ∀ key table, Catalog.found _ key = some table → _
      rw [Catalog.found_insert]
      exact good_update h.good hgood
  | @dropped c m key table hlookup =>
    have hmeasured : m = .ofTables c.tables := h.measured
    have hkept : ∀ j table', Catalog.found ⟨c.tables.erase key⟩ j = some table' → c.tables.lookup j = some table' := by
      intro j table' hj
      rw [Catalog.found_erase, Function.update_apply] at hj
      split at hj
      · cases hj
      · exact hj
    refine ⟨?_, fun j table' hj => h.keyed j table' (hkept j table' hj), fun j table' hj => h.good j table' (hkept j table' hj)⟩
    exact hmeasured ▸ (DatabaseMeasurements.ofTables_erase hlookup).symm
  | @renamed c c' m source destination hrename =>
    have hmeasured : m = .ofTables c.tables := h.measured
    obtain ⟨table, hlookup, hfound⟩ := Catalog.renameTable_ok hrename
    refine ⟨?_, ?_, ?_⟩
    · rw [hmeasured]
      exact (DatabaseMeasurements.ext (renamed_total (fun table => table.schema.length) (fun _ => rfl) hrename)
        (renamed_total Table.rowCount (fun _ => rfl) hrename)
        (renamed_total Table.retainedValueBytes (fun _ => rfl) hrename)).symm
    · rw [hfound]
      exact keyed_applyTo (keyed_applyTo h.keyed _) _
    · show ∀ key table, c'.found key = some table → _
      rw [hfound]
      refine good_update (fun key table' hkey => ?_) ((h.good _ _ hlookup).named (renamed_valid hrename))
      rw [Publication.applyTo, Function.update_apply] at hkey
      split at hkey
      · cases hkey
      · exact h.good key table' hkey
  | @changed c m key table table' hlookup hgood hname =>
    have hmeasured : m = .ofTables c.tables := h.measured
    refine ⟨?_, ?_, ?_⟩
    · exact hmeasured ▸ (DatabaseMeasurements.ofTables_replace table' hlookup).symm
    · rw [Catalog.found_replace hlookup]
      exact keyed_update h.keyed (by rw [hname]; exact h.keyed _ _ hlookup)
    · show ∀ key table, Catalog.found _ key = some table → _
      rw [Catalog.found_replace hlookup]
      exact good_update h.good hgood

theorem Sound.steps {core core' : Core} (h : Sound accepts core) (hsteps : Relation.ReflTransGen (Step accepts) core core') :
    Sound accepts core' := by
  induction hsteps with
  | refl => exact h
  | tail _ hstep ih => exact hstep.sound ih

theorem sound_new : Sound accepts (.new, .zero) where
  measured := rfl
  keyed _ _ h := absurd h.symm (Option.some_ne_none _)
  good _ _ h := absurd h.symm (Option.some_ne_none _)

end

/-! ## Calls -/

/-- The tables, the totals and the limits of new tables are as before. -/
def Untouched (db db' : Database) : Prop := db'.core = db.core ∧ db'.tableLimits = db.tableLimits

/-- Steps lead from one database to the other. -/
def Moves (accepts : TableLimits → Prop) (db db' : Database) : Prop :=
  Relation.ReflTransGen (Step accepts) db.core db'.core ∧ db'.tableLimits = db.tableLimits

/-- A call that moves the database, or fails and leaves it untouched. -/
def Atomically {ε α : Type} (accepts : TableLimits → Prop) (m : Method Database ε α) (db : Database) : Prop :=
  wlp m (fun _ db' => Moves accepts db db') (fun _ db' => Untouched db db') db

/-- A call that leaves the database untouched whether it succeeds or fails. -/
def Quiet {ε α : Type} (m : Method Database ε α) (db : Database) : Prop :=
  wlp m (fun _ db' => Untouched db db') (fun _ db' => Untouched db db') db

section
variable {accepts : TableLimits → Prop} {db db' db'' : Database} {ε α β : Type}

theorem Untouched.refl (db : Database) : Untouched db db := ⟨rfl, rfl⟩

theorem Untouched.trans (h : Untouched db db') (h' : Untouched db' db'') : Untouched db db'' :=
  ⟨h'.1.trans h.1, h'.2.trans h.2⟩

theorem Untouched.moves (h : Untouched db db') : Moves accepts db db' := ⟨h.1 ▸ .refl, h.2⟩

theorem Untouched.moves_trans (h : Untouched db db') (h' : Moves accepts db' db'') : Moves accepts db db'' :=
  ⟨h.1 ▸ h'.1, h'.2.trans h.2⟩

theorem Untouched.sound (h : Untouched db db') (hsound : Sound accepts db.core) : Sound accepts db'.core := h.1 ▸ hsound

theorem Moves.trans (h : Moves accepts db db') (h' : Moves accepts db' db'') : Moves accepts db db'' :=
  ⟨h.1.trans h'.1, h'.2.trans h.2⟩

theorem Atomically.steps {m : Method Database ε α} {outcome : Except ε α} (h : Atomically accepts m db)
    (hrun : m db = some (outcome, db')) : Moves accepts db db' := by
  cases outcome with
  | ok a => exact (wlp_iff.1 h).1 _ _ hrun
  | error e => exact ((wlp_iff.1 h).2 _ _ hrun).moves

theorem atomically_pure (a : α) : Atomically accepts (pure a : Method Database ε α) db :=
  wlp_pure a |>.2 (Untouched.refl db).moves

theorem atomically_call (x : Exec ε α) : Atomically accepts (call x) db :=
  wlp_call.2 ⟨fun _ _ => (Untouched.refl db).moves, fun _ _ => .refl db⟩

theorem atomically_read {f : Database → Method Database ε α} (h : Atomically accepts (f db) db) :
    Atomically accepts (read >>= f) db :=
  wlp_bind.2 h

theorem atomically_check {x : Exec ε β} {f : β → Method Database ε α}
    (h : ∀ b, x = .ok b → Atomically accepts (f b) db) : Atomically accepts (call x >>= f) db :=
  wlp_bind.2 (wlp_call.2 ⟨h, fun _ _ => .refl db⟩)

theorem Atomically.returns {m : Method Database ε β} (h : Atomically accepts m db) (f : β → α) :
    Atomically accepts (m >>= fun b => pure (f b)) db :=
  wlp_bind.2 h

theorem Atomically.mapError {δ : Type} {m : Method Database ε α} (h : Atomically accepts m db) (f : ε → δ) :
    Atomically accepts (mapError f m) db :=
  wlp_mapError.2 h

theorem Quiet.mapError {δ : Type} {m : Method Database ε α} (h : Quiet m db) (f : ε → δ) : Quiet (mapError f m) db :=
  wlp_mapError.2 h

theorem quiet_pure (a : α) : Quiet (pure a : Method Database ε α) db := wlp_pure a |>.2 (.refl db)

theorem Quiet.andThen {m : Method Database ε β} {f : β → Method Database ε α} (h : Quiet m db)
    (hf : ∀ b db', Untouched db db' → Atomically accepts (f b) db') : Atomically accepts (m >>= f) db :=
  wlp_bind.2 (wlp_mono h (fun b db' hdb' => wlp_mono (hf b db' hdb') (fun _ _ h => hdb'.moves_trans h)
    fun _ _ h => hdb'.trans h) fun _ _ he => he)

theorem atomically_tableMut {m : Method Table Error α} {name : String} (hsound : Sound accepts db.core)
    (hm : ∀ table, db.catalog.tables.lookup (normalize name) = some table → ChangesTable accepts m table) :
    Atomically accepts (Database.tableMut name m) db := by
  unfold Atomically wlp Database.tableMut
  cases hlookup : db.catalog.tables.lookup (normalize name) with
  | none => exact .refl db
  | some table =>
    have htable := hm table hlookup
    have hmeasured : db.measurements = .ofTables db.catalog.tables := hsound.measured
    unfold ChangesTable wlp at htable
    dsimp only
    revert htable
    rcases m table with _ | ⟨_ | _, table'⟩ <;> intro htable
    · trivial
    · -- The table is put back as it was, and the totals move by nothing.
      obtain rfl : table' = table := htable
      refine ⟨Prod.ext (Catalog.ext (KeyedTotals.replace_self hlookup)) ?_, rfl⟩
      show db.measurements.replace _ _ = db.measurements
      rw [hmeasured, DatabaseMeasurements.replace_self hlookup]
    · exact ⟨.single (.changed hlookup htable.1 htable.2), rfl⟩

/-- A complete table becomes part of the database, or its name is taken. -/
theorem atomically_registerTable {table : Table} (hgood : Good accepts table) :
    Atomically accepts (Database.registerTable table) db := by
  refine wlp_bind.2 (wlp_zoom.2 (wlp_iff.2 ⟨fun _ c hregister => ?_, fun _ c hregister => ?_⟩))
  · obtain ⟨_, _, hread, hregister⟩ := bind_eq_ok.1 hregister
    obtain ⟨rfl, rfl⟩ := read_eq_ok.1 hread
    obtain ⟨_, _, hcheck, hregister⟩ := bind_eq_ok.1 hregister
    obtain ⟨hfresh, rfl⟩ := call_eq_ok.1 hcheck
    obtain rfl := write_eq_ok.1 hregister
    exact ⟨.single (.registered hgood (rejectIf_eq_ok.1 hfresh)), rfl⟩
  · rw [Catalog.registerTable_atomic table _ _ _ hregister]
    exact .refl db

/-! ## Logs -/

theorem quiet_logInt64 (io : CommitIo) (tableName : String) (mutation : WalMutation) :
    Quiet (Database.logInt64 io tableName mutation) db := by
  unfold Quiet wlp Database.logInt64
  cases db.int64WriteAheadLog.filter fun logs => logs.tracks tableName with
  | none => exact .refl db
  | some logs =>
    dsimp only
    rcases logs.log io tableName mutation with _ | ⟨logs', _ | _⟩
    · trivial
    · exact ⟨rfl, rfl⟩
    · exact ⟨rfl, rfl⟩

theorem quiet_logPreparedInt64Append (io : CommitIo) (tableName : String) (rows : PreparedInsertRows) :
    Quiet (Database.logPreparedInt64Append io tableName rows) db := by
  refine wlp_bind.2 (wlp_read.2 ?_)
  split
  · refine wlp_bind.2 (wlp_call.2 ⟨fun values _ => quiet_logInt64 io tableName _, fun _ _ => .refl db⟩)
  · exact quiet_pure ()

end

end RustHouse.Batch
