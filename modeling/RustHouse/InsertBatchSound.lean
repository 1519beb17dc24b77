import RustHouse.DatabaseSound

/-!
# Batches of INSERT

All rows of a batch are prepared before any is applied, and each statement is
only accepted with room for the rows before it. What was prepared is applied
without a failure.
-/

namespace RustHouse.Batch

open Checked (usizeMax saturatingAdd)
open Exec Words KeyedTotals Method

namespace Database

section
variable {accepts : TableLimits → Prop} {db : Database}

/-! ## What is prepared -/

def batchRows (key : String) (prepared : List PreparedInsert) : Nat :=
  ((prepared.filter fun insert => normalize insert.1 = key).map fun insert => insert.2.rows.length).sum

theorem batchRows_cons (key : String) (insert : PreparedInsert) (prepared : List PreparedInsert) :
    batchRows key (insert :: prepared) =
      (if normalize insert.1 = key then insert.2.rows.length else 0) + batchRows key prepared := by
  rw [batchRows, List.filter_cons]
  by_cases hkey : normalize insert.1 = key
  · rw [if_pos (decide_eq_true hkey), if_pos hkey, List.map_cons, List.sum_cons]
    rfl
  · rw [if_neg (by rw [decide_eq_false hkey]; exact Bool.false_ne_true), if_neg hkey, Nat.zero_add]
    rfl

def earlierRows (incomingRowsByTable : Map String Nat) (key : String) : Nat := (incomingRowsByTable.lookup key).getD 0

/-- A prepared insert into a table that the catalog has, with rows that the table takes. -/
def Admitted (c : Catalog) (insert : PreparedInsert) : Prop :=
  ∃ table, c.tables.lookup (normalize insert.1) = some table ∧
    ∀ declared, Table.Consistent declared table → Table.AdmitsPrepared declared insert.2

theorem prepareInsertStatements_ok {c : Catalog} (hgood : ∀ key table, c.tables.lookup key = some table → Good accepts table)
    {statements : List Statement} {incoming : Map String Nat} {prepared : List PreparedInsert}
    (h : prepareInsertStatements c incoming statements = .ok prepared) :
    (∀ insert ∈ prepared, Admitted c insert) ∧
      ∀ key table, c.tables.lookup key = some table → Table.HasRoom table (earlierRows incoming key) →
        Table.HasRoom table (earlierRows incoming key + batchRows key prepared) := by
  induction statements generalizing incoming prepared with
  | nil =>
    obtain rfl := Exec.ok.inj h
    exact ⟨List.forall_mem_nil _, fun _ _ _ hroom => hroom⟩
  | cons statement statements ih =>
    obtain ⟨⟨name, columns, rows⟩, _, h⟩ := Exec.bind_eq_ok.1 h
    obtain ⟨target, htarget, h⟩ := Exec.bind_eq_ok.1 h
    obtain ⟨insert, hprepare, h⟩ := Exec.bind_eq_ok.1 h
    obtain ⟨rest, hrest, h⟩ := Exec.bind_eq_ok.1 h
    obtain rfl := Exec.ok.inj h
    have hlookup : c.tables.lookup (normalize name) = some target := getOr_eq_ok.1 htarget
    have hspec : ∀ declared, Table.Consistent declared target → _ := fun declared hconsistent =>
      (Table.prepareInsertRows_spec hconsistent columns rows _).2 insert hprepare
    obtain ⟨declared, hconsistent, _⟩ := hgood _ _ hlookup
    obtain ⟨hcumulative, hrows, _⟩ := hspec declared hconsistent
    obtain ⟨hadmitted, hroom⟩ := ih hrest
    refine ⟨List.forall_mem_cons.2 ⟨⟨target, hlookup, fun declared h => (hspec declared h).2.2⟩, hadmitted⟩, ?_⟩
    intro key table htable hearlier
    rw [batchRows_cons]
    by_cases hkey : normalize name = key
    · subst hkey
      obtain rfl := Option.some.inj (hlookup.symm.trans htable)
      rw [if_pos rfl, ← Nat.add_assoc, hrows]
      have hnow := hroom _ _ htable
      rw [earlierRows, show normalize name = toAsciiLowercase name from rfl, AList.lookup_insert] at hnow
      exact hnow hcumulative
    · rw [if_neg hkey, Nat.zero_add]
      have hnow := hroom key table htable
      rw [earlierRows, AList.lookup_insert_ne (show key ≠ toAsciiLowercase name from Ne.symm hkey)] at hnow
      exact hnow hearlier

/-! ## What is applied -/

/-- Every target has a table that takes all the rows for it. -/
def Ready (accepts : TableLimits → Prop) (found : String → Option Table) (prepared : List PreparedInsert) : Prop :=
  ∀ insert ∈ prepared, ∃ table declared, found (normalize insert.1) = some table ∧ Table.Consistent declared table ∧
    Showable declared ∧ isValidSqlIdentifier table.name ∧ accepts table.limits ∧
    Table.HasRoom table (batchRows (normalize insert.1) prepared) ∧
    ∀ other ∈ prepared, normalize other.1 = normalize insert.1 → Table.AdmitsPrepared declared other.2

theorem ready_of_prepared {c : Catalog} {statements : List Statement} {prepared : List PreparedInsert}
    (hgood : ∀ key table, c.tables.lookup key = some table → Good accepts table)
    (h : prepareInsertStatements c ∅ statements = .ok prepared) : Ready accepts c.found prepared := by
  obtain ⟨hadmitted, hroom⟩ := prepareInsertStatements_ok hgood h
  intro insert hinsert
  obtain ⟨table, hlookup, _⟩ := hadmitted insert hinsert
  obtain ⟨declared, hconsistent, hshowable, hname, hlimits⟩ := hgood _ _ hlookup
  have hbatch := hroom _ _ hlookup hconsistent.hasRoom
  rw [show earlierRows ∅ (normalize insert.1) = 0 from rfl, Nat.zero_add] at hbatch
  refine ⟨table, declared, hlookup, hconsistent, hshowable, hname, hlimits, hbatch, fun other hother hkey => ?_⟩
  obtain ⟨table', hlookup', hadmits⟩ := hadmitted other hother
  rw [hkey] at hlookup'
  obtain rfl := Option.some.inj (hlookup.symm.trans hlookup')
  exact hadmits declared hconsistent

theorem Ready.rest {c : Catalog} {insert : PreparedInsert} {prepared : List PreparedInsert} {table table' : Table}
    {declared : List Declared} (h : Ready accepts c.found (insert :: prepared))
    (hlookup : c.tables.lookup (normalize insert.1) = some table)
    (hconsistent : Table.Consistent declared table') (hidentity : table'.identity = table.identity)
    (hshowable : Showable declared) (hname : isValidSqlIdentifier table.name) (hlimits : accepts table.limits)
    (hroom : Table.HasRoom table' (batchRows (normalize insert.1) prepared))
    (hadmits : ∀ other ∈ prepared, normalize other.1 = normalize insert.1 → Table.AdmitsPrepared declared other.2) :
    Ready accepts (Catalog.found ⟨c.tables.replace (normalize insert.1) table'⟩) prepared := by
  obtain ⟨hname', hlimits'⟩ : table'.name = table.name ∧ table'.limits = table.limits := Prod.mk.inj hidentity
  intro next hnext
  rw [Catalog.found_replace hlookup, Function.update_apply]
  by_cases hkey : normalize next.1 = normalize insert.1
  · rw [if_pos hkey]
    exact ⟨table', declared, rfl, hconsistent, hshowable, hname' ▸ hname, hlimits' ▸ hlimits, hkey ▸ hroom,
      fun other hother hsame => hadmits other hother (hsame.trans hkey)⟩
  · rw [if_neg hkey]
    obtain ⟨table₂, declared₂, hfound, hconsistent₂, hshowable₂, hname₂, hlimits₂, hroom₂, hadmits₂⟩ :=
      h next (List.mem_cons_of_mem _ hnext)
    rw [batchRows_cons, if_neg (Ne.symm hkey), Nat.zero_add] at hroom₂
    exact ⟨table₂, declared₂, hfound, hconsistent₂, hshowable₂, hname₂, hlimits₂, hroom₂,
      fun other hother => hadmits₂ other (List.mem_cons_of_mem _ hother)⟩

theorem wp_tableMut {α : Type} {m : Method Table Error α} {name : String} {table : Table}
    {Q : α → Database → Prop} {E : Error → Database → Prop}
    (hlookup : db.catalog.tables.lookup (normalize name) = some table)
    (h : wp m (fun a table' => Q a { db with
        catalog := ⟨db.catalog.tables.replace (normalize name) table'⟩
        measurements := db.measurements.replace (.read table) (.read table') }) (fun _ _ => False) table) :
    wp (tableMut name m) Q E db := by
  unfold wp at h
  unfold wp tableMut
  rw [hlookup]
  dsimp only
  revert h
  rcases m table with _ | ⟨_ | _, table'⟩ <;> intro h
  · exact h
  · exact h.elim
  · exact h

/-- **What was prepared is applied**: no append fails or panics. -/
theorem applyInsertStatements_wp {prepared : List PreparedInsert} (hready : Ready accepts db.catalog.found prepared) :
    wp (applyInsertStatements prepared) (fun _ db' => Moves accepts db db') (fun _ _ => False) db := by
  induction prepared generalizing db with
  | nil => exact (Untouched.refl db).moves
  | cons insert prepared ih =>
    obtain ⟨name, rows⟩ := insert
    obtain ⟨table, declared, hlookup, hconsistent, hshowable, hname, hlimits, hroom, hadmits⟩ :=
      hready _ (List.mem_cons_self ..)
    obtain ⟨hhere, hothers⟩ := List.forall_mem_cons.1 hadmits
    rw [batchRows_cons, if_pos rfl] at hroom
    have happend : wp (Table.appendPreparedInsertRows rows) _ (fun _ _ => False) table :=
      Table.appendPreparedInsertRows_wp hconsistent hroom (hhere rfl)
    refine wp_bind.2 (wp_expect (wp_tableMut hlookup (wp_mono
      (wp_and happend fun _ table' hrun => Table.appendPreparedInsertRows_identity rows table _ table' hrun)
      (fun _ table' h => ?_) fun _ _ h => h)))
    obtain ⟨⟨hconsistent', hroom'⟩, hidentity⟩ := h
    refine wp_bind.2 (wp_mono (ih ?_) (fun _ db' hmoves => ?_) fun _ _ h => h)
    · exact hready.rest hlookup hconsistent' hidentity hshowable hname hlimits hroom' hothers
    · obtain ⟨hname', hlimits'⟩ : table'.name = table.name ∧ table'.limits = table.limits := Prod.mk.inj hidentity
      have hgood : Good accepts table' := ⟨declared, hconsistent', hshowable, hname' ▸ hname, hlimits' ▸ hlimits⟩
      exact ⟨.head (.changed hlookup hgood hname') hmoves.1, hmoves.2⟩

/-! ## The batch -/

theorem quiet_logInsertStatements (io : CommitIo) (prepared : List PreparedInsert) :
    Quiet (logInsertStatements io prepared) db := by
  refine wlp_bind.2 (wlp_read.2 (wlp_bind.2 (wlp_call.2 ⟨fun target _ => ?_, fun _ _ => .refl db⟩)))
  obtain ⟨table, values⟩ := target
  cases table with
  | none => exact quiet_pure ()
  | some table => exact quiet_logInt64 io table _

theorem executeInsertStatements_atomically (hsound : Sound accepts db.core) (io : CommitIo) (statements : List Statement) :
    Atomically accepts (executeInsertStatements io statements) db := by
  refine atomically_read (atomically_check fun _ _ => atomically_check fun prepared hprepared => ?_)
  refine (quiet_logInsertStatements io prepared).andThen fun _ db' hdb' => ?_
  have hready : Ready accepts db'.catalog.found prepared := by
    rw [show db'.catalog = db.catalog from congrArg Prod.fst hdb'.1]
    exact ready_of_prepared hsound.good hprepared
  exact wlp_of_wp (wp_mono (applyInsertStatements_wp hready) (fun _ _ h => h) fun _ _ h => h.elim)

theorem executeInsertBatch_atomically (hsound : Sound accepts db.core) (float : FloatText) (io : CommitIo) (sql : String) :
    Atomically accepts (executeInsertBatch float io sql) db :=
  atomically_check fun statements _ => executeInsertStatements_atomically hsound io statements

end

end Database

end RustHouse.Batch
