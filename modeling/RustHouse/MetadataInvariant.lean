import RustHouse.Pruning
import RustHouse.TableSound

/-!
# Metadata describes the rows

`reachable_described`: the block summaries and the range partitions that a table
holds are those of the values it holds now. A change of the values ends by
building the summaries again and forgetting the partitions, or by forgetting both.
-/

namespace RustHouse.Batch

open Checked Exec Words Method

def Column.integers : Column → Option (List (Option Int64))
  | int64 values => some (values.map some)
  | nullableInt64 values => some values
  | _ => none

/-- The blocks of an index summarise the rows of its column, all of them and as they are now. -/
structure Int64MinMaxIndex.Describes (index : Int64MinMaxIndex) (t : Table) : Prop where
  rows : index.indexedRows = t.rowCount
  generation : index.sourceGeneration = t.mutationGeneration
  blocks : ∃ column values, t.columns[index.column]? = some column ∧ column.integers = some values ∧
    index.blocks = Table.summarizeChunks index.limits.blockRows values

/-- Partitions follow one another up to the last row, and bound the values of their rows. -/
structure Int64RangePartitionSet.Describes (set : Int64RangePartitionSet) (t : Table) : Prop where
  ordered : set.partitions.Pairwise fun p q => p.rowEnd ≤ q.rowStart
  inside : ∀ p ∈ set.partitions, p.rowStart ≤ p.rowEnd ∧ p.rowEnd ≤ t.rowCount
  covers : ∀ row < t.rowCount, ∃ p ∈ set.partitions, p.rowStart ≤ row ∧ row < p.rowEnd
  bounds : ∃ values, t.columns[set.columnIndex]? = some (.int64 values) ∧
    ∀ p ∈ set.partitions, ∀ row value, p.rowStart ≤ row → row < p.rowEnd → values[row]? = some value →
      p.lowerBound ≤ value ∧ value ≤ p.upperBound

namespace Table

/-- **Current metadata**: whatever a table holds for pruning describes its rows. -/
structure Described (t : Table) : Prop where
  index : ∀ index ∈ t.int64MinMaxIndex, index.Describes t
  partitions : ∀ set ∈ t.int64RangePartitions, set.Describes t

section
variable {t t' : Table}

theorem Described.of_eq (h : Described t) (columns : t'.columns = t.columns) (rowCount : t'.rowCount = t.rowCount)
    (generation : t'.mutationGeneration = t.mutationGeneration)
    (index : ∀ index ∈ t'.int64MinMaxIndex, index ∈ t.int64MinMaxIndex)
    (partitions : ∀ set ∈ t'.int64RangePartitions, set ∈ t.int64RangePartitions) : Described t' where
  index i hi :=
    have ⟨rows, generation', blocks⟩ := h.index i (index i hi)
    ⟨by rw [rows, rowCount], by rw [generation', generation], by rw [columns]; exact blocks⟩
  partitions set hset :=
    have ⟨ordered, inside, covers, bounds⟩ := h.partitions set (partitions set hset)
    ⟨ordered, by rw [rowCount]; exact inside, by rw [rowCount]; exact covers, by rw [columns]; exact bounds⟩

/-! ## Building -/

theorem summarizeColumn_eq {blockRows : Nat} {column : Column} {blocks : List Int64MinMaxBlockMetadata}
    (h : summarizeColumn blockRows column = some blocks) :
    ∃ values, column.integers = some values ∧ blocks = summarizeChunks blockRows values := by
  cases column with
  | int64 values => exact ⟨_, rfl, (Option.some.inj h).symm⟩
  | nullableInt64 values => exact ⟨_, rfl, (Option.some.inj h).symm⟩
  | _ => cases h

theorem buildInt64MinMaxIndex_describes {column : Nat} {limits : Int64MinMaxIndexLimits} {index : Int64MinMaxIndex}
    (h : t.buildInt64MinMaxIndex column limits = .ok index) : index.Describes t := by
  unfold buildInt64MinMaxIndex at h
  split at h
  · cases h
  · obtain ⟨_, _, h⟩ := Exec.bind_eq_ok.1 h
    obtain ⟨_, _, h⟩ := Exec.bind_eq_ok.1 h
    obtain ⟨blocks, hblocks, h⟩ := Exec.bind_eq_ok.1 h
    obtain rfl := Exec.ok.inj h
    obtain ⟨physical, hphysical, hsummary⟩ := Option.bind_eq_some_iff.1 (orPanic_eq_ok.1 hblocks)
    obtain ⟨values, hvalues, rfl⟩ := summarizeColumn_eq hsummary
    exact ⟨rfl, rfl, physical, values, hphysical, hvalues, rfl⟩

theorem markValuesMutated_described {u : Unit} (h : markValuesMutated t = some (.ok u, t')) : Described t' := by
  obtain ⟨_, _, hread, h⟩ := bind_eq_ok.1 h
  obtain ⟨rfl, rfl⟩ := read_eq_ok.1 hread
  dsimp only at h
  cases hindex : t.int64MinMaxIndex with
  | none =>
    rw [hindex] at h
    obtain rfl := write_eq_ok.1 h
    exact ⟨nofun, nofun⟩
  | some previous =>
    rw [hindex] at h
    dsimp only at h
    cases hbuild : buildInt64MinMaxIndex { t with
      int64RangePartitions := none, mutationGeneration := t.mutationGeneration + 1, int64MinMaxIndex := none }
      previous.column previous.limits with
    | ok index =>
      rw [hbuild] at h
      obtain rfl := write_eq_ok.1 h
      have hdescribes := buildInt64MinMaxIndex_describes hbuild
      refine ⟨fun _ hi => ?_, nofun⟩
      obtain rfl := Option.some.inj hi
      exact ⟨hdescribes.rows, hdescribes.generation, hdescribes.blocks⟩
    | error rejection =>
      rw [hbuild] at h
      obtain rfl := write_eq_ok.1 h
      exact ⟨nofun, nofun⟩
    | panic =>
      rw [hbuild] at h
      cases (call_eq_ok.1 h).1

/-- A call that ends by marking, unless there was nothing to change. -/
theorem mark_last {changed : Prop} [Decidable changed] {u : Unit}
    (h : (if changed then markValuesMutated else pure ()) t = some (.ok u, t')) (unchanged : ¬ changed → Described t) :
    Described t' := by
  split at h
  · exact markValuesMutated_described h
  · obtain ⟨_, rfl⟩ := pure_eq_ok.1 h
    exact unchanged ‹_›

theorem mark_and_return {α : Type} {a b : α} {changed : Prop} [Decidable changed]
    (h : (if changed then (do markValuesMutated; pure a) else pure a : Method Table Error α) t = some (.ok b, t'))
    (unchanged : ¬ changed → Described t) : Described t' := by
  split at h
  · obtain ⟨_, _, hmark, h⟩ := bind_eq_ok.1 h
    obtain ⟨_, rfl⟩ := pure_eq_ok.1 h
    exact markValuesMutated_described hmark
  · obtain ⟨_, rfl⟩ := pure_eq_ok.1 h
    exact unchanged ‹_›

/-! ## Insertion -/

theorem insertRow_described {row : List Value} {u : Unit} (h : insertRow row t = some (.ok u, t')) : Described t' := by
  obtain ⟨_, _, _, h⟩ := bind_eq_ok.1 h
  obtain ⟨_, _, _, h⟩ := bind_eq_ok.1 h
  obtain ⟨_, _, _, h⟩ := bind_eq_ok.1 h
  obtain ⟨_, _, _, h⟩ := bind_eq_ok.1 h
  exact markValuesMutated_described h

theorem appendValidatedRows_described {rows : List (List Value)} {u : Unit} (hd : Described t)
    (h : appendValidatedRows rows t = some (.ok u, t')) : Described t' := by
  obtain ⟨_, t₁, happend, h⟩ := bind_eq_ok.1 h
  refine mark_last h fun hrows => ?_
  obtain rfl := not_not.1 hrows
  obtain ⟨_, rfl⟩ := pure_eq_ok.1 happend
  exact hd

theorem insertRows_described {rows : List (List Value)} {u : Unit} (hd : Described t)
    (h : insertRows rows t = some (.ok u, t')) : Described t' := by
  obtain ⟨_, _, hread, h⟩ := bind_eq_ok.1 h
  obtain ⟨rfl, rfl⟩ := read_eq_ok.1 hread
  obtain ⟨_, _, hcapacity, h⟩ := bind_eq_ok.1 h
  obtain ⟨_, rfl⟩ := call_eq_ok.1 hcapacity
  obtain ⟨_, _, hvalid, h⟩ := bind_eq_ok.1 h
  obtain ⟨_, rfl⟩ := call_eq_ok.1 hvalid
  exact appendValidatedRows_described hd h

theorem appendPreparedInsertRows_described {prepared : PreparedInsertRows} {u : Unit} (hd : Described t)
    (h : appendPreparedInsertRows prepared t = some (.ok u, t')) : Described t' := by
  obtain ⟨rows, schemaIndexes⟩ := prepared
  cases schemaIndexes with
  | none => exact appendValidatedRows_described hd h
  | some schemaIndexes =>
    obtain ⟨_, t₁, happend, h⟩ := bind_eq_ok.1 h
    refine mark_last h fun hrows => ?_
    obtain rfl := not_not.1 hrows
    obtain ⟨_, rfl⟩ := pure_eq_ok.1 happend
    exact hd

theorem appendAll_described {prepared : List PreparedInsertRows} {u : Unit} (hd : Described t)
    (h : appendAll prepared t = some (.ok u, t')) : Described t' := by
  induction prepared generalizing t with
  | nil =>
    obtain ⟨_, rfl⟩ := pure_eq_ok.1 h
    exact hd
  | cons p rest ih =>
    obtain ⟨_, t₁, happend, h⟩ := bind_eq_ok.1 h
    exact ih (appendPreparedInsertRows_described hd happend) h

theorem insertPrepared_described {inputs : List (Option (List String) × List (List Value))} {u : Unit}
    (hd : Described t) (h : insertPrepared inputs t = some (.ok u, t')) : Described t' := by
  obtain ⟨_, _, hread, h⟩ := bind_eq_ok.1 h
  obtain ⟨rfl, rfl⟩ := read_eq_ok.1 hread
  obtain ⟨_, _, hprepare, h⟩ := bind_eq_ok.1 h
  obtain ⟨_, rfl⟩ := call_eq_ok.1 hprepare
  exact appendAll_described hd h

theorem insertProjected_described {schemaIndexes : List Nat} {rows : List (List Value)} {u : Unit}
    (hd : Described t) (h : insertProjected schemaIndexes rows t = some (.ok u, t')) : Described t' := by
  obtain ⟨_, _, hread, h⟩ := bind_eq_ok.1 h
  obtain ⟨rfl, rfl⟩ := read_eq_ok.1 hread
  obtain ⟨_, _, hprepare, h⟩ := bind_eq_ok.1 h
  obtain ⟨_, rfl⟩ := call_eq_ok.1 hprepare
  exact appendPreparedInsertRows_described hd h

/-! ## Replacement and deletion -/

theorem replaceColumnValues_described {column : String} {replacements : List (Nat × Value)} {n : Nat}
    (hd : Described t) (h : replaceColumnValues column replacements t = some (.ok n, t')) : Described t' := by
  obtain ⟨_, _, hread, h⟩ := bind_eq_ok.1 h
  obtain ⟨rfl, rfl⟩ := read_eq_ok.1 hread
  obtain ⟨i, _, hi, h⟩ := bind_eq_ok.1 h
  obtain ⟨_, rfl⟩ := call_eq_ok.1 hi
  obtain ⟨_, _, hselection, h⟩ := bind_eq_ok.1 h
  obtain ⟨_, rfl⟩ := call_eq_ok.1 hselection
  obtain ⟨field, _, hfield, h⟩ := bind_eq_ok.1 h
  obtain ⟨_, rfl⟩ := call_eq_ok.1 hfield
  obtain ⟨_, _, hvalues, h⟩ := bind_eq_ok.1 h
  obtain ⟨_, rfl⟩ := call_eq_ok.1 hvalues
  obtain ⟨physical, _, hcolumn, h⟩ := bind_eq_ok.1 h
  obtain ⟨hphysical, rfl⟩ := call_eq_ok.1 hcolumn
  obtain ⟨⟨physical', removed, added⟩, _, hbytes, h⟩ := bind_eq_ok.1 h
  obtain ⟨hreplace, rfl⟩ := call_eq_ok.1 hbytes
  obtain ⟨_, _, hwrite, h⟩ := bind_eq_ok.1 h
  obtain rfl := write_eq_ok.1 hwrite
  refine mark_and_return h fun hnone => ?_
  -- Without replacements the column is put back as it was.
  obtain rfl := List.eq_nil_of_length_eq_zero (not_not.1 hnone)
  obtain ⟨rfl, _⟩ := Prod.mk.inj (Option.some.inj (orPanic_eq_ok.1 hreplace))
  obtain ⟨hlt, rfl⟩ := List.getElem?_eq_some_iff.1 (orPanic_eq_ok.1 hphysical)
  exact hd.of_eq (List.set_getElem_self hlt) rfl rfl (fun _ h => h) fun _ h => h

theorem deleteRows_described {rowIndexes : List Nat} {n : Nat} (hd : Described t)
    (h : deleteRows rowIndexes t = some (.ok n, t')) : Described t' := by
  obtain ⟨_, _, hread, h⟩ := bind_eq_ok.1 h
  obtain ⟨rfl, rfl⟩ := read_eq_ok.1 hread
  obtain ⟨_, _, hselection, h⟩ := bind_eq_ok.1 h
  obtain ⟨_, rfl⟩ := call_eq_ok.1 hselection
  split at h
  · obtain ⟨_, rfl⟩ := pure_eq_ok.1 h
    exact hd
  · obtain ⟨_, _, _, h⟩ := bind_eq_ok.1 h
    obtain ⟨_, _, _, h⟩ := bind_eq_ok.1 h
    obtain ⟨_, _, hmark, h⟩ := bind_eq_ok.1 h
    obtain ⟨_, rfl⟩ := pure_eq_ok.1 h
    exact markValuesMutated_described hmark

theorem map_clear_eq {declared : List Declared} {columns : List Column} (h : Fits declared 0 columns) :
    columns.map Column.clear = columns := by
  induction h with
  | nil => rfl
  | @cons _ column _ _ hcolumn _ ih =>
    have hclear : column.clear = column := by
      cases column <;> rw [Column.clear, List.eq_nil_of_length_eq_zero hcolumn.2]
    rw [List.map_cons, hclear, ih]

theorem truncate_described {declared : List Declared} {n : Nat} (hc : Consistent declared t) (hd : Described t)
    (h : truncate t = some (.ok n, t')) : Described t' := by
  obtain ⟨_, _, hread, h⟩ := bind_eq_ok.1 h
  obtain ⟨rfl, rfl⟩ := read_eq_ok.1 hread
  obtain ⟨_, _, hwrite, h⟩ := bind_eq_ok.1 h
  obtain rfl := write_eq_ok.1 hwrite
  refine mark_and_return h fun hempty => ?_
  rw [not_not] at hempty
  exact hd.of_eq (map_clear_eq (hempty ▸ hc.fits)) hempty.symm rfl (fun _ h => h) fun _ h => h

/-! ## Columns -/

theorem publishAddedColumn_described {field : ColumnDef} {column : Column} {u : Unit}
    (h : publishAddedColumn field column t = some (.ok u, t')) : Described t' := by
  obtain ⟨_, _, _, h⟩ := bind_eq_ok.1 h
  obtain ⟨_, _, _, h⟩ := bind_eq_ok.1 h
  exact markValuesMutated_described h

theorem addColumn_described {field : ColumnDef} {u : Unit} (h : addColumn field t = some (.ok u, t')) :
    Described t' := by
  obtain ⟨_, _, _, h⟩ := bind_eq_ok.1 h
  obtain ⟨_, _, _, h⟩ := bind_eq_ok.1 h
  exact publishAddedColumn_described h

theorem addNullableInt64Column_described {name : String} {u : Unit}
    (h : addNullableInt64Column name t = some (.ok u, t')) : Described t' := by
  obtain ⟨_, _, _, h⟩ := bind_eq_ok.1 h
  obtain ⟨_, _, _, h⟩ := bind_eq_ok.1 h
  exact publishAddedColumn_described h

theorem dropColumn_described {column : String} {u : Unit} (h : dropColumn column t = some (.ok u, t')) :
    Described t' := by
  obtain ⟨_, _, _, h⟩ := bind_eq_ok.1 h
  obtain ⟨_, _, _, h⟩ := bind_eq_ok.1 h
  obtain ⟨_, _, _, h⟩ := bind_eq_ok.1 h
  obtain ⟨_, _, _, h⟩ := bind_eq_ok.1 h
  obtain rfl := write_eq_ok.1 h
  exact ⟨nofun, nofun⟩

theorem renameColumn_described {source destination : String} {u : Unit} (hd : Described t)
    (h : renameColumn source destination t = some (.ok u, t')) : Described t' := by
  obtain ⟨_, _, hread, h⟩ := bind_eq_ok.1 h
  obtain ⟨rfl, rfl⟩ := read_eq_ok.1 hread
  obtain ⟨_, _, _, h⟩ := bind_eq_ok.1 h
  obtain ⟨_, _, _, h⟩ := bind_eq_ok.1 h
  obtain ⟨_, _, _, h⟩ := bind_eq_ok.1 h
  obtain rfl := write_eq_ok.1 h
  exact hd.of_eq rfl rfl rfl (fun _ h => h) nofun

/-! ## Index maintenance -/

theorem tryCreateInt64MinMaxIndex_described {column : String} {limits : Int64MinMaxIndexLimits}
    {admission : Int64MinMaxIndexAdmission} (hd : Described t)
    (h : tryCreateInt64MinMaxIndex column limits t = some (.ok admission, t')) : Described t' := by
  obtain ⟨_, _, hread, h⟩ := bind_eq_ok.1 h
  obtain ⟨rfl, rfl⟩ := read_eq_ok.1 hread
  obtain ⟨i, _, hi, h⟩ := bind_eq_ok.1 h
  obtain ⟨_, rfl⟩ := call_eq_ok.1 hi
  obtain ⟨field, _, hfield, h⟩ := bind_eq_ok.1 h
  obtain ⟨_, rfl⟩ := call_eq_ok.1 hfield
  obtain ⟨_, _, htype, h⟩ := bind_eq_ok.1 h
  obtain ⟨_, rfl⟩ := call_eq_ok.1 htype
  split at h
  · obtain ⟨_, rfl⟩ := pure_eq_ok.1 h
    exact hd
  · cases hbuild : t.buildInt64MinMaxIndex i limits with
    | ok index =>
      simp only [hbuild] at h
      obtain ⟨_, _, hwrite, h⟩ := bind_eq_ok.1 h
      obtain rfl := write_eq_ok.1 hwrite
      obtain ⟨_, _, hinfo, h⟩ := bind_eq_ok.1 h
      obtain ⟨_, rfl⟩ := call_eq_ok.1 hinfo
      obtain ⟨_, rfl⟩ := pure_eq_ok.1 h
      have hdescribes := buildInt64MinMaxIndex_describes hbuild
      refine ⟨fun _ hi => ?_, fun set hset => ?_⟩
      · obtain rfl := Option.some.inj hi
        exact ⟨hdescribes.rows, hdescribes.generation, hdescribes.blocks⟩
      · obtain ⟨ordered, inside, covers, bounds⟩ := hd.partitions set hset
        exact ⟨ordered, inside, covers, bounds⟩
    | error rejection =>
      simp only [hbuild] at h
      obtain ⟨_, rfl⟩ := pure_eq_ok.1 h
      exact hd
    | panic =>
      simp only [hbuild] at h
      cases (call_eq_ok.1 h).1

theorem dropInt64MinMaxIndex_described {b : Bool} (hd : Described t)
    (h : dropInt64MinMaxIndex t = some (.ok b, t')) : Described t' := by
  obtain ⟨_, _, hread, h⟩ := bind_eq_ok.1 h
  obtain ⟨rfl, rfl⟩ := read_eq_ok.1 hread
  obtain ⟨_, _, hwrite, h⟩ := bind_eq_ok.1 h
  obtain rfl := write_eq_ok.1 hwrite
  obtain ⟨_, rfl⟩ := pure_eq_ok.1 h
  exact hd.of_eq rfl rfl rfl nofun fun _ h => h

end

/-! ## Construction -/

theorem described_of_none {t : Table} (index : t.int64MinMaxIndex = none) (partitions : t.int64RangePartitions = none) :
    Described t where
  index _ hi := by rw [index] at hi; cases hi
  partitions _ hset := by rw [partitions] at hset; cases hset

theorem withLimits_metadata {name : String} {schema : List ColumnDef} {limits : TableLimits} {t : Table}
    (h : withLimits name schema limits = .ok t) : t.int64MinMaxIndex = none ∧ t.int64RangePartitions = none := by
  simp only [withLimits, Exec.bind_eq_ok, rejectIf_eq_ok, exists_and_left, exists_const] at h
  obtain ⟨_, _, _, _, _, _, h⟩ := h
  obtain rfl := Exec.ok.inj h
  exact ⟨rfl, rfl⟩

theorem validatePartitions_values {partitionIndex : Nat} {previous : Option Int64RangePartition}
    {partitions : List Int64RangePartition} (h : validatePartitions partitionIndex previous partitions = .ok ()) :
    ∀ p ∈ partitions, ∀ value ∈ p.values, p.lowerBound ≤ value ∧ value ≤ p.upperBound := by
  induction partitions generalizing partitionIndex previous with
  | nil => exact List.forall_mem_nil _
  | cons partition partitions ih =>
    cases hfind : partition.values.zipIdx.find? fun pair =>
      pair.1 < partition.lowerBound || pair.1 > partition.upperBound with
    | some found => cases previous <;> simp [validatePartitions, hfind, Exec.bind_eq_ok] at h
    | none =>
      have hrest : validatePartitions (partitionIndex + 1) (some partition) partitions = .ok () := by
        cases previous with
        | none =>
          simp only [validatePartitions, hfind, Exec.bind_eq_ok, exists_const] at h
          obtain ⟨_, _, _, _, hrest⟩ := h
          exact hrest
        | some previous =>
          simp only [validatePartitions, hfind, Exec.bind_eq_ok, exists_const] at h
          obtain ⟨_, _, _, _, _, _, _, hrest⟩ := h
          exact hrest
      refine List.forall_mem_cons.2 ⟨fun value hvalue => ?_, ih hrest⟩
      obtain ⟨position, hposition⟩ := List.mem_iff_getElem?.1 hvalue
      have hinside := List.find?_eq_none.1 hfind (value, position) (List.mem_zipIdx_iff_getElem?.2 hposition)
      simpa using hinside

/-- The values of earlier partitions come before those of later ones. -/
theorem partitionMetadata_ordered (rowStart : Nat) (partitions : List Int64RangePartition) :
    (partitionMetadata rowStart partitions).Pairwise (fun p q => p.rowEnd ≤ q.rowStart) ∧
      ∀ p ∈ partitionMetadata rowStart partitions, rowStart ≤ p.rowStart ∧ p.rowStart ≤ p.rowEnd ∧
        p.rowEnd ≤ rowStart + (partitions.flatMap Int64RangePartition.values).length := by
  induction partitions generalizing rowStart with
  | nil => exact ⟨.nil, nofun⟩
  | cons partition partitions ih =>
    obtain ⟨hordered, hinside⟩ := ih (rowStart + partition.values.length)
    rw [List.flatMap_cons, List.length_append]
    refine ⟨List.pairwise_cons.2 ⟨fun q hq => (hinside q hq).1, hordered⟩, List.forall_mem_cons.2 ⟨?_, fun p hp => ?_⟩⟩
    · exact ⟨Nat.le_refl _, Nat.le_add_right _ _, by dsimp only; omega⟩
    · obtain ⟨hfirst, hnext, hlast⟩ := hinside p hp
      exact ⟨by omega, hnext, by omega⟩

theorem partitionMetadata_covers {rowStart row : Nat} {partitions : List Int64RangePartition} (hfirst : rowStart ≤ row)
    (hlast : row < rowStart + (partitions.flatMap Int64RangePartition.values).length) :
    ∃ p ∈ partitionMetadata rowStart partitions, p.rowStart ≤ row ∧ row < p.rowEnd := by
  induction partitions generalizing rowStart with
  | nil => exact absurd (Nat.lt_of_le_of_lt hfirst hlast) (Nat.lt_irrefl _)
  | cons partition partitions ih =>
    rw [List.flatMap_cons, List.length_append] at hlast
    by_cases hhere : row < rowStart + partition.values.length
    · exact ⟨_, List.mem_cons_self .., hfirst, hhere⟩
    · obtain ⟨p, hp, hcovers⟩ := ih (Nat.le_of_not_lt hhere) (by omega)
      exact ⟨p, List.mem_cons_of_mem _ hp, hcovers⟩

theorem partitionMetadata_bounds (before : List Int64) {partitions : List Int64RangePartition}
    (hvalues : ∀ p ∈ partitions, ∀ value ∈ p.values, p.lowerBound ≤ value ∧ value ≤ p.upperBound) :
    ∀ p ∈ partitionMetadata before.length partitions, ∀ row value, p.rowStart ≤ row → row < p.rowEnd →
      (before ++ partitions.flatMap Int64RangePartition.values)[row]? = some value →
      p.lowerBound ≤ value ∧ value ≤ p.upperBound := by
  induction partitions generalizing before with
  | nil => exact nofun
  | cons partition partitions ih =>
    obtain ⟨hhere, hvalues⟩ := List.forall_mem_cons.1 hvalues
    have hrest := ih (before ++ partition.values) hvalues
    rw [List.length_append, List.append_assoc] at hrest
    refine List.forall_mem_cons.2 ⟨fun row value hfirst hlast hvalue => ?_, hrest⟩
    dsimp only at hfirst hlast
    rw [List.flatMap_cons, List.getElem?_append_right hfirst, List.getElem?_append_left (by omega)] at hvalue
    exact hhere value (List.mem_of_getElem? hvalue)

theorem withInt64RangePartitions_described {name columnName : String} {partitions : List Int64RangePartition}
    {partitionLimits : Int64RangePartitionLimits} {tableLimits : TableLimits} {t : Table}
    (h : withInt64RangePartitions name columnName partitions partitionLimits tableLimits = .ok t) : Described t := by
  have hconsistent := withInt64RangePartitions_consistent h
  obtain ⟨_, _, h⟩ := Exec.bind_eq_ok.1 h
  obtain ⟨_, _, h⟩ := Exec.bind_eq_ok.1 h
  obtain ⟨_, _, h⟩ := Exec.bind_eq_ok.1 h
  obtain ⟨_, hvalid, h⟩ := Exec.bind_eq_ok.1 h
  obtain ⟨table, htable, h⟩ := Exec.bind_eq_ok.1 h
  obtain ⟨_, _, h⟩ := Exec.bind_eq_ok.1 h
  rw [mapError_eq_ok] at htable
  dsimp only at h
  split at h
  · cases h
  · obtain rfl := Exec.ok.inj h
    obtain ⟨column, hcolumn, _, hlen⟩ := hconsistent.column_of_declared (i := 0) rfl
    obtain rfl := Option.some.inj hcolumn
    obtain ⟨hordered, hinside⟩ := partitionMetadata_ordered 0 partitions
    refine ⟨fun index hi => ?_, fun set hset => ?_⟩
    · rw [(withLimits_metadata htable).1] at hi
      cases hi
    · obtain rfl := Option.some.inj hset
      dsimp only [Column.len] at hlen
      refine ⟨hordered, fun p hp => ⟨(hinside p hp).2.1, ?_⟩, fun row hrow => ?_, _, rfl, ?_⟩
      · have hlast := (hinside p hp).2.2
        rwa [Nat.zero_add, hlen] at hlast
      · exact partitionMetadata_covers (Nat.zero_le _) (by rw [Nat.zero_add, hlen]; exact hrow)
      · exact partitionMetadata_bounds [] (validatePartitions_values hvalid)

/-! ## Runs -/

theorem mutation_described {declared : List Declared} {t t' : Table} {u : Unit} (hc : Consistent declared t)
    (hd : Described t) (m : Mutation) (h : m.run t = some (.ok u, t')) : Described t' := by
  -- What a mutation returns does not matter.
  have discard {α : Type} {m : Method Table Error α} (h : (m >>= fun _ => pure ()) t = some (.ok u, t')) :
      ∃ a, m t = some (.ok a, t') := by
    obtain ⟨a, _, hm, h⟩ := bind_eq_ok.1 h
    obtain ⟨_, rfl⟩ := pure_eq_ok.1 h
    exact ⟨a, hm⟩
  cases m with
  | insertRow row => exact insertRow_described h
  | insertRows rows => exact insertRows_described hd h
  | insertPrepared inputs => exact insertPrepared_described hd h
  | insertProjected schemaIndexes rows => exact insertProjected_described hd h
  | replaceColumnValues column replacements => exact replaceColumnValues_described hd (discard h).choose_spec
  | deleteRows rowIndexes => exact deleteRows_described hd (discard h).choose_spec
  | truncate => exact truncate_described hc hd (discard h).choose_spec
  | addColumn field => exact addColumn_described h
  | addNullableInt64Column name => exact addNullableInt64Column_described h
  | dropColumn column => exact dropColumn_described h
  | renameColumn source destination => exact renameColumn_described hd h
  | setName name =>
    obtain ⟨_, _, hread, h⟩ := bind_eq_ok.1 h
    obtain ⟨rfl, rfl⟩ := read_eq_ok.1 hread
    obtain rfl := write_eq_ok.1 h
    exact hd.of_eq rfl rfl rfl (fun _ h => h) fun _ h => h
  | createInt64MinMaxIndex column limits => exact tryCreateInt64MinMaxIndex_described hd (discard h).choose_spec
  | dropInt64MinMaxIndex => exact dropInt64MinMaxIndex_described hd (discard h).choose_spec

/-- **Metadata is never stale**: whatever a table went through, its metadata describes the rows it has. -/
theorem reachable_described {declared : List Declared} {t : Table} (h : Reachable declared t) : Described t := by
  induction h with
  | new ht | withRowCap ht | withLimits ht =>
    obtain ⟨hindex, hpartitions⟩ := withLimits_metadata ht
    exact described_of_none hindex hpartitions
  | withInt64Values ht | withNullableInt64Values ht =>
    obtain ⟨table, htable, ht⟩ := Exec.bind_eq_ok.1 ht
    obtain ⟨_, _, ht⟩ := Exec.bind_eq_ok.1 ht
    obtain rfl := Exec.ok.inj ht
    obtain ⟨hindex, hpartitions⟩ := withLimits_metadata htable
    exact described_of_none hindex hpartitions
  | withInt64RangePartitions ht => exact withInt64RangePartitions_described ht
  | success m hreachable _ hrun ih => exact mutation_described (reachable_consistent hreachable) ih m hrun
  | failure m hreachable hm hrun ih =>
    exact (wp_iff.1 (mutation_wp (reachable_consistent hreachable) m hm)).2.2 _ _ hrun ▸ ih

end Table

end RustHouse.Batch
