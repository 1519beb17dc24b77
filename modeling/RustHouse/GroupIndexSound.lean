import RustHouse.GroupStates
import RustHouse.KeyedGroups
import RustHouse.UnionJoinSound

/-!
# The index of groups

The groups of rows by their keys, and the index that finds them: a map of one of
three shapes that holds every key with the place where it is among the keys.
-/

namespace RustHouse.Batch

open Checked Exec Words
open UnionDistinctKeys (sliceEq_singleton)

/-! ## Keys of rows -/

def keyValues (t : Table) (columns : List Nat) (row : Nat) : List Value :=
  columns.filterMap fun column => t.valueAt column row

/-- The key with values of a row, in one of three shapes. -/
def GroupKey.ofValues : List Value → GroupKey
  | [] => empty
  | [value] => one value
  | values => multiple values

section
variable {declared : List Declared} {t : Table} {columns : List Nat} {row : Nat}
  (hc : Table.Consistent declared t) (hkeys : KeyColumns t columns) (hrow : row < t.rowCount)
include hc hkeys hrow

theorem keyValues_spec : columns.mapM (fun column => t.valueAt column row) = some (keyValues t columns row) := by
  have hvalue : ∀ column ∈ columns, ∃ value, t.valueAt column row = some value := by
    intro column hcolumn
    obtain ⟨physical, hphysical⟩ := hkeys.found column hcolumn
    obtain ⟨value, hvalue, _⟩ := valueAt_of_column hc hphysical hrow
    exact ⟨value, hvalue⟩
  clear hkeys
  induction columns with
  | nil => rfl
  | cons column columns ih =>
    obtain ⟨hfirst, hrest⟩ := List.forall_mem_cons.1 hvalue
    obtain ⟨value, hvalue⟩ := hfirst
    have hkey : keyValues t (column :: columns) row = value :: keyValues t columns row := List.filterMap_cons_some hvalue
    rw [List.mapM_cons, hvalue, ih hrest, hkey]
    rfl

theorem keyAt_eq : keyAt t columns row = .ok (keyValues t columns row) := by
  rw [keyAt, keyValues_spec hc hkeys hrow]
  rfl

theorem length_keyValues : (keyValues t columns row).length = columns.length :=
  length_of_mapM (keyValues_spec hc hkeys hrow)

theorem keyValues_single {column : Nat} (hcolumns : columns = [column]) :
    ∃ value, t.valueAt column row = some value ∧ keyValues t columns row = [value] := by
  subst hcolumns
  obtain ⟨physical, hphysical⟩ := hkeys.found column (List.mem_singleton.2 rfl)
  obtain ⟨value, hvalue, _⟩ := valueAt_of_column hc hphysical hrow
  exact ⟨value, hvalue, List.filterMap_cons_some hvalue⟩

end

/-! ## Maps of places -/

section
variable (hasher : Bytes → UInt64) {κ : Type} {hashBytes : κ → Bytes} {eq : κ → κ → Bool}
  (hconsistent : ∀ stored key, eq stored key = true → hashBytes stored = hashBytes key)
include hconsistent

theorem mapGet_eq (keys : List κ) (key : κ) :
    mapGet hasher hashBytes eq keys.zipIdx key = keys.findIdx? (eq · key) := by
  have htest : (fun stored : κ × Nat => decide (hasher (hashBytes stored.1) = hasher (hashBytes key)) && eq stored.1 key) =
      fun stored => eq stored.1 key := by
    funext stored
    cases heq : eq stored.1 key with
    | false => rw [Bool.and_false]
    | true => rw [Bool.and_true, hconsistent _ _ heq, decide_eq_true rfl]
  rw [mapGet, htest, List.findIdx?_eq_fst_find?_zipIdx]

theorem mapInsert_eq {keys : List κ} {key : κ} (hfresh : keys.findIdx? (eq · key) = none) :
    mapInsert hasher hashBytes eq keys.zipIdx key keys.length = (keys ++ [key]).zipIdx := by
  rw [mapInsert, mapGet_eq hasher hconsistent, hfresh, List.zipIdx_append, Nat.zero_add]
  rfl

end

namespace GroupIndex

/-- The index has every key with its place. -/
def Holds (columnCount : Nat) (keys : List (List Value)) : GroupIndex → Prop
  | global => columnCount = 0 ∧ keys = [[]]
  | one groups => columnCount = 1 ∧ ∃ values : List Value, keys = values.map (fun value => [value]) ∧ groups = values.zipIdx
  | multiple groups => 2 ≤ columnCount ∧ groups = keys.zipIdx

def startKeys (columnCount : Nat) : List (List Value) := if columnCount = 0 then [[]] else []

theorem holds_new (columnCount : Nat) : (new columnCount).Holds columnCount (startKeys columnCount) := by
  match columnCount with
  | 0 => exact ⟨rfl, rfl⟩
  | 1 => exact ⟨rfl, [], rfl, rfl⟩
  | n + 2 => exact ⟨Nat.le_add_left 2 n, rfl⟩

section
variable {declared : List Declared} {t : Table} {columns : List Nat} {row : Nat} (hasher : Bytes → UInt64)
  (hc : Table.Consistent declared t) (hkeys : KeyColumns t columns) (hrow : row < t.rowCount)
  {keys : List (List Value)} {groups : GroupIndex} (hholds : groups.Holds columns.length keys)
include hc hkeys hrow hholds

/-- **Finding** a group. -/
theorem find_eq (probe : List Value) :
    ∃ probe', groups.find hasher t columns row probe =
        .ok (keys.findIdx? (sliceEq · (keyValues t columns row)), probe') ∧
      (2 < columns.length → probe' = keyValues t columns row) := by
  cases groups with
  | global =>
    obtain ⟨hcount, rfl⟩ := hholds
    obtain rfl := List.eq_nil_of_length_eq_zero hcount
    exact ⟨probe, rfl, fun h => absurd h (by decide)⟩
  | one groups =>
    obtain ⟨hcount, values, rfl, rfl⟩ := hholds
    obtain ⟨column, hcolumn⟩ := List.length_eq_one_iff.1 hcount
    obtain ⟨value, hvalue, hkey⟩ := keyValues_single hc hkeys hrow hcolumn
    subst hcolumn
    refine ⟨probe, ?_, fun h => absurd h (by rw [hcount]; decide)⟩
    rw [hkey, List.findIdx?_map, find]
    show (orPanic (t.valueAt column row) >>= _) = _
    rw [hvalue, orPanic_some, Exec.ok_bind, mapGet_eq hasher Value.hashBytes_of_eq]
    simp only [Function.comp_def, sliceEq_singleton]
  | multiple groups =>
    obtain ⟨htwo, rfl⟩ := hholds
    by_cases hpair : columns.length = 2
    · refine ⟨probe, ?_, fun h => absurd h (by omega)⟩
      rw [find, if_pos hpair, keyAt_eq hc hkeys hrow, Exec.ok_bind, mapGet_eq hasher sliceHashBytes_of_eq]
    · refine ⟨keyValues t columns row, ?_, fun _ => rfl⟩
      rw [find, if_neg hpair, keyAt_eq hc hkeys hrow, Exec.ok_bind, mapGet_eq hasher sliceHashBytes_of_eq]

/-- **Inserting** a group behind the others. -/
theorem insert_eq {probe : List Value} (hprobe : 2 < columns.length → probe = keyValues t columns row)
    (hfresh : keys.findIdx? (sliceEq · (keyValues t columns row)) = none) :
    ∃ groups', groups.insert hasher t columns row keys.length probe = .ok groups' ∧
      groups'.Holds columns.length (keys ++ [keyValues t columns row]) := by
  cases groups with
  | global =>
    obtain ⟨hcount, rfl⟩ := hholds
    obtain rfl := List.eq_nil_of_length_eq_zero hcount
    cases hfresh
  | one groups =>
    obtain ⟨hcount, values, rfl, rfl⟩ := hholds
    obtain ⟨column, hcolumn⟩ := List.length_eq_one_iff.1 hcount
    obtain ⟨value, hvalue, hkey⟩ := keyValues_single hc hkeys hrow hcolumn
    subst hcolumn
    rw [hkey, List.findIdx?_map] at hfresh
    simp only [Function.comp_def, sliceEq_singleton] at hfresh
    refine ⟨one (values ++ [value]).zipIdx, ?_, rfl, values ++ [value], ?_, rfl⟩
    · rw [insert, List.length_map]
      show (orPanic (t.valueAt column row) >>= _) = _
      rw [hvalue, orPanic_some, Exec.ok_bind, mapInsert_eq hasher Value.hashBytes_of_eq hfresh]
    · rw [hkey, List.map_append]
      rfl
  | multiple groups =>
    obtain ⟨htwo, rfl⟩ := hholds
    refine ⟨multiple (keys ++ [keyValues t columns row]).zipIdx, ?_, htwo, rfl⟩
    by_cases hpair : columns.length = 2
    · rw [insert, if_pos hpair, keyAt_eq hc hkeys hrow, Exec.ok_bind, mapInsert_eq hasher sliceHashBytes_of_eq hfresh]
    · rw [insert, if_neg hpair, hprobe (by omega), mapInsert_eq hasher sliceHashBytes_of_eq hfresh]

end

/-! ## Keys in order -/

theorem placeKeys_eq {done : List GroupKey} {keys : List GroupKey} :
    placeKeys (done.map some ++ List.replicate keys.length none) (keys.zipIdx done.length) =
      some ((done ++ keys).map some) := by
  induction keys generalizing done with
  | nil => rw [List.append_nil]; exact congrArg some (List.append_nil _)
  | cons key keys ih =>
    have hlt : done.length < (done.map some ++ List.replicate (key :: keys).length (none : Option GroupKey)).length := by
      simp
    have hset : (done.map some ++ List.replicate (key :: keys).length none).set done.length (some key) =
        (done ++ [key]).map some ++ List.replicate keys.length none := by
      rw [List.length_cons, List.replicate_succ]
      simp
    have hlength : done.length + 1 = (done ++ [key]).length := by simp
    rw [List.zipIdx_cons, placeKeys, if_pos hlt, hset, hlength, ih, List.append_assoc]
    rfl

theorem Holds.entries {columnCount : Nat} {keys : List (List Value)} {groups : GroupIndex}
    (h : groups.Holds columnCount keys) (hlength : ∀ key ∈ keys, key.length = columnCount) :
    groups.entries = (keys.map GroupKey.ofValues).zipIdx := by
  cases groups with
  | global =>
    obtain ⟨_, rfl⟩ := h
    rfl
  | one groups =>
    obtain ⟨_, values, rfl, rfl⟩ := h
    rw [GroupIndex.entries, List.map_map, List.zipIdx_map]
    rfl
  | multiple groups =>
    obtain ⟨htwo, rfl⟩ := h
    have hmultiple : keys.map GroupKey.ofValues = keys.map GroupKey.multiple := by
      apply List.map_congr_left
      intro key hkey
      have htwo : 2 ≤ key.length := (hlength key hkey).symm ▸ htwo
      match key, htwo with
      | _ :: _ :: _, _ => rfl
    rw [GroupIndex.entries, hmultiple, List.zipIdx_map]
    rfl

/-- **The keys of the groups** come out in their places. -/
theorem Holds.intoKeys {columnCount : Nat} {keys : List (List Value)} {groups : GroupIndex}
    (h : groups.Holds columnCount keys) (hlength : ∀ key ∈ keys, key.length = columnCount) :
    groups.intoKeys keys.length = .ok (keys.map GroupKey.ofValues) := by
  have hplaced := @placeKeys_eq [] (keys.map GroupKey.ofValues)
  rw [List.length_map] at hplaced
  have hcollected : ((keys.map GroupKey.ofValues).map some).mapM id = some (keys.map GroupKey.ofValues) := by
    rw [List.mapM_map]
    exact (@mapM_of_forall _ _ _ id _ fun _ _ => rfl).trans (congrArg some (List.map_id _))
  have hplaced : placeKeys (List.replicate keys.length none) (keys.map GroupKey.ofValues).zipIdx =
      some ((keys.map GroupKey.ofValues).map some) := hplaced
  rw [GroupIndex.intoKeys, h.entries hlength, hplaced, orPanic_some, Exec.ok_bind]
  exact congrArg orPanic hcollected

end GroupIndex

end RustHouse.Batch
