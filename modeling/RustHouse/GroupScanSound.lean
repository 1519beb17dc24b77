import RustHouse.ExecuteGrouped
import RustHouse.GroupIndexSound

/-!
# The scan of groups

A pass over the rows of a query keeps the index of the groups, their number, and for
every aggregate its state over the rows of each group. It ends with the groups of
the rows, or where a limit refuses.
-/

namespace RustHouse.Batch

open Checked Exec Words
open OrderedReduction (collect)

/-! ## Groups of rows -/

/-- The rows of every group, the groups in the order of their first rows; without columns all rows are one group. -/
def groupRows (t : Table) (columns rows : List Nat) : List (List Nat) :=
  if columns = [] then [rows] else KeyedGroups.groups (fun row => rowKey (keyValues t columns row)) rows

def groupKey (t : Table) (columns members : List Nat) : List Value := members.head?.elim [] (keyValues t columns)

def groupKeys (t : Table) (columns rows : List Nat) : List (List Value) :=
  (groupRows t columns rows).map (groupKey t columns)

def groupPlace (t : Table) (columns rows : List Nat) (row : Nat) : Option Nat :=
  (groupKeys t columns rows).findIdx? (sliceEq · (keyValues t columns row))

section
variable {t : Table} {columns rows : List Nat} {row group : Nat}

theorem groupKeys_nil : groupKeys t columns [] = GroupIndex.startKeys columns.length := by
  unfold groupKeys groupRows GroupIndex.startKeys
  by_cases hcolumns : columns = []
  · rw [if_pos hcolumns, hcolumns]
    rfl
  · rw [if_neg hcolumns, if_neg (mt List.eq_nil_of_length_eq_zero hcolumns)]
    rfl

theorem groupPlace_eq (hcolumns : columns ≠ []) : groupPlace t columns rows row =
    KeyedGroups.place (fun row => rowKey (keyValues t columns row)) rows row := by
  have hkeys : (groupKeys t columns rows).map rowKey =
      KeyedGroups.keys (fun row => rowKey (keyValues t columns row)) rows := by
    rw [groupKeys, groupRows, if_neg hcolumns, List.map_map, KeyedGroups.map_groups (g := id) fun _ _ => rfl, List.map_id]
  have hplace : KeyedGroups.place (fun row => rowKey (keyValues t columns row)) rows row =
      (KeyedGroups.keys (fun row => rowKey (keyValues t columns row)) rows).findIdx?
        fun key => decide (key = rowKey (keyValues t columns row)) := rfl
  rw [hplace, ← hkeys, List.findIdx?_map, groupPlace]
  congr 1
  funext key
  rw [Bool.eq_iff_iff]
  exact (sliceEq_iff _ _).trans decide_eq_true_iff.symm

theorem groupRows_concat_of_none (h : groupPlace t columns rows row = none) :
    columns ≠ [] ∧ groupRows t columns (rows ++ [row]) = groupRows t columns rows ++ [[row]] := by
  have hcolumns : columns ≠ [] := by
    intro hcolumns
    subst hcolumns
    rw [groupPlace, groupKeys, groupRows, if_pos rfl] at h
    cases rows <;> cases h
  rw [groupPlace_eq hcolumns] at h
  refine ⟨hcolumns, ?_⟩
  rw [groupRows, groupRows, if_neg hcolumns, if_neg hcolumns, KeyedGroups.groups_concat_of_none h]

theorem groupRows_concat_of_some (h : groupPlace t columns rows row = some group) :
    ∃ members, (groupRows t columns rows)[group]? = some members ∧ members.Sublist rows ∧
      groupRows t columns (rows ++ [row]) = (groupRows t columns rows).set group (members ++ [row]) ∧
      groupKey t columns (members ++ [row]) = groupKey t columns members := by
  by_cases hcolumns : columns = []
  · subst hcolumns
    have hgroup : group = 0 := by
      rw [groupPlace, groupKeys, groupRows, if_pos rfl] at h
      cases rows <;> exact (Option.some.inj h).symm
    subst hgroup
    refine ⟨rows, rfl, List.Sublist.refl _, rfl, ?_⟩
    have hempty (members : List Nat) : groupKey t [] members = [] := by
      cases members <;> rfl
    rw [hempty, hempty]
  · rw [groupPlace_eq hcolumns] at h
    have hmembers := KeyedGroups.groups_getElem? h
    refine ⟨_, ?_, KeyedGroups.sublist_of_mem_groups (List.mem_of_getElem? hmembers), ?_, ?_⟩
    · rw [groupRows, if_neg hcolumns]
      exact hmembers
    · rw [groupRows, groupRows, if_neg hcolumns, if_neg hcolumns, KeyedGroups.groups_concat_of_some h]
    · have hne := KeyedGroups.ne_nil_of_mem_groups (List.mem_of_getElem? hmembers)
      rw [groupKey, groupKey, List.head?_append_of_ne_nil _ hne]

theorem groupKeys_concat_of_none (h : groupPlace t columns rows row = none) :
    groupKeys t columns (rows ++ [row]) = groupKeys t columns rows ++ [keyValues t columns row] := by
  rw [groupKeys, (groupRows_concat_of_none h).2, List.map_append]
  rfl

theorem groupKeys_concat_of_some (h : groupPlace t columns rows row = some group) :
    groupKeys t columns (rows ++ [row]) = groupKeys t columns rows := by
  obtain ⟨members, hmembers, _, hrows, hkey⟩ := groupRows_concat_of_some h
  obtain ⟨hlt, hat⟩ := List.getElem?_eq_some_iff.1 hmembers
  rw [groupKeys, hrows, List.map_set, hkey, ← List.map_set, ← hat, List.set_getElem_self]
  rfl

theorem length_groupRows_le (hcolumns : columns ≠ []) : (groupRows t columns rows).length ≤ rows.length := by
  rw [groupRows, if_neg hcolumns]
  exact KeyedGroups.length_groups_le

end

/-! ## States -/

section
variable {declared : List Declared} {t : Table} {specs : List AggregateSpec} {arithmetic : FloatArithmetic}
  {limits : QueryResultLimits} {row group : Nat} {members : List Nat} {skips : AggregateSpec → Bool}
  (hc : Table.Consistent declared t) (hrow : row < t.rowCount) (hlength : (members ++ [row]).length < 2 ^ 63)
include hc hrow hlength

theorem updateGroup_ends {spec : AggregateSpec} (hfits : spec.Fits t) {states : List AggregateState}
    (hstate : ¬ skips spec → states[group]? = some (spec.stateOver t arithmetic members)) (bytes : Nat) :
    (updateGroup arithmetic t limits skips row group spec states bytes).Ends
      (fun updated => updated.1 =
        if skips spec then states else states.set group (spec.stateOver t arithmetic (members ++ [row]))) limits.Refusal := by
  unfold updateGroup
  by_cases hskips : skips spec = true
  · rw [if_pos hskips, if_pos hskips]
    rfl
  · rw [if_neg hskips, if_neg hskips, hstate hskips, orPanic_some, Exec.ok_bind]
    refine (AggregateState.update_ends hc hfits hrow hlength bytes).bind fun updated h => ?_
    exact congrArg (states.set group) h

theorem updateStates_ends (hfits : ∀ spec ∈ specs, spec.Fits t) {states : AggregateSpec → List AggregateState}
    (hstates : ∀ spec, ¬ skips spec → (states spec)[group]? = some (spec.stateOver t arithmetic members)) (bytes : Nat) :
    (updateStates arithmetic t limits skips row group bytes (specs.map states) specs).Ends
      (fun updated => updated.1 = specs.map fun spec =>
        if skips spec then states spec else (states spec).set group (spec.stateOver t arithmetic (members ++ [row])))
      limits.Refusal := by
  induction specs generalizing bytes with
  | nil => rfl
  | cons spec specs ih =>
    obtain ⟨hfirst, hrest⟩ := List.forall_mem_cons.1 hfits
    rw [List.map_cons, updateStates]
    refine (updateGroup_ends hc hrow hlength hfirst (hstates spec) bytes).bind fun updated hupdated => ?_
    refine (ih hrest updated.2).bind fun rest hrest => ?_
    show _ :: _ = _
    rw [hupdated, hrest, List.map_cons]

end

/-! ## One row -/

/-- What a scan holds behind some rows: their groups, and the states over each of them of the aggregates that are not
skipped. -/
structure GroupScan.Behind (t : Table) (columns : List Nat) (specs : List AggregateSpec) (arithmetic : FloatArithmetic)
    (skips : AggregateSpec → Bool) (fixed : AggregateSpec → List AggregateState) (rows : List Nat) (scan : GroupScan) :
    Prop where
  count : scan.groupCount = (groupRows t columns rows).length
  index : scan.groups.Holds columns.length (groupKeys t columns rows)
  states : scan.states = specs.map fun spec =>
    if skips spec then fixed spec else (groupRows t columns rows).map (spec.stateOver t arithmetic)

section
variable {declared : List Declared} {t : Table} {columns rows : List Nat} {specs : List AggregateSpec}
  {arithmetic : FloatArithmetic} {limits : QueryResultLimits} {row : Nat} {skips : AggregateSpec → Bool}
  {fixed : AggregateSpec → List AggregateState} {scan : GroupScan} (hasher : Bytes → UInt64)
  (hc : Table.Consistent declared t) (hkeys : KeyColumns t columns) (hrow : row < t.rowCount)
  (hskips : columns ≠ [] → ∀ spec, skips spec = false) (hlength : (rows ++ [row]).length < 2 ^ 63)
  (hbehind : scan.Behind t columns specs arithmetic skips fixed rows)

/-- The groups with one for the row, and the rows in it that are taken in already. -/
structure GroupScan.Opened (t : Table) (columns : List Nat) (specs : List AggregateSpec) (arithmetic : FloatArithmetic)
    (skips : AggregateSpec → Bool) (fixed : AggregateSpec → List AggregateState) (rows : List Nat) (row : Nat)
    (opened : List (List Nat)) (members : List Nat) (group : Nat) (scan : GroupScan) : Prop where
  member : opened[group]? = some members
  sublist : members.Sublist rows
  grows : groupRows t columns (rows ++ [row]) = opened.set group (members ++ [row])
  count : scan.groupCount = (groupRows t columns (rows ++ [row])).length
  index : scan.groups.Holds columns.length (groupKeys t columns (rows ++ [row]))
  states : scan.states = specs.map fun spec =>
    if skips spec then fixed spec else opened.map (spec.stateOver t arithmetic)

include hc hkeys hrow hskips hlength hbehind in
theorem GroupScan.group_ends : (scan.group hasher t columns specs limits row).Ends
    (fun found => ∃ opened members,
      GroupScan.Opened t columns specs arithmetic skips fixed rows row opened members found.1 found.2) limits.Refusal := by
  obtain ⟨probe, hfind, hprobe⟩ := GroupIndex.find_eq hasher hc hkeys hrow hbehind.index scan.probe
  unfold GroupScan.group
  rw [hfind, Exec.ok_bind]
  dsimp only
  cases hplace : (groupKeys t columns rows).findIdx? (sliceEq · (keyValues t columns row)) with
  | some group =>
    obtain ⟨members, hmember, hsublist, hgrows, _⟩ := groupRows_concat_of_some hplace
    refine ⟨groupRows t columns rows, members, hmember, hsublist, hgrows, ?_, ?_, hbehind.states⟩
    · rw [hgrows, List.length_set]
      exact hbehind.count
    · rw [groupKeys_concat_of_some hplace]
      exact hbehind.index
  | none =>
    obtain ⟨hcolumns, hgrows⟩ := groupRows_concat_of_none hplace
    have hgroups : (groupRows t columns rows).length ≤ rows.length := length_groupRows_le hcolumns
    have hkeyCount : (groupKeys t columns rows).length = (groupRows t columns rows).length := List.length_map ..
    obtain ⟨groups, hinsert, hindex⟩ := GroupIndex.insert_eq hasher hc hkeys hrow hbehind.index hprobe hplace
    refine (enforceResourceLimit_ends (Nat.min_le_right _ _) fun hunlimited => by rw [hunlimited]; rfl).bind fun _ _ => ?_
    refine (enforceResourceLimit_ends (Nat.min_le_right _ _) fun hunlimited => by rw [hunlimited]; rfl).bind fun _ _ => ?_
    refine (enforceResourceLimit_ends (Nat.min_le_right _ _) fun hunlimited => by rw [hunlimited]; rfl).bind fun _ _ => ?_
    rw [hbehind.count, ← hkeyCount, hinsert, Exec.ok_bind, hkeyCount]
    refine ⟨groupRows t columns rows ++ [[]], [], List.getElem?_concat_length, List.nil_sublist _, ?_, ?_, ?_, ?_⟩
    · rw [hgrows, List.set_append_right _ _ (Nat.le_refl _), Nat.sub_self]
      rfl
    · rw [hgrows, List.length_append]
      rw [List.length_append, List.length_singleton] at hlength
      exact Nat.min_eq_left (le_trans (Nat.succ_le_succ hgroups) (hlength.le.trans (by decide)))
    · rw [groupKeys_concat_of_none hplace]
      exact hindex
    · show List.zipWith _ scan.states specs = _
      rw [hbehind.states, List.zipWith_map_left, List.zipWith_self]
      apply List.map_congr_left
      intro spec _
      rw [hskips hcolumns spec, if_neg Bool.false_ne_true, if_neg Bool.false_ne_true, List.map_append, List.map_singleton,
        AggregateSpec.stateOver_nil]

include hc hkeys hrow hskips hlength hbehind in
/-- **A step** makes the scan behind the rows that behind one more row. -/
theorem GroupScan.step_ends (hfits : ∀ spec ∈ specs, spec.Fits t) :
    (scan.step hasher arithmetic t columns specs limits skips row).Ends
      (GroupScan.Behind t columns specs arithmetic skips fixed (rows ++ [row])) limits.Refusal := by
  unfold GroupScan.step
  refine (GroupScan.group_ends hasher hc hkeys hrow hskips hlength hbehind).bind fun found hfound => ?_
  obtain ⟨opened, members, hopened⟩ := hfound
  have hmembers : (members ++ [row]).length < 2 ^ 63 := by
    have hle := hopened.sublist.length_le
    rw [List.length_append] at hlength ⊢
    omega
  have hstates : ∀ spec, ¬ skips spec → (if skips spec then fixed spec else
      opened.map (spec.stateOver t arithmetic))[found.1]? = some (spec.stateOver t arithmetic members) := by
    intro spec hspec
    rw [if_neg hspec, List.getElem?_map, hopened.member]
    rfl
  dsimp only
  rw [hopened.states]
  refine (updateStates_ends hc hrow hmembers hfits hstates found.2.aggregateStateBytes).bind fun updated hupdated => ?_
  refine ⟨hopened.count, hopened.index, hupdated.trans (List.map_congr_left fun spec _ => ?_)⟩
  by_cases hspec : skips spec = true
  · rw [if_pos hspec, if_pos hspec, if_pos hspec]
  · rw [if_neg hspec, if_neg hspec, if_neg hspec, hopened.grows, List.map_set]

end

/-! ## The whole scan -/

/-- The keys of the groups of some rows, and the value of every aggregate over each of them. -/
def groupedData (t : Table) (columns : List Nat) (specs : List AggregateSpec) (arithmetic : FloatArithmetic)
    (skips : AggregateSpec → Bool) (fixed : AggregateSpec → List AggregateState) (rows : List Nat) :
    Exec Error GroupedData := do
  let aggregates ← collect (specs.map fun spec => collect
    ((if skips spec then fixed spec else (groupRows t columns rows).map (spec.stateOver t arithmetic)).map
      (AggregateState.finish spec arithmetic)))
  .ok { keys := (groupKeys t columns rows).map GroupKey.ofValues, aggregates }

section
variable {declared : List Declared} {t : Table} {columns rows : List Nat} {specs : List AggregateSpec}
  {arithmetic : FloatArithmetic} {skips : AggregateSpec → Bool} {fixed : AggregateSpec → List AggregateState}
  {scan : GroupScan} (hasher : Bytes → UInt64)
  (hc : Table.Consistent declared t) (hkeys : KeyColumns t columns) (hrows : ∀ row ∈ rows, row < t.rowCount)
include hc hkeys hrows

theorem length_groupKeys {key : List Value} (hkey : key ∈ groupKeys t columns rows) : key.length = columns.length := by
  obtain ⟨members, hmembers, rfl⟩ := List.mem_map.1 hkey
  by_cases hcolumns : columns = []
  · subst hcolumns
    cases members <;> rfl
  · rw [groupRows, if_neg hcolumns] at hmembers
    cases members with
    | nil => exact absurd rfl (KeyedGroups.ne_nil_of_mem_groups hmembers)
    | cons first rest =>
      have hfirst : first ∈ rows := (KeyedGroups.sublist_of_mem_groups hmembers).subset List.mem_cons_self
      exact length_keyValues hc hkeys (hrows first hfirst)

/-- **A scan** comes to the groups of the rows, or to the refusal of a limit. -/
theorem scanGroups_comesTo (limits : QueryResultLimits) (hskips : columns ≠ [] → ∀ spec, skips spec = false)
    (hlength : rows.length < 2 ^ 63) (hfits : ∀ spec ∈ specs, spec.Fits t)
    (hstart : scan.Behind t columns specs arithmetic skips fixed []) :
    (scanGroups hasher arithmetic t columns specs limits skips scan rows).ComesTo
      (groupedData t columns specs arithmetic skips fixed rows) limits.Refusal := by
  have hscan : (OrderedReduction.scanFrom (GroupScan.step hasher arithmetic t columns specs limits skips) scan rows).Ends
      (GroupScan.Behind t columns specs arithmetic skips fixed rows) limits.Refusal := by
    refine Ends.scanFrom (fun before row scan hbegins hbehind => ?_) hstart
    have hrow : row ∈ rows := hbegins.subset (List.mem_append_right _ (List.mem_singleton.2 rfl))
    exact GroupScan.step_ends hasher hc hkeys (hrows row hrow) hskips (hbegins.length_le.trans_lt hlength) hbehind hfits
  refine ComesTo.of_ends hscan fun scan hbehind => .inl ?_
  have hkeyCount : scan.groupCount = (groupKeys t columns rows).length := hbehind.count.trans (List.length_map ..).symm
  rw [hkeyCount, hbehind.index.intoKeys fun key hkey => length_groupKeys hc hkeys hrows hkey, Exec.ok_bind,
    hbehind.states, List.zipWith_map_left, List.zipWith_self]
  rfl

end

/-! ## Queries with keys -/

section
variable {t : Table} {columns rows : List Nat} {specs : List AggregateSpec} {limits : QueryResultLimits}

theorem behind_start (hcolumns : columns ≠ []) (arithmetic : FloatArithmetic)
    (fixed : AggregateSpec → List AggregateState) (bytes : Nat) :
    (GroupScan.start rows columns (specs.map fun _ => []) bytes).Behind t columns specs arithmetic (fun _ => false) fixed
      [] where
  count := by
    rw [groupRows, if_neg hcolumns]
    exact if_neg hcolumns
  index := by
    rw [groupKeys_nil]
    exact GroupIndex.holds_new _
  states := by
    rw [groupRows, if_neg hcolumns]
    rfl

theorem enforceAggregateStates_ends (planned specCount : Nat) :
    (enforceAggregateStates planned specCount limits).Ends (fun _ => True) limits.Refusal := by
  unfold enforceAggregateStates
  refine (enforceResourceLimit_ends (Nat.min_le_right _ _) fun hunlimited => by rw [hunlimited]; rfl).bind fun _ _ => ?_
  refine (enforceResourceLimit_ends (Nat.min_le_right _ _) fun hunlimited => by rw [hunlimited]; rfl).bind fun _ _ => ?_
  exact trivial

theorem enforceFirstGroup_ends : (enforceFirstGroup rows columns limits).Ends (fun _ => True) limits.Refusal := by
  unfold enforceFirstGroup
  split
  · refine (enforceResourceLimit_ends (by decide) fun hunlimited => by rw [hunlimited]; rfl).bind fun _ _ => ?_
    refine (enforceResourceLimit_ends (Nat.min_le_right _ _) fun hunlimited => by rw [hunlimited]; rfl).bind fun _ _ => ?_
    refine (enforceResourceLimit_ends (Nat.min_le_right _ _) fun hunlimited => ?_).imp fun _ _ => trivial
    rw [hunlimited]
    rfl
  · exact trivial

/-- The parallel routes are for one aggregate over one column of truth values. -/
def ScansGroups (t : Table) (columns : List Nat) (specs : List AggregateSpec) : Prop :=
  ∀ column values, columns = [column] → specs.length = 1 → t.columns[column]? ≠ some (.bool values)

theorem groupedBoolRoute_none (hkeys : KeyColumns t columns) (hscans : ScansGroups t columns specs)
    (accepts : AggregateSpec → Bool) (route : List Bool → AggregateSpec → Exec Error (Option GroupedData)) :
    groupedBoolRoute t columns specs accepts route = .ok none := by
  rcases columns with _ | ⟨column, _ | ⟨second, others⟩⟩
  · rfl
  · rcases specs with _ | ⟨spec, _ | ⟨next, more⟩⟩
    · rfl
    · unfold groupedBoolRoute
      dsimp only
      split
      · obtain ⟨physical, hphysical⟩ := hkeys.found column (List.mem_singleton.2 rfl)
        rw [columnAt, hphysical, orPanic_some, Exec.ok_bind]
        cases physical with
        | bool values => exact absurd hphysical (hscans column values rfl rfl)
        | _ => rfl
      · rfl
    · rfl
  · rfl

end

/-! ## Execution -/

section
variable {declared : List Declared} {t : Table} {columns rows : List Nat} {specs : List AggregateSpec}
  (hasher : Bytes → UInt64) (arithmetic : FloatArithmetic) (lanes : Nat → Lanes)

theorem executeGrouped_comesTo (hc : Table.Consistent declared t) (hkeys : KeyColumns t columns) (hcolumns : columns ≠ [])
    (hscans : ScansGroups t columns specs) (hfits : ∀ spec ∈ specs, spec.Fits t) (hrows : ∀ row ∈ rows, row < t.rowCount)
    (hlength : rows.length < 2 ^ 63) (limits : QueryResultLimits) :
    (executeGrouped hasher arithmetic lanes t rows columns specs limits).ComesTo
      (groupedData t columns specs arithmetic (fun _ => false) (fun _ => []) rows) limits.Refusal := by
  have hroute (accepts : AggregateSpec → Bool) (route : List Bool → AggregateSpec → Exec Error (Option GroupedData)) :=
    groupedBoolRoute_none hkeys hscans accepts route
  have hplanned : plannedGroupCount rows columns limits = .ok (min rows.length limits.maxGroups) := if_neg hcolumns
  unfold executeGrouped
  rw [hplanned, Exec.ok_bind]
  refine ComesTo.of_ends (enforceAggregateStates_ends _ _) fun bytes _ => ?_
  refine ComesTo.of_ends enforceFirstGroup_ends fun _ _ => ?_
  simp only [executeGroupedBoolCount, executeGroupedBoolSumOrAvg, executeGroupedBoolMin, executeGroupedBoolMax,
    executeGroupedBoolExtremum, hroute, firstRoute, Exec.ok_bind, Option.isSome_none, Bool.false_eq_true, if_false,
    if_neg hcolumns]
  exact scanGroups_comesTo hasher hc hkeys hrows limits (fun _ _ => rfl) hlength hfits
    (behind_start hcolumns arithmetic _ bytes)

/-- **GROUP BY is exact**: a query with keys that is scanned comes to the groups of its rows with their aggregates,
whatever the hashes and the lanes are, and nothing but a limit can refuse it. -/
theorem group_by_exact (hreachable : Table.Reachable declared t) (hkeys : KeyColumns t columns) (hcolumns : columns ≠ [])
    (hscans : ScansGroups t columns specs) (hfits : ∀ spec ∈ specs, spec.Fits t) (hrows : ∀ row ∈ rows, row < t.rowCount)
    (hlength : rows.length < 2 ^ 63) :
    (∀ limits : QueryResultLimits, (executeGrouped hasher arithmetic lanes t rows columns specs limits).ComesTo
      (groupedData t columns specs arithmetic (fun _ => false) (fun _ => []) rows) limits.Refusal) ∧
    executeGrouped hasher arithmetic lanes t rows columns specs .unlimited =
      groupedData t columns specs arithmetic (fun _ => false) (fun _ => []) rows := by
  have hcomes := executeGrouped_comesTo hasher arithmetic lanes (Table.reachable_consistent hreachable) hkeys hcolumns
    hscans hfits hrows hlength
  exact ⟨hcomes, (hcomes .unlimited).eq QueryResultLimits.not_refusal_unlimited⟩

end

/-- A key that comes twice. -/
def repeatedSample : Table :=
  ⟨"events", [⟨"id", .int64⟩], [.int64 [3, 5, 3]], 3, 24, .default, 0, none, some ⟨0, [⟨0, 9, 0, 3⟩]⟩⟩

theorem repeatedSample_reachable : ∃ declared, Table.Reachable declared repeatedSample := by
  have hnew : Table.withInt64RangePartitions "events" "id" [⟨0, 9, [3, 5, 3]⟩] ⟨2, 8, 1024⟩ .default =
      .ok repeatedSample := by
    decide +kernel
  exact ⟨_, .withInt64RangePartitions hnew⟩

theorem group_by_exact_sample : executeGrouped (fun _ => 0) ⟨fun x _ => x, fun x _ => x, fun x _ => x, fun x _ => x⟩
    (fun _ => ⟨none, fun _ => true, fun _ => true⟩) repeatedSample [0, 1, 2] [0] [⟨.count, none, none⟩] .unlimited =
      .ok ⟨[.one (.int64 3), .one (.int64 5)], [[.int64 2, .int64 1]]⟩ := by
  obtain ⟨_, hreachable⟩ := repeatedSample_reachable
  have hkeys : KeyColumns repeatedSample [0] := ⟨by simp [repeatedSample], List.nodup_singleton 0⟩
  have hscans : ScansGroups repeatedSample [0] [⟨.count, none, none⟩] := by
    intro column values hcolumn _
    obtain rfl := (List.cons.inj hcolumn).1
    intro h
    cases h
  have hfits : ∀ spec ∈ [(⟨.count, none, none⟩ : AggregateSpec)], spec.Fits repeatedSample := by
    intro spec hspec
    obtain rfl := List.mem_singleton.1 hspec
    constructor
    · intro index h
      cases h
    · exact fun _ => ⟨rfl, rfl⟩
    · intro h
      cases h
    · intro h
      rcases h with h | h <;> cases h
  have hrows : ∀ row ∈ [0, 1, 2], row < repeatedSample.rowCount := by decide
  have hgroups := (group_by_exact (fun _ => 0) ⟨fun x _ => x, fun x _ => x, fun x _ => x, fun x _ => x⟩
    (fun _ => ⟨none, fun _ => true, fun _ => true⟩) hreachable hkeys (by decide) hscans hfits hrows (by decide)).2
  exact hgroups.trans (by decide +kernel)

end RustHouse.Batch
