import RustHouse.GroupScanSound
import RustHouse.SelectSound

/-!
# SELECT DISTINCT

Without an order of its own, a query for distinct rows returns the keys of the groups
of its rows: every row once, in the order in which they come first.
-/

namespace RustHouse.Batch

open Checked Exec
open OrderedReduction (collect)

/-! ## Items -/

/-- The items of distinct columns, each of which reads its place in the key. -/
def distinctItems (columns : List Nat) : List ResolvedItem :=
  columns.map fun source => .column source (columns.idxOf? source)

section
variable {t : Table} {columns groups result : List Nat} {items : List SelectItem} {resolved : ResolvedItems}

theorem resolveItemsFrom_distinct {state : Nat} {hasAggregate : Bool}
    (hgroups : resolveDistinctColumns t columns items = .ok result)
    (hresolved : resolveItemsFrom t hasAggregate groups state items = .ok resolved) :
    ∃ sources, result = columns ++ sources ∧ resolved.aggregateSpecs = [] ∧
      resolved.items = sources.map fun source => .column source (groups.idxOf? source) := by
  induction items generalizing columns state resolved with
  | nil =>
    obtain rfl := Exec.ok.inj hgroups
    obtain rfl := Exec.ok.inj hresolved
    exact ⟨[], (List.append_nil _).symm, rfl, rfl⟩
  | cons item items ih =>
    cases item with
    | column name aliasName =>
      cases aliasName with
      | none =>
        obtain ⟨source, hsource, hgroups⟩ := Exec.bind_eq_ok.1 hgroups
        obtain ⟨_, _, hgroups⟩ := Exec.bind_eq_ok.1 hgroups
        obtain ⟨first, hfirst, hresolved⟩ := Exec.bind_eq_ok.1 hresolved
        obtain ⟨rest, hrest, hresolved⟩ := Exec.bind_eq_ok.1 hresolved
        obtain rfl := Exec.ok.inj hresolved
        obtain ⟨source', hsource', hfirst⟩ := Exec.bind_eq_ok.1 hfirst
        obtain rfl := Exec.ok.inj (hsource.symm.trans hsource')
        obtain ⟨field, _, hfirst⟩ := Exec.bind_eq_ok.1 hfirst
        obtain ⟨position, hposition, hfirst⟩ := Exec.bind_eq_ok.1 hfirst
        obtain ⟨_, _, hfirst⟩ := Exec.bind_eq_ok.1 hfirst
        obtain rfl := Exec.ok.inj hfirst
        obtain rfl : groups.idxOf? source = position := by
          unfold groupPositionOf at hposition
          dsimp only at hposition
          split at hposition
          · cases hposition
          · exact Exec.ok.inj hposition
        obtain ⟨sources, rfl, hspecs, hitems⟩ := ih hgroups hrest
        refine ⟨source :: sources, List.append_assoc _ _ _, hspecs, ?_⟩
        exact congrArg (_ :: ·) hitems
      | some aliasName => cases hgroups
    | _ => cases hgroups

end

/-! ## Rows -/

section
variable {t : Table} {columns rows : List Nat} {group : Nat}

/-- The groups of a query without aggregates. -/
def distinctData (t : Table) (columns rows : List Nat) : GroupedData := ⟨(groupKeys t columns rows).map GroupKey.ofValues, []⟩

theorem ofValues_value (key : List Value) (position : Nat) : (GroupKey.ofValues key).value position = key[position]? := by
  rcases key with _ | ⟨first, _ | ⟨second, others⟩⟩
  · rfl
  · cases position <;> rfl
  · rfl

theorem keyValue_distinct {key : List Value} (hkey : (groupKeys t columns rows)[group]? = some key) (position : Nat) :
    (distinctData t columns rows).keyValue group position = key[position]? := by
  rw [GroupedData.keyValue, distinctData, List.getElem?_map, hkey]
  exact ofValues_value key position

theorem map_distinctItems {β : Type} {f : ResolvedItem → β} {g : Option Value → β} (hnodup : columns.Nodup)
    {key : List Value} (hlength : key.length = columns.length)
    (hf : ∀ source position, columns[position]? = some source → f (.column source (some position)) = g key[position]?) :
    (distinctItems columns).map f = key.map fun value => g (some value) := by
  apply List.ext_getElem?
  intro i
  rw [distinctItems, List.getElem?_map, List.getElem?_map, List.getElem?_map]
  cases hsource : columns[i]? with
  | none =>
    have hkey : key[i]? = none := by
      rw [List.getElem?_eq_none_iff] at hsource ⊢
      omega
    rw [hkey]
    rfl
  | some source =>
    obtain ⟨hi, hat⟩ := List.getElem?_eq_some_iff.1 hsource
    have hposition : columns.idxOf? source = some i := by
      rw [List.idxOf?, List.findIdx?_eq_some_iff_getElem]
      refine ⟨hi, beq_iff_eq.2 hat, fun j hj heq => ?_⟩
      exact Nat.ne_of_lt hj (hnodup.getElem_inj_iff.1 ((eq_of_beq heq).trans hat.symm))
    have hvalue := List.getElem?_eq_getElem (hlength.symm ▸ hi : i < key.length)
    rw [Option.map_some, Option.map_some, hposition, hf source i hsource, hvalue]
    rfl

variable (hnodup : columns.Nodup) (hlength : ∀ key ∈ groupKeys t columns rows, key.length = columns.length)
include hnodup hlength

theorem groupedValues_distinct {key : List Value} (hkey : (groupKeys t columns rows)[group]? = some key) :
    (distinctItems columns).mapM (ResolvedItem.groupedValue (distinctData t columns rows) group) = some key := by
  have hvalues : (distinctItems columns).map (ResolvedItem.groupedValue (distinctData t columns rows) group) =
      key.map fun value => some value :=
    map_distinctItems (g := id) hnodup (hlength key (List.mem_of_getElem? hkey)) fun _ position _ =>
      keyValue_distinct hkey position
  have hcollected : (key.map fun value => some value).mapM id = some key := by
    rw [List.mapM_map]
    exact (@mapM_of_forall _ _ _ id _ fun _ _ => rfl).trans (congrArg some (List.map_id _))
  rw [← hcollected, ← hvalues, List.mapM_map]
  rfl

theorem charges_distinct {key : List Value} (hkey : (groupKeys t columns rows)[group]? = some key) :
    (distinctItems columns).map (ResolvedItem.groupedStringBytes (distinctData t columns rows) group) =
      (key.map fun value => some value.stringBytes).map some := by
  rw [List.map_map]
  refine map_distinctItems (g := fun value => value.map fun value => some value.stringBytes) hnodup
    (hlength key (List.mem_of_getElem? hkey)) fun _ position _ => ?_
  show ((distinctData t columns rows).keyValue group position).map _ = _
  rw [keyValue_distinct hkey]

variable {selected : List Nat} {keys : List (List Value)}
  (hselected : List.Forall₂ (fun group key => (groupKeys t columns rows)[group]? = some key) selected keys)
include hselected

/-- **Groups are projected** to their keys. -/
theorem project_distinct : (distinctData t columns rows).project selected (distinctItems columns) = some keys := by
  unfold GroupedData.project
  induction hselected with
  | nil => rfl
  | cons hkey _ ih =>
    rw [List.mapM_cons, groupedValues_distinct hnodup hlength hkey, ih]
    rfl

theorem allCharges_distinct :
    (selected.flatMap fun group => (distinctItems columns).map
        (ResolvedItem.groupedStringBytes (distinctData t columns rows) group)) =
      (keys.flatMap fun key => key.map fun value => some value.stringBytes).map some := by
  induction hselected with
  | nil => rfl
  | cons hkey _ ih =>
    rw [List.flatMap_cons, ih, charges_distinct hnodup hlength hkey, List.flatMap_cons, List.map_append]

end

theorem sum_charges (keys : List (List Value)) :
    ((keys.flatMap fun key => key.map fun value => some value.stringBytes).map fun charge => charge.getD 0).sum =
      textBytes keys.flatten := by
  induction keys with
  | nil => rfl
  | cons key keys ih =>
    rw [List.flatMap_cons, List.map_append, List.sum_append, ih, List.flatten_cons, textBytes_append, textBytes,
      List.map_map]
    rfl

theorem forall₂_places {α : Type} (l : List α) (limit : Option Nat) (offset : Nat) :
    List.Forall₂ (fun place a => l[place]? = some a) ((firstOf limit (List.range l.length)).drop offset)
      ((firstOf limit l).drop offset) := by
  have hall : List.Forall₂ (fun place a => l[place]? = some a) (List.range l.length) l := by
    refine List.forall₂_iff_get.2 ⟨List.length_range, fun i hrange hi => ?_⟩
    simp
  apply List.forall₂_drop
  cases limit with
  | none => exact hall
  | some n => exact List.forall₂_take n hall

theorem QueryResult.within_unlimited (result : QueryResult) : result.Within .unlimited := by
  refine ⟨Nat.min_le_right _ _, Nat.min_le_right _ _, ?_⟩
  rw [QueryResult.estimatedRetainedBytes_eq]
  exact Nat.min_le_right _ _

/-! ## Queries -/

theorem planSelect_distinct {t : Table} {select : Select} {plan : SelectPlan} (h : planSelect t select = .ok plan)
    (hdistinct : select.distinct = true) :
    plan.resolved.items = distinctItems plan.groupColumns ∧ plan.resolved.aggregateSpecs = [] := by
  obtain ⟨predicate, _, h⟩ := Exec.bind_eq_ok.1 h
  obtain ⟨groupColumns, hgroups, h⟩ := Exec.bind_eq_ok.1 h
  obtain ⟨resolved, hresolved, h⟩ := Exec.bind_eq_ok.1 h
  obtain ⟨_, _, h⟩ := Exec.bind_eq_ok.1 h
  obtain ⟨_, _, h⟩ := Exec.bind_eq_ok.1 h
  obtain ⟨_, _, h⟩ := Exec.bind_eq_ok.1 h
  obtain rfl := Exec.ok.inj h
  rw [resolveKeyColumns, if_pos hdistinct] at hgroups
  obtain ⟨_, _, hresolved⟩ := Exec.bind_eq_ok.1 hresolved
  obtain ⟨sources, hsources, hspecs, hitems⟩ := resolveItemsFrom_distinct hgroups hresolved
  obtain rfl : groupColumns = sources := hsources
  exact ⟨hitems, hspecs⟩

theorem retainGroups_all (groups : List Nat) : retainGroups (fun _ => some true) groups = some groups := by
  induction groups with
  | nil => rfl
  | cons group groups ih =>
    rw [retainGroups, ih]
    rfl

/-- A query for distinct rows, without an order of its own, on a table that the engine can come to hold. -/
structure DistinctQuery (catalog : Catalog) (select : Select) (t : Table) (plan : SelectPlan)
    (selectionLimit : Option Nat) : Prop where
  reachable : ∃ declared, Table.Reachable declared t
  rows : t.rowCount < 2 ^ 63
  table : catalog.table select.table = .ok t
  shape : validateSelectShape select = .ok selectionLimit
  planned : planSelect t select = .ok plan
  distinct : select.distinct = true
  unordered : select.orderBy = []

/-- The rows of a query for distinct rows: the keys of the groups, on the page that is asked for. -/
def distinctRows (t : Table) (plan : SelectPlan) (selectionLimit offset : Option Nat) : List (List Value) :=
  (firstOf selectionLimit (groupKeys t plan.groupColumns (rowsWhere t plan.predicate))).drop (offset.getD 0)

section
variable {lib : QueryLibrary} {catalog : Catalog} {limits : QueryResultLimits} {select : Select} {t : Table}
  {plan : SelectPlan} {selectionLimit : Option Nat}

/-- What the shape and the plan of a query for distinct rows leave to be done. -/
structure DistinctPlan (declared : List Declared) (select : Select) (t : Table) (plan : SelectPlan) : Prop where
  consistent : Table.Consistent declared t
  described : Table.Described t
  sound : plan.Sound t select
  items : plan.resolved.items = distinctItems plan.groupColumns
  specs : plan.resolved.aggregateSpecs = []
  columns : plan.groupColumns ≠ []
  having : plan.having = none
  window : plan.windowOrdering = none
  ordering : plan.ordering = []

theorem DistinctQuery.plans (hquery : DistinctQuery catalog select t plan selectionLimit) :
    ∃ declared, DistinctPlan declared select t plan := by
  obtain ⟨declared, hreachable⟩ := hquery.reachable
  have hc := Table.reachable_consistent hreachable
  have hsound := planSelect_sound hc hquery.planned
  obtain ⟨hitems, hspecs⟩ := planSelect_distinct hquery.planned hquery.distinct
  obtain ⟨hshape, _, _, _⟩ := validateSelectShape_eq_ok hquery.shape
  unfold validateDistinctShape at hshape
  rw [if_neg (not_not.2 hquery.distinct), rejectIf_eq_ok, not_or, not_or, not_not, decide_eq_true_iff] at hshape
  obtain ⟨hcolumns, _, hhaving⟩ := hshape
  have hnumbers : ¬ select.items.any SelectItem.isRowNumber := by
    intro hany
    obtain ⟨item, hitem, hnumber⟩ := List.any_eq_true.1 hany
    have hcolumn := List.all_eq_true.1 hcolumns.2 item hitem
    cases item <;> cases hnumber
    cases hcolumn
  refine ⟨declared, hc, Table.reachable_described hreachable, hsound, hitems, hspecs, ?_, hsound.noHaving ?_,
    hsound.windowed hnumbers, hsound.unordered hquery.unordered⟩
  · intro hnil
    have hlength := hsound.distinct hquery.distinct
    rw [hnil] at hlength
    exact hcolumns.1 (List.eq_nil_of_length_eq_zero hlength.symm)
  · exact Option.not_isSome_iff_eq_none.1 hhaving

section
variable {declared : List Declared} {rows : List Nat} (hplan : DistinctPlan declared select t plan)
  (hrows : ∀ row ∈ rows, row < t.rowCount)
include hplan hrows

theorem DistinctPlan.length_keys {key : List Value} (hkey : key ∈ groupKeys t plan.groupColumns rows) :
    key.length = plan.groupColumns.length := length_groupKeys hplan.consistent hplan.sound.groups hrows hkey

variable (lib) in
theorem DistinctPlan.grouped (hcount : rows.length < 2 ^ 63) (lanes : Nat → Lanes) (limits : QueryResultLimits) :
    (executeGrouped lib.hasher lib.arithmetic lanes t rows plan.groupColumns plan.resolved.aggregateSpecs limits).ComesTo
      (.ok (distinctData t plan.groupColumns rows)) limits.Refusal := by
  have hdata : groupedData t plan.groupColumns plan.resolved.aggregateSpecs lib.arithmetic (fun _ => false) (fun _ => [])
      rows = .ok (distinctData t plan.groupColumns rows) := by
    rw [hplan.specs]
    rfl
  have hscans : ScansGroups t plan.groupColumns plan.resolved.aggregateSpecs := by
    intro column values _ hone
    rw [hplan.specs] at hone
    cases hone
  rw [← hdata]
  exact executeGrouped_comesTo lib.hasher lib.arithmetic lanes hplan.consistent hplan.sound.groups hplan.columns hscans
    hplan.sound.specs hrows hcount limits

theorem executeGroupedSelect_distinct {lanes : Nat → Lanes} (offset : Option Nat)
    (hgrouped : executeGrouped lib.hasher lib.arithmetic lanes t rows plan.groupColumns plan.resolved.aggregateSpecs limits =
      .ok (distinctData t plan.groupColumns rows)) :
    let keys := (firstOf selectionLimit (groupKeys t plan.groupColumns rows)).drop (offset.getD 0)
    executeGroupedSelect lib t limits lanes plan rows true selectionLimit offset none =
      admitResult keys.length plan.resolved.resultColumns.length plan.resolved.resultColumns limits none
        ((keys.flatMap fun key => key.map fun value => some value.stringBytes).map some) >>= fun _ => .ok keys := by
  intro keys
  have hplaces : List.Forall₂ _ _ keys :=
    forall₂_places (groupKeys t plan.groupColumns rows) selectionLimit (offset.getD 0)
  have hlength : ∀ key ∈ groupKeys t plan.groupColumns rows, key.length = plan.groupColumns.length :=
    fun key hkey => hplan.length_keys hrows hkey
  have hselected : selectedGroups lib plan true (distinctData t plan.groupColumns rows) selectionLimit =
      some (firstOf selectionLimit (List.range (groupKeys t plan.groupColumns rows).length)) := by
    have hlen : (distinctData t plan.groupColumns rows).len = (groupKeys t plan.groupColumns rows).length :=
      List.length_map ..
    unfold selectedGroups
    rw [hplan.having, hlen]
    simp only [Option.elim_none, retainGroups_all, Option.bind_eq_bind, Option.bind_some]
    exact if_pos ⟨trivial, hplan.ordering⟩
  rw [executeGroupedSelect, hgrouped, Exec.ok_bind, hselected, orPanic_some, Exec.ok_bind, hplan.items]
  show (admitResult _ _ _ _ _ _ >>= fun _ => orPanic (GroupedData.project _ _ _)) = _
  rw [applyOffset, project_distinct hplan.sound.groups.nodup hlength hplaces,
    allCharges_distinct hplan.sound.groups.nodup hlength hplaces, hplaces.length_eq, ← hplan.items,
    hplan.sound.items.length_eq]
  rfl

theorem DistinctPlan.admits (hrowCount : t.rowCount ≤ usizeMax) (hcount : rows.length ≤ t.rowCount)
    {keys : List (List Value)} (hkeys : keys.Sublist (groupKeys t plan.groupColumns rows)) (limits : QueryResultLimits) :
    admitResult keys.length plan.resolved.resultColumns.length plan.resolved.resultColumns limits none
        ((keys.flatMap fun key => key.map fun value => some value.stringBytes).map some) = .ok () ↔
      QueryResult.Within limits ⟨plan.resolved.resultColumns, keys⟩ := by
  have hrectangular : QueryResult.Rectangular ⟨plan.resolved.resultColumns, keys⟩ := by
    intro key hkey
    show key.length = plan.resolved.resultColumns.length
    rw [hplan.length_keys hrows (hkeys.subset hkey), ← hplan.sound.items.length_eq, hplan.items, distinctItems,
      List.length_map]
  have hsize : keys.length ≤ usizeMax := by
    have hgroups : (groupKeys t plan.groupColumns rows).length ≤ t.rowCount := by
      rw [groupKeys, List.length_map]
      exact (length_groupRows_le hplan.columns).trans hcount
    exact hkeys.length_le.trans (hgroups.trans hrowCount)
  exact @admitResult_iff none "" ⟨plan.resolved.resultColumns, keys⟩ limits _ hrectangular
    (fun first hfirst => absurd hfirst (Option.not_mem_none first)) (sum_charges keys) hsize

end

namespace DistinctQuery

variable (hquery : DistinctQuery catalog select t plan selectionLimit)
include hquery

theorem rowCount_le : t.rowCount ≤ usizeMax := hquery.rows.le.trans (by decide)

theorem execute_eq {declared : List Declared} (hplan : DistinctPlan declared select t plan) (lanes : Nat → Lanes)
    (limits : QueryResultLimits) : executeSelect lib catalog limits lanes select =
      enforceSelectScanRows t plan.predicate limits >>= fun _ =>
        executeGroupedSelect lib t limits lanes plan (rowsWhere t plan.predicate) true selectionLimit select.offset none >>=
          fun rows => .ok ⟨plan.resolved.resultColumns, rows⟩ := by
  have hwindowed : windowedRows lib t limits plan selectionLimit = .ok (rowsWhere t plan.predicate) := by
    refine ((windowedRows_spec lib limits hplan.consistent hplan.described hquery.rowCount_le
      (planSelect_predicate hquery.planned) hplan.sound selectionLimit).2 _).2
      ⟨fun _ => rowsWhere_length.trans_lt hquery.rows, ?_, ?_⟩
    · rw [windowStateBytes, hplan.window]
      exact Nat.zero_le _
    · rw [hplan.window, numberedRows_none hplan.window]
      rfl
  have hisGrouped : plan.isGrouped true = true := rfl
  simp only [executeSelect, executeSelectWithPrefix, hquery.shape, hquery.table, hquery.planned, Exec.ok_bind, hwindowed,
    hquery.distinct, hisGrouped, if_true]
  rfl

theorem execute_ne_panic (lanes : Nat → Lanes) (limits : QueryResultLimits) :
    executeSelect lib catalog limits lanes select ≠ .panic := by
  obtain ⟨declared, hplan⟩ := hquery.plans
  have hinside : ∀ row ∈ rowsWhere t plan.predicate, row < t.rowCount := fun row hrow => lt_of_mem_rowsWhere hrow
  rw [hquery.execute_eq hplan]
  refine bind_ne_panic (enforceResourceLimit_ne_panic _ _ _) fun _ _ => bind_ne_panic ?_ fun _ _ => ok_ne_panic _
  rcases hplan.grouped lib hinside (rowsWhere_length.trans_lt hquery.rows) lanes limits with hok | hrefused
  · rw [executeGroupedSelect_distinct hplan hinside select.offset hok]
    exact bind_ne_panic (admitResult_ne_panic _ _ _ _ _ _) fun _ _ => ok_ne_panic _
  · obtain ⟨e, hrefused, _⟩ := hrefused
    rw [executeGroupedSelect, hrefused]
    exact error_ne_panic e

end DistinctQuery

/-- **SELECT DISTINCT is exact**: whatever the hashes and the lanes are, the only result is every row once, in the order
in which the rows come first, cut to the page; there is no panic, and without limits there is the result. -/
theorem select_distinct_exact (hquery : DistinctQuery catalog select t plan selectionLimit) (lanes : Nat → Lanes) :
    let result : QueryResult := ⟨plan.resolved.resultColumns, distinctRows t plan selectionLimit select.offset⟩
    (∀ limits, executeSelect lib catalog limits lanes select ≠ .panic) ∧
      (∀ limits returned, executeSelect lib catalog limits lanes select = .ok returned →
        returned = result ∧ result.Within limits) ∧
      executeSelect lib catalog .unlimited lanes select = .ok result := by
  intro result
  obtain ⟨declared, hplan⟩ := hquery.plans
  have hinside : ∀ row ∈ rowsWhere t plan.predicate, row < t.rowCount := fun row hrow => lt_of_mem_rowsWhere hrow
  have hgrouped := hplan.grouped lib hinside (rowsWhere_length.trans_lt hquery.rows) lanes
  have hadmits := hplan.admits hinside hquery.rowCount_le rowsWhere_length
    ((List.drop_sublist (select.offset.getD 0) _).trans (firstOf_sublist selectionLimit _))
  refine ⟨hquery.execute_ne_panic lanes, fun limits returned h => ?_, ?_⟩
  · rw [hquery.execute_eq hplan] at h
    obtain ⟨_, _, h⟩ := Exec.bind_eq_ok.1 h
    obtain ⟨rows, hrows, h⟩ := Exec.bind_eq_ok.1 h
    obtain rfl := Exec.ok.inj h
    rcases hgrouped limits with hok | hrefused
    · rw [executeGroupedSelect_distinct hplan hinside select.offset hok] at hrows
      obtain ⟨_, hadmitted, hrows⟩ := Exec.bind_eq_ok.1 hrows
      obtain rfl := Exec.ok.inj hrows
      exact ⟨rfl, (hadmits limits).1 hadmitted⟩
    · obtain ⟨e, hrefused, _⟩ := hrefused
      rw [executeGroupedSelect, hrefused] at hrows
      cases hrows
  · have hscanned : (sourceRows t plan.predicate).2 - (sourceRows t plan.predicate).1 ≤ usizeMax :=
      (Nat.sub_le _ _).trans ((sourceRows_spec hplan.described plan.predicate).1.trans hquery.rowCount_le)
    have hok := (hgrouped .unlimited).eq QueryResultLimits.not_refusal_unlimited
    rw [hquery.execute_eq hplan, executeGroupedSelect_distinct hplan hinside select.offset hok]
    refine Exec.bind_eq_ok.2 ⟨(), enforceSelectScanRows_eq_ok.2 hscanned, ?_⟩
    exact Exec.bind_eq_ok.2 ⟨_, Exec.bind_eq_ok.2 ⟨(), (hadmits .unlimited).2 result.within_unlimited, rfl⟩, rfl⟩

end

/-- `SELECT DISTINCT id FROM events` -/
def distinctSelect : Select := { sampleSelect with distinct := true, predicate := none }

theorem select_distinct_exact_sample :
    executeSelect sampleLibrary ⟨(∅ : KeyedTotals.Map String Table).insert "events" repeatedSample⟩ .unlimited oneLane
      distinctSelect = .ok ⟨[⟨"id", .int64⟩], [[.int64 3], [.int64 5]]⟩ := by
  have hquery : DistinctQuery ⟨(∅ : KeyedTotals.Map String Table).insert "events" repeatedSample⟩ distinctSelect
      repeatedSample ⟨none, [0], ⟨[.column 0 (some 0)], [⟨"id", .int64⟩], []⟩, none, none, []⟩ none :=
    ⟨repeatedSample_reachable, by decide, by rfl, by decide +kernel, by rfl, rfl, rfl⟩
  exact (select_distinct_exact hquery oneLane).2.2.trans (by decide +kernel)

end RustHouse.Batch
