import Mathlib.Data.List.Flatten
import RustHouse.IngestSound
import RustHouse.PruningSound
import RustHouse.UngroupedSound

/-!
# Queries, unions and pages

An ungrouped query returns what its clauses say, whatever the threads and the sort
do. UNION ALL puts the rows of two such queries behind each other, and a page is a
slice of the rows of the query without it.
-/

namespace RustHouse.Batch

open Checked Exec
open OrderedReduction (collect collect_eq_ok)
open UnstableSort (stableSort)

/-! ## Slices -/

section
variable {float : FloatText} {t : Table} {items : List ResolvedItem}

theorem executeProjectionRow_number (hitems : .rowNumber ∉ items) (rowNumber other row : Nat) :
    executeProjectionRow float t items rowNumber row = executeProjectionRow float t items other row := by
  unfold executeProjectionRow
  refine congrArg collect (List.map_congr_left fun item hitem => ?_)
  cases item with
  | rowNumber => exact absurd hitem hitems
  | _ => rfl

theorem executeProjection_eq_ok {rows : List Nat} {result : List (List Value)} :
    executeProjection float t rows items = .ok result ↔
      List.Forall₂ (fun numbered values => executeProjectionRow float t items numbered.2 numbered.1 = .ok values)
        rows.zipIdx result := by
  rw [executeProjection, collect_eq_ok, List.forall₂_map_left_iff]

theorem executeProjection_take {rows : List Nat} {result : List (List Value)} (n : Nat)
    (h : executeProjection float t rows items = .ok result) :
    executeProjection float t (rows.take n) items = .ok (result.take n) := by
  rw [executeProjection_eq_ok] at h ⊢
  have hrows : rows.zipIdx.take n = (rows.take n).zipIdx := by
    apply List.ext_getElem?
    intro i
    simp only [List.getElem?_take, List.getElem?_zipIdx]
    split <;> rfl
  exact hrows ▸ List.forall₂_take n h

theorem executeProjection_drop (hitems : .rowNumber ∉ items) {rows : List Nat} {result : List (List Value)} (n : Nat)
    (h : executeProjection float t rows items = .ok result) :
    executeProjection float t (rows.drop n) items = .ok (result.drop n) := by
  have hplace {rows : List Nat} {result : List (List Value)} : executeProjection float t rows items = .ok result ↔
      List.Forall₂ (fun row values => executeProjectionRow float t items 0 row = .ok values) rows result := by
    rw [executeProjection_eq_ok]
    nth_rewrite 2 [← List.zipIdx_map_fst 0 rows]
    rw [List.forall₂_map_left_iff]
    simp only [executeProjectionRow_number hitems _ 0]
  exact hplace.2 (List.forall₂_drop n (hplace.1 h))

end

theorem QueryResult.Within.sublist {limits : QueryResultLimits} {result : QueryResult} (h : result.Within limits)
    {rows : List (List Value)} (hrows : rows.Sublist result.rows) :
    QueryResult.Within limits { result with rows } := by
  have hcount := hrows.length_le
  have hcells := hrows.flatten.length_le
  have htexts : textBytes rows.flatten ≤ textBytes result.rows.flatten :=
    (hrows.flatten.map Value.stringBytes).sum_le_sum fun _ _ => Nat.zero_le _
  refine ⟨le_trans (min_le_min_right _ hcount) h.rows, le_trans (min_le_min_right _ hcells) h.values, ?_⟩
  refine le_trans ?_ h.bytes
  rw [QueryResult.estimatedRetainedBytes_eq, QueryResult.estimatedRetainedBytes_eq]
  refine min_le_min_right _ ?_
  unfold QueryResult.exactBytes
  have hrowBytes := Nat.mul_le_mul_right sizeOfRow hcount
  have hcellBytes := Nat.mul_le_mul_right sizeOfValue hcells
  dsimp only
  omega

/-! ## Queries -/

/-- A query without groups on a table that the engine can come to hold. -/
structure UngroupedQuery (catalog : Catalog) (select : Select) (t : Table) (plan : SelectPlan)
    (selectionLimit : Option Nat) : Prop where
  reachable : ∃ declared, Table.Reachable declared t
  rows : t.rowCount ≤ usizeMax
  table : catalog.table select.table = .ok t
  shape : validateSelectShape select = .ok selectionLimit
  planned : planSelect t select = .ok plan
  ungrouped : plan.isGrouped select.distinct = false

namespace UngroupedQuery

section
variable {lib : QueryLibrary} {catalog : Catalog} {limits : QueryResultLimits} {select : Select} {t : Table}
  {plan : SelectPlan} {selectionLimit : Option Nat} (hfloat : lib.float.Bounded)
  (hquery : UngroupedQuery catalog select t plan selectionLimit)

theorem rowNumber_asked (hquery : UngroupedQuery catalog select t plan selectionLimit)
    (h : .rowNumber ∈ plan.resolved.items) : select.items.any SelectItem.isRowNumber := by
  obtain ⟨declared, hreachable⟩ := hquery.reachable
  have hsound := planSelect_sound (Table.reachable_consistent hreachable) hquery.planned
  obtain ⟨output, houtput, hitem⟩ := List.getElem_of_mem h
  obtain ⟨item, column, hat, htyped⟩ := item_of_output hsound houtput
  rw [List.getElem?_eq_getElem houtput, hitem] at hat
  obtain rfl := Option.some.inj hat
  cases htyped with
  | reads hreads _ => cases hreads.source_eq
  | rowNumber hnumbers => exact hnumbers

include hfloat hquery

theorem exact (limits : QueryResultLimits) (lanes : Nat → Lanes) (left : Option QueryResult) (operation : String)
    (hrectangular : ∀ first ∈ left, first.Rectangular)
    (hsize : left.elim 0 (fun first => first.rows.length) + t.rowCount ≤ usizeMax)
    (hschema : validatePrefixSchema plan.resolved.resultColumns (left.map (.fromResult · operation)) = .ok ()) :
    executeSelectWithPrefix lib catalog limits lanes select (left.map (.fromResult · operation)) ≠ .panic ∧
      ∀ result, executeSelectWithPrefix lib catalog limits lanes select (left.map (.fromResult · operation)) = .ok result ↔
        UngroupedResult lib t limits plan selectionLimit select.offset left result := by
  obtain ⟨declared, hreachable⟩ := hquery.reachable
  exact executeSelectWithPrefix_ungrouped (Table.reachable_consistent hreachable) (Table.reachable_described hreachable)
    hquery.rows hfloat hquery.table hquery.shape hquery.planned hquery.ungrouped hrectangular hsize hschema lanes

/-- **An ungrouped SELECT is exact**: it returns a result if and only if it is the one that its clauses describe, and
it never panics. -/
theorem executeSelect_exact (limits : QueryResultLimits) (lanes : Nat → Lanes) :
    executeSelect lib catalog limits lanes select ≠ .panic ∧
      ∀ result, executeSelect lib catalog limits lanes select = .ok result ↔
        UngroupedResult lib t limits plan selectionLimit select.offset none result := by
  have hsize : (none : Option QueryResult).elim 0 (fun first => first.rows.length) + t.rowCount ≤ usizeMax :=
    (Nat.zero_add _).trans_le hquery.rows
  exact hquery.exact hfloat limits lanes none "" (fun first hfirst => absurd hfirst (Option.not_mem_none first)) hsize rfl

end

end UngroupedQuery

/-! ## A query -/

theorem partitionedSample_reachable : ∃ declared, Table.Reachable declared partitionedSample := by
  have hnew : Table.withInt64RangePartitions "events" "id" [⟨0, 9, [3, 5]⟩, ⟨10, 19, [12]⟩] ⟨2, 8, 1024⟩ .default =
      .ok { partitionedSample with int64MinMaxIndex := none } := by
    decide +kernel
  have hindex : (Table.Mutation.createInt64MinMaxIndex "id" ⟨1, 8, 1024⟩).run
      { partitionedSample with int64MinMaxIndex := none } = some (.ok (), partitionedSample) := by
    decide +kernel
  exact ⟨_, .success (.createInt64MinMaxIndex "id" ⟨1, 8, 1024⟩) (.withInt64RangePartitions hnew) trivial hindex⟩

def sampleCatalog : Catalog := ⟨(∅ : KeyedTotals.Map String Table).insert "events" partitionedSample⟩

def sampleLibrary : QueryLibrary :=
  ⟨sampleFloatText, ⟨fun x _ => x, fun x _ => x, fun x _ => x, fun x _ => x⟩, fun _ => 0, .merge⟩

def oneLane (_ : Nat) : Lanes := ⟨none, fun _ => true, fun _ => true⟩

/-- `SELECT id FROM events WHERE id > 3` -/
def sampleSelect : Select :=
  { distinct := false, items := [.column "id" none], table := "events",
    predicate := some (.comparison (.column "id") .greater (.literal (.int64 3))), groupBy := [], having := none,
    orderBy := [], limit := none, offset := none }

def samplePlan : SelectPlan where
  predicate := some (.comparison (.column 0 .int64) .greater (.literal (.int64 3)))
  groupColumns := []
  resolved := ⟨[.column 0 none], [⟨"id", .int64⟩], []⟩
  windowOrdering := none
  having := none
  ordering := []

theorem sampleLibrary_bounded : sampleLibrary.float.Bounded :=
  fun _ => (by decide : stringLen "2.5" ≤ maxFloat64TextBytes)

theorem sampleQuery : UngroupedQuery sampleCatalog sampleSelect partitionedSample samplePlan none where
  reachable := partitionedSample_reachable
  rows := by decide
  table := by rfl
  shape := by decide +kernel
  planned := by rfl
  ungrouped := by rfl

theorem sampleSelect_rows : executeSelect sampleLibrary sampleCatalog .default oneLane sampleSelect =
    .ok ⟨[⟨"id", .int64⟩], [[.int64 5], [.int64 12]]⟩ := by
  decide +kernel

/-! ## Single queries -/

section
variable {lib : QueryLibrary} {catalog : Catalog} {select : Select} {t : Table} {plan : SelectPlan}
  {selectionLimit : Option Nat}

end

/-! ## Unions -/

section
variable {lib : QueryLibrary} {catalog : Catalog} {limits : QueryResultLimits}

end

/-! ## Pages -/

/-- The query for a page of the rows of another. -/
def Select.page (select : Select) (limit : Nat) (offset : Option Nat) : Select := { select with limit := some limit, offset }

section
variable {lib : QueryLibrary} {catalog : Catalog} {limits : QueryResultLimits} {select : Select} {t : Table}
  {plan : SelectPlan} {selectionLimit : Option Nat}

theorem pageShape {limit : Nat} {offset : Option Nat} (h : validateSelectShape (select.page limit offset) = .ok selectionLimit) :
    selectionLimit = some (limit + offset.getD 0) ∧ (offset.isSome → select.items.any SelectItem.isRowNumber = false) := by
  obtain ⟨_, _, hoffset, hlimit⟩ := validateSelectShape_eq_ok h
  constructor
  · obtain ⟨bound, hbound, rfl⟩ := Option.map_eq_some_iff.1 (Exec.getOr_eq_ok.1 hlimit)
    exact congrArg some (checkedAdd_eq_some.1 hbound).2
  · intro hsome
    cases offset with
    | none => cases hsome
    | some offset =>
      rw [validateOffsetShape] at hoffset
      obtain ⟨_, _, hoffset⟩ := Exec.bind_eq_ok.1 hoffset
      exact Bool.not_eq_true _ ▸ rejectIf_eq_ok.1 hoffset

theorem offset_none (h : validateSelectShape select = .ok none) : select.offset = none := by
  obtain ⟨_, _, hoffset, hlimit⟩ := validateSelectShape_eq_ok h
  cases hnone : select.limit with
  | none =>
    by_contra hsome
    rw [validateOffsetShape, if_neg (by rwa [Option.isNone_iff_eq_none]), hnone] at hoffset
    obtain ⟨_, hoffset, _⟩ := Exec.bind_eq_ok.1 hoffset
    exact rejectIf_eq_ok.1 hoffset rfl
  | some limit =>
    rw [hnone] at hlimit
    obtain ⟨bound, _, hbound⟩ := Option.map_eq_some_iff.1 (Exec.getOr_eq_ok.1 hlimit)
    cases hbound

theorem UngroupedQuery.page (hquery : UngroupedQuery catalog select t plan none) {limit : Nat} {offset : Option Nat}
    (hshape : validateSelectShape (select.page limit offset) = .ok selectionLimit) :
    UngroupedQuery catalog (select.page limit offset) t plan selectionLimit :=
  ⟨hquery.reachable, hquery.rows, hquery.table, hshape, hquery.planned, hquery.ungrouped⟩

theorem pageRows_slice (float : FloatText) (limit : Nat) (offset : Option Nat) (rows : List Nat) :
    pageRows float t plan (some (limit + offset.getD 0)) offset rows =
      ((pageRows float t plan none none rows).drop (offset.getD 0)).take limit := by
  show ((stableSort _ rows).take _).drop _ = ((stableSort _ rows).drop _).take _
  rw [List.take_drop, Nat.add_comm]

theorem UngroupedQuery.executeSelect_page (hquery : UngroupedQuery catalog select t plan none)
    (hfloat : lib.float.Bounded)
    {limit : Nat} {offset : Option Nat} (hshape : validateSelectShape (select.page limit offset) = .ok selectionLimit)
    {lanes : Nat → Lanes} {whole : QueryResult} (hwhole : executeSelect lib catalog limits lanes select = .ok whole)
    (pageLanes : Nat → Lanes) :
    executeSelect lib catalog limits pageLanes (select.page limit offset) =
      .ok { whole with rows := (whole.rows.drop (offset.getD 0)).take limit } := by
  have h := ((hquery.executeSelect_exact hfloat limits lanes).2 whole).1 hwhole
  obtain ⟨rfl, hnumbers⟩ := pageShape hshape
  have hslice : ((whole.rows.drop (offset.getD 0)).take limit).Sublist whole.rows :=
    (List.take_sublist _ _).trans (List.drop_sublist _ _)
  have hdropped : executeProjection lib.float t ((pageRows lib.float t plan none none
      (numberedRows lib.float t plan)).drop (offset.getD 0)) plan.resolved.items =
        .ok (whole.rows.drop (offset.getD 0)) := by
    have hrows := h.rows
    rw [offset_none hquery.shape] at hrows
    cases offset with
    | none => exact hrows
    | some offset =>
      refine executeProjection_drop (fun hitem => ?_) offset hrows
      rw [hquery.rowNumber_asked hitem] at hnumbers
      cases hnumbers rfl
  refine (((hquery.page hshape).executeSelect_exact hfloat limits pageLanes).2 _).2 ?_
  refine ⟨h.scanned, h.numbered, h.windowState, h.orderState, fun _ => h.keys (Option.some_ne_none 0).symm, h.columns, ?_,
    h.within.sublist hslice⟩
  show executeProjection lib.float t (pageRows lib.float t plan _ offset _) _ = _
  rw [pageRows_slice]
  exact executeProjection_take limit hdropped

/-- **A page of a query is a slice of its rows**, under the same limits and whatever the lanes. -/
theorem select_page (hfloat : lib.float.Bounded) (hquery : UngroupedQuery catalog select t plan none)
    {limit : Nat} {offset : Option Nat} (hshape : validateSelectShape (select.page limit offset) = .ok selectionLimit)
    {lanes : Nat → Lanes} {whole : QueryResult} (hwhole : executeSelect lib catalog limits lanes select = .ok whole)
    (pageLanes : Nat → Lanes) :
    executeSelect lib catalog limits pageLanes (select.page limit offset) =
      .ok { whole with rows := (whole.rows.drop (offset.getD 0)).take limit } :=
  hquery.executeSelect_page hfloat hshape hwhole pageLanes

theorem select_page_sample : executeSelect sampleLibrary sampleCatalog .default oneLane (sampleSelect.page 1 (some 1)) =
    .ok ⟨[⟨"id", .int64⟩], [[.int64 12]]⟩ :=
  select_page sampleLibrary_bounded sampleQuery rfl sampleSelect_rows oneLane

end

end RustHouse.Batch
