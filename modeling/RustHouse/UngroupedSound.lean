import RustHouse.SelectRowsSound

/-!
# Ungrouped SELECT

An ungrouped query returns what its clauses say: the rows that its predicate keeps,
in the stable order of its keys, cut to its page and projected. It fails only where
a limit, a key or a value does.
-/

namespace RustHouse.Batch

open Checked Exec Words
open UnstableSort (stableSort stableSort_perm)

/-! ## Shapes -/

section
variable {select : Select} {selectionLimit : Option Nat}

theorem validateSelectShape_eq_ok (h : validateSelectShape select = .ok selectionLimit) :
    validateDistinctShape select = .ok () ∧ rowNumberShapeMessage select = none ∧ validateOffsetShape select = .ok () ∧
      checkedSelectionLimit select.limit select.offset = .ok selectionLimit := by
  obtain ⟨_, hdistinct, h⟩ := Exec.bind_eq_ok.1 h
  obtain ⟨_, hnumbers, h⟩ := Exec.bind_eq_ok.1 h
  obtain ⟨_, hoffset, h⟩ := Exec.bind_eq_ok.1 h
  refine ⟨hdistinct, ?_, hoffset, h⟩
  unfold validateRowNumberShape at hnumbers
  split at hnumbers
  · cases hnumbers
  · assumption

/-- Row numbers are those of a query that has nothing but a predicate and a limit. -/
structure RowNumberShape (select : Select) : Prop where
  distinct : select.distinct = false
  groupBy : select.groupBy = []
  aggregates : select.items.any SelectItem.isAggregate = false
  orderBy : select.orderBy = []
  offset : select.offset = none

theorem rowNumberShape (h : validateSelectShape select = .ok selectionLimit)
    (hnumbers : select.items.any SelectItem.isRowNumber) : RowNumberShape select := by
  obtain ⟨_, hshape, hoffset, _⟩ := validateSelectShape_eq_ok h
  have hnone : select.offset = none := by
    cases hsome : select.offset with
    | none => rfl
    | some offset =>
      rw [validateOffsetShape, hsome] at hoffset
      obtain ⟨_, _, hoffset⟩ := Exec.bind_eq_ok.1 hoffset
      exact absurd hnumbers (rejectIf_eq_ok.1 hoffset)
  rw [rowNumberShapeMessage, if_neg (not_not.2 hnumbers)] at hshape
  by_cases hdistinct : select.distinct
  · rw [if_pos hdistinct] at hshape
    cases hshape
  rw [if_neg hdistinct] at hshape
  by_cases hgroups : select.groupBy ≠ [] ∨ select.having.isSome
  · rw [if_pos hgroups] at hshape
    cases hshape
  rw [if_neg hgroups] at hshape
  by_cases haggregates : select.items.any SelectItem.isAggregate
  · rw [if_pos haggregates] at hshape
    cases hshape
  rw [if_neg haggregates] at hshape
  by_cases horder : select.orderBy ≠ []
  · rw [if_pos horder] at hshape
    cases hshape
  exact ⟨eq_false_of_ne_true hdistinct, not_not.1 (not_or.1 hgroups).1, eq_false_of_ne_true haggregates,
    not_not.1 horder, hnone⟩

end

/-! ## Row numbers -/

theorem tryInt64_isSome {n : Int} : (tryInt64 n).isSome ↔ -2 ^ 63 ≤ n ∧ n < 2 ^ 63 := by
  rw [tryInt64]
  constructor
  · intro h
    split at h
    · rename_i hround
      rw [← hround]
      exact ⟨Int64.le_toInt _, Int64.toInt_lt _⟩
    · cases h
  · intro h
    rw [if_pos (Int64.toInt_ofInt_of_le h.1 h.2)]
    rfl

theorem validateRowNumberCount_eq_ok {rowCount : Nat} :
    validateRowNumberCount rowCount = .ok () ↔ rowCount < 2 ^ 63 := by
  rw [validateRowNumberCount]
  split
  · rename_i hpos
    have hnumber : (∃ number, checkedRowNumber (rowCount - 1) = .ok number) ↔ rowCount < 2 ^ 63 := by
      simp only [checkedRowNumber, getOr_eq_ok]
      rw [← Option.isSome_iff_exists, tryInt64_isSome]
      omega
    rw [← hnumber, Exec.bind_eq_ok]
    constructor
    · intro h
      obtain ⟨number, hok, _⟩ := h
      exact ⟨number, hok⟩
    · intro h
      obtain ⟨number, hok⟩ := h
      exact ⟨number, hok, rfl⟩
  · exact ⟨fun _ => by omega, fun _ => rfl⟩

theorem validateRowNumberCount_ne_panic (rowCount : Nat) : validateRowNumberCount rowCount ≠ .panic := by
  rw [validateRowNumberCount]
  split
  · exact bind_ne_panic (checkedRowNumber_ne_panic _) fun _ _ => ok_ne_panic _
  · exact ok_ne_panic _

/-! ## Windows -/

def numberedRows (float : FloatText) (t : Table) (plan : SelectPlan) : List Nat :=
  plan.windowOrdering.elim (rowsWhere t plan.predicate) fun ordering =>
    stableSort (rowOrder float t [.column ordering.source none] [⟨0, ordering.descending⟩]) (rowsWhere t plan.predicate)

/-- Whether the rows of a query are numbered. -/
def SelectPlan.Numbered (plan : SelectPlan) : Prop :=
  ResolvedItem.rowNumber ∈ plan.resolved.items ∨ plan.windowOrdering.isSome

def windowStateBytes (plan : SelectPlan) (rowCount : Nat) : Nat :=
  plan.windowOrdering.elim 0 fun _ => saturatingMul rowCount rowNumberOrderingStateEntryBytes

section
variable {lib : QueryLibrary} {declared : List Declared} {t : Table} {limits : QueryResultLimits} {plan : SelectPlan}
  {select : Select} {condition : Option Predicate}

variable (lib limits) in
theorem windowedRows_spec (hc : Table.Consistent declared t) (hd : Table.Described t) (hrows : t.rowCount ≤ usizeMax)
    (hcompile : compileWhere t condition = .ok plan.predicate) (hplan : plan.Sound t select)
    (selectionLimit : Option Nat) :
    windowedRows lib t limits plan selectionLimit ≠ .panic ∧
      ∀ rows, windowedRows lib t limits plan selectionLimit = .ok rows ↔
        (plan.Numbered → (rowsWhere t plan.predicate).length < 2 ^ 63) ∧
          windowStateBytes plan (rowsWhere t plan.predicate).length ≤ limits.maxOrderingStateBytes ∧
          rows = if plan.windowOrdering.isSome then firstOf selectionLimit (numberedRows lib.float t plan)
            else numberedRows lib.float t plan := by
  rw [windowedRows, matchingRows_eq hc hd hrows hcompile, orPanic_some, Exec.ok_bind]
  cases hwindow : plan.windowOrdering with
  | none =>
    rw [numberedRows, windowStateBytes, hwindow]
    dsimp only [Option.elim_none, Option.isSome_none]
    by_cases hnumber : ResolvedItem.rowNumber ∈ plan.resolved.items
    · rw [if_pos hnumber]
      refine ⟨bind_ne_panic (validateRowNumberCount_ne_panic _) fun _ _ => ok_ne_panic _, fun rows => ?_⟩
      rw [Exec.bind_eq_ok]
      constructor
      · intro h
        obtain ⟨_, hcount, h⟩ := h
        exact ⟨fun _ => validateRowNumberCount_eq_ok.1 hcount, Nat.zero_le _, (Exec.ok.inj h).symm⟩
      · intro h
        obtain ⟨hcount, _, rfl⟩ := h
        exact ⟨(), validateRowNumberCount_eq_ok.2 (hcount (.inl hnumber)), rfl⟩
    · rw [if_neg hnumber]
      refine ⟨ok_ne_panic _, fun rows => ?_⟩
      constructor
      · intro h
        refine ⟨fun hnumbered => ?_, Nat.zero_le _, (Exec.ok.inj h).symm⟩
        rcases hnumbered with h | h
        · exact absurd h hnumber
        · rw [hwindow] at h
          cases h
      · intro h
        exact congrArg Exec.ok h.2.2.symm
  | some ordering =>
    obtain ⟨column, hcolumn, _⟩ := hplan.window ordering hwindow
    have hordered := orderWindowRows_eq lib.float lib.sorts selectionLimit hc hcolumn
      (fun row hrow => lt_of_mem_rowsWhere hrow) (@rowsWhere_sorted t plan.predicate)
    rw [numberedRows, windowStateBytes, hwindow]
    dsimp only [Option.elim_some, Option.isSome_some]
    rw [hordered, if_pos rfl]
    constructor
    · apply bind_ne_panic (validateRowNumberCount_ne_panic _)
      intro _ _
      apply bind_ne_panic (enforceOrderingState_ne_panic _ _ _)
      intro _ _
      exact ok_ne_panic _
    · intro rows
      have hnumbered : plan.Numbered := .inr (by rw [hwindow]; rfl)
      rw [Exec.bind_eq_ok]
      constructor
      · intro h
        obtain ⟨_, hcount, h⟩ := h
        obtain ⟨_, hstate, h⟩ := Exec.bind_eq_ok.1 h
        exact ⟨fun _ => validateRowNumberCount_eq_ok.1 hcount, enforceOrderingState_eq_ok.1 hstate, (Exec.ok.inj h).symm⟩
      · intro h
        obtain ⟨hcount, hstate, rfl⟩ := h
        exact ⟨(), validateRowNumberCount_eq_ok.2 (hcount hnumbered),
          Exec.bind_eq_ok.2 ⟨(), enforceOrderingState_eq_ok.2 hstate, rfl⟩⟩

end

/-! ## Results -/

section
variable {lib : QueryLibrary} {declared : List Declared} {t : Table} {limits : QueryResultLimits} {plan : SelectPlan}
  {select : Select} {selectionLimit : Option Nat}

theorem isGrouped_eq_false {distinct : Bool} :
    plan.isGrouped distinct = false ↔ distinct = false ∧ plan.groupColumns = [] ∧ plan.resolved.aggregateSpecs = [] := by
  unfold SelectPlan.isGrouped
  cases distinct <;> simp

theorem item_of_output (hplan : plan.Sound t select) {output : Nat} (h : output < plan.resolved.items.length) :
    ∃ item column, plan.resolved.items[output]? = some item ∧
      ItemTyped t (select.items.any SelectItem.isAggregate) (select.items.any SelectItem.isRowNumber) plan.groupColumns
        plan.resolved.aggregateSpecs item column := by
  have hcolumn : output < plan.resolved.resultColumns.length := hplan.items.length_eq ▸ h
  exact ⟨_, _, List.getElem?_eq_getElem h, hplan.items.get h hcolumn⟩

theorem SelectPlan.Sound.sorts (hplan : plan.Sound t select) (hshape : validateSelectShape select = .ok selectionLimit)
    (hspecs : plan.resolved.aggregateSpecs = []) : Sorts t plan.resolved.items plan.ordering := by
  intro order horder
  obtain ⟨item, column, hitem, htyped⟩ := item_of_output hplan (hplan.ordering order horder)
  refine ⟨item, hitem, ?_⟩
  cases htyped with
  | reads hreads hgroup => exact ⟨_, _, hreads⟩
  | rowNumber hnumbers =>
    rw [hplan.unordered (rowNumberShape hshape hnumbers).orderBy] at horder
    cases horder
  | aggregate hspec hfits htype =>
    rw [hspecs] at hspec
    cases hspec

theorem SelectPlan.Sound.projected (hc : Table.Consistent declared t) (hfloat : lib.float.Bounded)
    (hplan : plan.Sound t select) (hspecs : plan.resolved.aggregateSpecs = []) {row : Nat} (hrow : row < t.rowCount) :
    List.Forall₂ (Projected lib.float t row) plan.resolved.items plan.resolved.resultColumns := by
  refine hplan.items.imp fun item column htyped => ?_
  rw [hspecs] at htyped
  exact htyped.projected hc hfloat hrow

theorem SelectPlan.Sound.ordering_nil (hplan : plan.Sound t select)
    (hshape : validateSelectShape select = .ok selectionLimit) (hwindow : plan.windowOrdering.isSome) :
    plan.ordering = [] := by
  by_cases hnumbers : select.items.any SelectItem.isRowNumber
  · exact hplan.unordered (rowNumberShape hshape hnumbers).orderBy
  · rw [hplan.windowed hnumbers] at hwindow
    cases hwindow

theorem firstOf_firstOf {α : Type} (limit : Option Nat) (l : List α) : firstOf limit (firstOf limit l) = firstOf limit l := by
  cases limit with
  | none => rfl
  | some n => exact (List.take_take).trans (congrArg (List.take · l) (Nat.min_self n))

/-- **What an ungrouped query returns** behind the left operand of a UNION, if there is one. -/
structure UngroupedResult (lib : QueryLibrary) (t : Table) (limits : QueryResultLimits) (plan : SelectPlan)
    (selectionLimit offset : Option Nat) (left : Option QueryResult) (result : QueryResult) : Prop where
  scanned : (sourceRows t plan.predicate).2 - (sourceRows t plan.predicate).1 ≤ limits.maxScanRows
  numbered : plan.Numbered → (rowsWhere t plan.predicate).length < 2 ^ 63
  windowState : windowStateBytes plan (rowsWhere t plan.predicate).length ≤ limits.maxOrderingStateBytes
  orderState : orderingStateBytes plan.resolved.items plan.ordering (rowsWhere t plan.predicate).length ≤
    limits.maxOrderingStateBytes
  keys : selectionLimit ≠ some 0 → HasKeys lib.float t plan.resolved.items plan.ordering (rowsWhere t plan.predicate)
  columns : result.columns = plan.resolved.resultColumns
  rows : executeProjection lib.float t (pageRows lib.float t plan selectionLimit offset (numberedRows lib.float t plan))
    plan.resolved.items = .ok result.rows
  within : (QueryResult.behind left result).Within limits

theorem leftFits_of_schema {columns : List ResultColumn} {left : Option QueryResult} {operation : String}
    (hrectangular : ∀ first ∈ left, first.Rectangular)
    (h : validatePrefixSchema columns (left.map (.fromResult · operation)) = .ok ()) : LeftFits columns left := by
  intro first hfirst
  obtain rfl := Option.mem_def.1 hfirst
  obtain ⟨_, hcount, _⟩ := Exec.bind_eq_ok.1 h
  rw [rejectIf_eq_ok, not_not] at hcount
  exact ⟨hrectangular first rfl, hcount⟩

theorem enforceSelectScanRows_eq_ok {predicate : Option CompiledPredicate} {u : Unit} :
    enforceSelectScanRows t predicate limits = .ok u ↔
      (sourceRows t predicate).2 - (sourceRows t predicate).1 ≤ limits.maxScanRows := enforceResourceLimit_eq_ok

theorem planSelect_predicate (h : planSelect t select = .ok plan) : compileWhere t select.predicate = .ok plan.predicate := by
  obtain ⟨predicate, hpredicate, h⟩ := Exec.bind_eq_ok.1 h
  obtain ⟨_, _, h⟩ := Exec.bind_eq_ok.1 h
  obtain ⟨_, _, h⟩ := Exec.bind_eq_ok.1 h
  obtain ⟨_, _, h⟩ := Exec.bind_eq_ok.1 h
  obtain ⟨_, _, h⟩ := Exec.bind_eq_ok.1 h
  obtain ⟨_, _, h⟩ := Exec.bind_eq_ok.1 h
  obtain rfl := Exec.ok.inj h
  exact hpredicate

theorem numberedRows_perm (float : FloatText) : (numberedRows float t plan).Perm (rowsWhere t plan.predicate) := by
  rw [numberedRows]
  cases plan.windowOrdering with
  | none => exact List.Perm.refl _
  | some ordering => exact stableSort_perm _

theorem numberedRows_none {float : FloatText} (h : plan.windowOrdering = none) :
    numberedRows float t plan = rowsWhere t plan.predicate := by
  rw [numberedRows, h]
  rfl

theorem pageRows_unordered {float : FloatText} (h : plan.ordering = []) {offset : Option Nat} (rows : List Nat) :
    pageRows float t plan selectionLimit offset rows = (firstOf selectionLimit rows).drop (offset.getD 0) := by
  rw [pageRows, h, rowOrder, List.map_nil, UnstableSort.stableSort_nil]

/-- The rows of the window: an ordered one has no more of them than are selected. -/
def windowed (float : FloatText) (t : Table) (plan : SelectPlan) (selectionLimit : Option Nat) : List Nat :=
  if plan.windowOrdering.isSome then firstOf selectionLimit (numberedRows float t plan) else numberedRows float t plan

theorem windowed_none {float : FloatText} (h : plan.windowOrdering = none) :
    windowed float t plan selectionLimit = rowsWhere t plan.predicate := by
  rw [windowed, h, Option.isSome_none, if_neg Bool.false_ne_true, numberedRows_none h]

theorem windowed_sublist (float : FloatText) :
    (windowed float t plan selectionLimit).Sublist (numberedRows float t plan) := by
  rw [windowed]
  split
  · exact firstOf_sublist _ _
  · exact List.Sublist.refl _

section
variable {float : FloatText} (hordering : plan.windowOrdering.isSome → plan.ordering = [])
include hordering

theorem windowed_page (offset : Option Nat) : pageRows float t plan selectionLimit offset
      (windowed float t plan selectionLimit) = pageRows float t plan selectionLimit offset (numberedRows float t plan) := by
  by_cases hwindow : plan.windowOrdering.isSome
  · rw [pageRows_unordered (hordering hwindow), pageRows_unordered (hordering hwindow), windowed, if_pos hwindow,
      firstOf_firstOf]
  · rw [windowed, if_neg hwindow]

theorem windowOrdering_none (hne : plan.ordering ≠ []) : plan.windowOrdering = none := by
  by_contra hwindow
  exact hne (hordering (Option.isSome_iff_ne_none.2 hwindow))

end

/-- **Ungrouped queries are exact**: the execution returns a result if and only if it is the one that the clauses of
the query describe, and it never panics. -/
theorem executeSelectWithPrefix_ungrouped (hc : Table.Consistent declared t) (hd : Table.Described t)
    (hrows : t.rowCount ≤ usizeMax) (hfloat : lib.float.Bounded) {catalog : Catalog}
    (ht : catalog.table select.table = .ok t) (hshape : validateSelectShape select = .ok selectionLimit)
    (hplan : planSelect t select = .ok plan) (hungrouped : plan.isGrouped select.distinct = false)
    {left : Option QueryResult} {operation : String} (hrectangular : ∀ first ∈ left, first.Rectangular)
    (hsize : left.elim 0 (fun first => first.rows.length) + t.rowCount ≤ usizeMax)
    (hschema : validatePrefixSchema plan.resolved.resultColumns (left.map (.fromResult · operation)) = .ok ())
    (lanes : Nat → Lanes) :
    executeSelectWithPrefix lib catalog limits lanes select (left.map (.fromResult · operation)) ≠ .panic ∧
      ∀ result, executeSelectWithPrefix lib catalog limits lanes select (left.map (.fromResult · operation)) = .ok result ↔
        UngroupedResult lib t limits plan selectionLimit select.offset left result := by
  have hsound := planSelect_sound hc hplan
  obtain ⟨_, _, hspecs⟩ := isGrouped_eq_false.1 hungrouped
  have hordering := hsound.ordering_nil hshape
  obtain ⟨hwindowPanic, hwindow⟩ := windowedRows_spec lib limits hc hd hrows (planSelect_predicate hplan) hsound
    selectionLimit
  have hsubset {row : Nat} (hrow : row ∈ windowed lib.float t plan selectionLimit) : row < t.rowCount :=
    lt_of_mem_rowsWhere ((numberedRows_perm lib.float).subset ((windowed_sublist lib.float).subset hrow))
  have hcount : (windowed lib.float t plan selectionLimit).length ≤ t.rowCount :=
    (windowed_sublist lib.float).length_le.trans ((numberedRows_perm lib.float).length_eq.trans_le rowsWhere_length)
  have hascending : plan.ordering ≠ [] → (windowed lib.float t plan selectionLimit).Pairwise (· < ·) := by
    intro hne
    rw [windowed_none (windowOrdering_none hordering hne)]
    exact rowsWhere_sorted
  obtain ⟨hpanic, hexecute⟩ := executeUngroupedSelect_spec limits operation selectionLimit select.offset hc hfloat
    hsound.items.length_eq (fun row hrow => hsound.projected hc hfloat hspecs hrow) (hsound.sorts hshape hspecs)
    (fun row hrow => hsubset hrow) hascending (leftFits_of_schema hrectangular hschema) (by omega)
  rw [windowed_page hordering] at hexecute
  have hstate : orderingStateBytes plan.resolved.items plan.ordering (windowed lib.float t plan selectionLimit).length =
      orderingStateBytes plan.resolved.items plan.ordering (rowsWhere t plan.predicate).length := by
    by_cases hnil : plan.ordering = []
    · rw [hnil]
      rfl
    · rw [windowed_none (windowOrdering_none hordering hnil)]
  have hkeys : HasKeys lib.float t plan.resolved.items plan.ordering (windowed lib.float t plan selectionLimit) ↔
      HasKeys lib.float t plan.resolved.items plan.ordering (rowsWhere t plan.predicate) := by
    by_cases hnil : plan.ordering = []
    · rw [hnil]
      exact ⟨fun _ => List.forall_mem_nil _, fun _ => List.forall_mem_nil _⟩
    · rw [windowed_none (windowOrdering_none hordering hnil)]
  simp only [executeSelectWithPrefix, hshape, ht, hplan, hschema, Exec.ok_bind, hungrouped]
  constructor
  · apply bind_ne_panic (enforceResourceLimit_ne_panic _ _ _)
    intro _ _
    apply bind_ne_panic hwindowPanic
    intro rows hok
    obtain ⟨_, _, rfl⟩ := (hwindow rows).1 hok
    exact bind_ne_panic hpanic fun _ _ => ok_ne_panic _
  · intro result
    rw [Exec.bind_eq_ok]
    constructor
    · intro h
      obtain ⟨_, hscan, h⟩ := h
      obtain ⟨rows, hok, h⟩ := Exec.bind_eq_ok.1 h
      obtain ⟨hnumbered, hwindowState, rfl⟩ := (hwindow rows).1 hok
      obtain ⟨values, hvalues, h⟩ := Exec.bind_eq_ok.1 h
      obtain rfl := Exec.ok.inj h
      obtain ⟨horderState, hhasKeys, hprojection, hwithin⟩ := (hexecute values).1 hvalues
      exact ⟨enforceSelectScanRows_eq_ok.1 hscan, hnumbered, hwindowState, hstate ▸ horderState,
        fun hne => hkeys.1 (hhasKeys hne), rfl, hprojection, hwithin⟩
    · intro h
      obtain ⟨columns, values⟩ := result
      obtain rfl := h.columns
      have hvalues := (hexecute values).2 ⟨hstate ▸ h.orderState, fun hne => hkeys.2 (h.keys hne), h.rows, h.within⟩
      exact ⟨(), enforceSelectScanRows_eq_ok.2 h.scanned, Exec.bind_eq_ok.2 ⟨_, (hwindow _).2 ⟨h.numbered,
        h.windowState, rfl⟩, Exec.bind_eq_ok.2 ⟨values, hvalues, rfl⟩⟩⟩

end

end RustHouse.Batch
