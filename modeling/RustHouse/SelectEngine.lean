import RustHouse.ExecuteGrouped
import RustHouse.Pruning

/-!
# SELECT

The execution of a query: its plan, the rows that match, their groups or their
projections, and the check of the result before it is built.
-/

namespace RustHouse.Batch

open Checked Exec Words

/-- The language's library behind a query: texts and arithmetic of floating-point numbers, hashes and sorts. -/
structure QueryLibrary where
  float : FloatText
  arithmetic : FloatArithmetic
  hasher : Bytes → UInt64
  sorts : UnstableSort

/-! ## Plans -/

/-- What a query comes to on a table. -/
structure SelectPlan where
  predicate : Option CompiledPredicate
  groupColumns : List Nat
  resolved : ResolvedItems
  windowOrdering : Option ResolvedWindowOrder
  having : Option ResolvedHaving
  ordering : List ResolvedOrder

/-- How many rows a query of an acceptable shape selects. -/
def validateSelectShape (select : Select) : Exec Error (Option Nat) := do
  validateDistinctShape select
  validateRowNumberShape select
  validateOffsetShape select
  checkedSelectionLimit select.limit select.offset

def resolveKeyColumns (t : Table) (select : Select) : Exec Error (List Nat) :=
  if select.distinct then resolveDistinctColumns t [] select.items else resolveGroupColumns t [] select.groupBy

def resolveOptionalHaving (resolved : ResolvedItems) : Option Having → Exec Error (Option ResolvedHaving)
  | none => .ok none
  | some having => do
    let having ← resolveHaving resolved having
    .ok (some having)

def planSelect (t : Table) (select : Select) : Exec Error SelectPlan := do
  let predicate ← compileWhere t select.predicate
  let groupColumns ← resolveKeyColumns t select
  let resolved ← resolveSelectItems t select.items groupColumns
  let windowOrdering ← resolveRowNumberOrdering t select.items
  let having ← resolveOptionalHaving resolved select.having
  let ordering ← resolveOrdering t resolved select.orderBy
  .ok { predicate, groupColumns, resolved, windowOrdering, having, ordering }

/-- Whether a query has groups. -/
def SelectPlan.isGrouped (plan : SelectPlan) (distinct : Bool) : Bool :=
  distinct || plan.groupColumns ≠ [] || plan.resolved.aggregateSpecs ≠ []

def validatePrefixSchema (columns : List ResultColumn) : ( resultPrefix : Option SelectResultPrefix) → Exec Error Unit
  | none => .ok ()
  | some first => validateUnionSchema first.operation first.columns columns

def enforceSelectScanRows (t : Table) (predicate : Option CompiledPredicate) (limits : QueryResultLimits) :
    Exec Error Unit :=
  let source := sourceRows t predicate
  enforceResourceLimit "SELECT scanned rows" (source.2 - source.1) limits.maxScanRows

section
variable (lib : QueryLibrary) (t : Table) (limits : QueryResultLimits)

/-! ## Rows -/

/-- The rows that match; those of an ordered row number are in the order of their numbers. -/
def windowedRows (plan : SelectPlan) (selectionLimit : Option Nat) : Exec Error (List Nat) := do
  let rows ← orPanic (matchingRows t plan.predicate)
  match plan.windowOrdering with
  | some ordering => do
    validateRowNumberCount rows.length
    enforceOrderingState rows.length rowNumberOrderingStateEntryBytes limits.maxOrderingStateBytes
    orPanic (orderWindowRows t lib.sorts rows ordering selectionLimit)
  | none => do
    if ResolvedItem.rowNumber ∈ plan.resolved.items then validateRowNumberCount rows.length else .ok ()
    .ok rows

def executeUngroupedSelect (plan : SelectPlan) (rows : List Nat) (selectionLimit offset : Option Nat)
    (resultPrefix : Option SelectResultPrefix) : Exec Error (List (List Value)) := do
  let rows ← orderSourceRows lib.float t lib.sorts rows plan.resolved.items plan.ordering selectionLimit
    limits.maxOrderingStateBytes
  let rows := applyOffset rows (offset.getD 0)
  validateProjectionResultLimits lib.float t rows plan.resolved.items plan.resolved.resultColumns limits resultPrefix
  executeProjection lib.float t rows plan.resolved.items

/-! ## Groups -/

/-- The groups that `HAVING` keeps. -/
def retainGroups (keeps : Nat → Option Bool) : List Nat → Option (List Nat)
  | [] => some []
  | group :: groups => do
    let kept ← keeps group
    let rest ← retainGroups keeps groups
    some (if kept then group :: rest else rest)

/-- The groups in front of the offset's, in the order of the result; DISTINCT alone keeps the order of the rows. -/
def selectedGroups (plan : SelectPlan) (distinct : Bool) (data : GroupedData) (selectionLimit : Option Nat) :
    Option (List Nat) := do
  let groups ← retainGroups (fun group => plan.having.elim (some true) fun having => having.evaluate data group)
    (List.range data.len)
  if distinct ∧ plan.ordering = [] then some (selectionLimit.elim groups groups.take)
  else orderGroupedRows data lib.sorts groups plan.resolved.items plan.ordering selectionLimit

def executeGroupedSelect (lanes : Nat → Lanes) (plan : SelectPlan) (rows : List Nat) (distinct : Bool)
    (selectionLimit offset : Option Nat) (resultPrefix : Option SelectResultPrefix) :
    Exec Error (List (List Value)) := do
  let data ← executeGrouped lib.hasher lib.arithmetic lanes t rows plan.groupColumns plan.resolved.aggregateSpecs limits
  let groups ← orPanic (selectedGroups lib plan distinct data selectionLimit)
  let groups := applyOffset groups (offset.getD 0)
  validateGroupedResultLimits data groups plan.resolved.items plan.resolved.resultColumns limits resultPrefix
  orPanic (data.project groups plan.resolved.items)

end

/-! ## Execution -/

section
variable (lib : QueryLibrary) (catalog : Catalog) (limits : QueryResultLimits)

/-- A query behind the rows of the left operand of a UNION, if it has one. -/
def executeSelectWithPrefix (lanes : Nat → Lanes) (select : Select) (resultPrefix : Option SelectResultPrefix) :
    Exec Error QueryResult := do
  let selectionLimit ← validateSelectShape select
  let t ← catalog.table select.table
  let plan ← planSelect t select
  validatePrefixSchema plan.resolved.resultColumns resultPrefix
  enforceSelectScanRows t plan.predicate limits
  let matching ← windowedRows lib t limits plan selectionLimit
  let rows ←
    if plan.isGrouped select.distinct then
      executeGroupedSelect lib t limits lanes plan matching select.distinct selectionLimit select.offset resultPrefix
    else executeUngroupedSelect lib t limits plan matching selectionLimit select.offset resultPrefix
  .ok { columns := plan.resolved.resultColumns, rows }

def executeSelect (lanes : Nat → Lanes) (select : Select) : Exec Error QueryResult :=
  executeSelectWithPrefix lib catalog limits lanes select none

end

end RustHouse.Batch
