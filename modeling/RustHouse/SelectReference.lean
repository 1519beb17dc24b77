import RustHouse.MutationsExact
import RustHouse.SelectSound

/-!
# SELECT by values

An ordering compares cells and keys of them, never the values that a query returns.
Its result is the one of the plain reading all the same: the rows of which the
predicate is true, sorted by the values of the items, cut to the page, and projected.
-/

namespace RustHouse.Batch

open Checked Exec
open Decimal (Numeral)
open OrderedReduction (collect_eq_ok)
open UnstableSort (lexicographic stableSort)

/-! ## The plain reading -/

def Select.matching (select : Select) (t : Table) : List Nat :=
  select.predicate.elim (List.range t.rowCount) (·.satisfied t)

section
variable (float : FloatText) (t : Table)

/-- Two rows by the values of an item. What stands in for a value that does not exist, such as an integer out of range,
is the exact number that the cell denotes. -/
def ResolvedItem.valueCmp (item : ResolvedItem) (left right : Nat) : Ordering :=
  match item.value float t 0 left, item.value float t 0 right with
  | .ok value, .ok value' => value.cmp value'
  | _, _ => ((rowOrderKey float t item left).getD .null).cmp ((rowOrderKey float t item right).getD .null)

def valueOrder (items : List ResolvedItem) (ordering : List ResolvedOrder) : Nat → Nat → Ordering :=
  lexicographic (ordering.map fun order left right => descendingIf order.descending
    (items[order.output]?.elim .eq fun item => item.valueCmp float t left right))

/-- The matching rows, in the order of their numbers. -/
def Select.numbered (select : Select) (window : Option ResolvedWindowOrder) : List Nat :=
  window.elim (select.matching t) fun ordering =>
    stableSort (valueOrder float t [.column ordering.source none] [⟨0, ordering.descending⟩]) (select.matching t)

end

/-! ## Values order as keys -/

section
variable {float : FloatText} {t : Table} {items : List ResolvedItem} {ordering : List ResolvedOrder} {rows : List Nat}

end

/-! ## Matching rows -/

section
variable {declared : List Declared} {lib : QueryLibrary} {t : Table} {select : Select} {plan : SelectPlan}
  {selectionLimit : Option Nat}

end

/-! ## Row numbers and pages -/

section
variable {lib : QueryLibrary} {catalog : Catalog} {limits : QueryResultLimits} {select : Select} {t : Table}
  {plan : SelectPlan} {selectionLimit : Option Nat}

end

end RustHouse.Batch
