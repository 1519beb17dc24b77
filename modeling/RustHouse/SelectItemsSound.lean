import RustHouse.OrderKeys
import RustHouse.SelectEngine
import RustHouse.TableSound

/-!
# Plans are typed

What the resolution of a query promises to its execution: the columns behind its
items exist and have the types that the items take, the items of a grouped query
are derived from its groups, and every output has the type of its result column.
-/

namespace RustHouse.Batch

open Checked Exec Words

/-! ## Types -/

def ResolvedItem.resultType : ResolvedItem → (dataType : DataType) → DataType
  | column _ _, dataType => dataType
  | int64Subtract _ _, _ | ifNullInt64 _ _ _, _ | castNullableInt64ToInt64 _ _, _ | castFloat64ToInt64 _, _
  | castBoolToInt64 _, _ | castStringToInt64 _, _ | stringLength _, _ | stringLengthUtf8 _, _ | stringEmpty _, _
  | int64Abs _, _ | rowNumber, _ | aggregate _, _ => .int64
  | isNull _ _, _ | isNotNull _ _, _ | castInt64ToBool _, _ | castFloat64ToBool _, _ | castStringToBool _, _ => .bool
  | castInt64ToFloat64 _, _ | castBoolToFloat64 _, _ | castStringToFloat64 _, _ | float64Abs _, _ | float64Round _, _
  | float64Floor _, _ | float64Ceil _, _ => .float64
  | castInt64ToString _, _ | castFloat64ToString _, _ | castBoolToString _, _ | toString _ _, _ | stringLower _, _
  | stringUpper _, _ => .string

/-- The place among the groups that an item is derived from. -/
def ResolvedItem.groupPosition : ResolvedItem → Option Nat
  | column _ position | ifNullInt64 _ _ position | isNull _ position | isNotNull _ position
  | castNullableInt64ToInt64 _ position => position
  | _ => none

section
variable (t : Table)

/-- The column that an item reads is there, and of a type that the item takes. -/
structure ResolvedItem.Reads (item : ResolvedItem) (source : Nat) (column : Column) : Prop where
  source_eq : item.source = some source
  column_eq : t.columns[source]? = some column
  takes : item.takes column.dataType

def ResolvedItem.Fits (item : ResolvedItem) : Prop := ∃ source column, item.Reads t source column

/-- The aggregate has an argument of its type. -/
structure AggregateSpec.Fits (spec : AggregateSpec) : Prop where
  argument : ∀ index, spec.argument = some index →
    ∃ column, t.columns[index]? = some column ∧ spec.inputType = some column.dataType
  empty : spec.argument = none → spec.function = .count ∧ spec.inputType = none
  countIf : spec.function = .countIf → spec.inputType = some .bool
  numeric : spec.function = .sum ∨ spec.function = .avg → spec.inputType = some .int64 ∨ spec.inputType = some .float64

variable (hasAggregate hasRowNumber : Bool) (groupColumns : List Nat) (specs : List AggregateSpec)

inductive ItemTyped : ResolvedItem → ResultColumn → Prop where
  /-- A column is read, in a grouped query one that is the same for all rows of a group. -/
  | reads {item : ResolvedItem} {source : Nat} {column : Column} {name : String} (h : item.Reads t source column)
      (hgroup : isGrouped hasAggregate groupColumns → ∃ position,
        item.groupPosition = some position ∧ groupColumns[position]? = some source) :
      ItemTyped item ⟨name, item.resultType column.dataType⟩
  | rowNumber {name : String} (h : hasRowNumber) : ItemTyped .rowNumber ⟨name, .int64⟩
  | aggregate {state : Nat} {spec : AggregateSpec} {name : String} {dataType : DataType}
      (hspec : specs[state]? = some spec) (hfits : spec.Fits t)
      (htype : aggregateOutputType spec.function spec.inputType = some dataType) :
      ItemTyped (.aggregate state) ⟨name, dataType⟩

end

section
variable {declared : List Declared} {t : Table}

theorem column_of_schema (h : Table.Consistent declared t) {i : Nat} {field : ColumnDef} (hfield : t.schema[i]? = some field) :
    ∃ column, t.columns[i]? = some column ∧ field.dataType = column.dataType := by
  rw [h.schema_getElem?] at hfield
  obtain ⟨d, hd, rfl⟩ := Option.map_eq_some_iff.1 hfield
  obtain ⟨column, hcolumn, hkind, _⟩ := h.column_of_declared hd
  exact ⟨column, hcolumn, (congrArg Prod.fst hkind).symm⟩

theorem column_of_columnIndex (h : Table.Consistent declared t) {name : String} {source : Nat}
    (hsource : t.columnIndex name = .ok source) : ∃ column, t.columns[source]? = some column := by
  obtain ⟨_, d, hd⟩ := Table.columnIndex_eq_ok h hsource
  obtain ⟨column, hcolumn, _⟩ := h.column_of_declared hd
  exact ⟨column, hcolumn⟩

/-! ## Items -/

section
variable {hasAggregate hasRowNumber : Bool} {groupColumns : List Nat} {specs : List AggregateSpec}

theorem idxOf?_eq_some {source position : Nat} (h : groupColumns.idxOf? source = some position) :
    groupColumns[position]? = some source := by
  rw [List.idxOf?, List.findIdx?_eq_some_iff_getElem] at h
  obtain ⟨hlt, heq, _⟩ := h
  rw [List.getElem?_eq_getElem hlt, eq_of_beq heq]

theorem groupPositionOf_eq_ok {name : String} {source : Nat} {position : Option Nat}
    (h : groupPositionOf hasAggregate groupColumns name source = .ok position) :
    isGrouped hasAggregate groupColumns → ∃ p, position = some p ∧ groupColumns[p]? = some source := by
  intro hgrouped
  rw [groupPositionOf] at h
  split at h
  · cases h
  · rename_i hfound
    obtain rfl := Exec.ok.inj h
    rw [hgrouped] at hfound
    cases hposition : groupColumns.idxOf? source with
    | none => exact absurd ⟨rfl, by rw [hposition]; rfl⟩ hfound
    | some p => exact ⟨p, rfl, idxOf?_eq_some hposition⟩

theorem rejectGrouped_eq_ok {function : String} (h : rejectGrouped hasAggregate groupColumns function = .ok ()) :
    isGrouped hasAggregate groupColumns = false := by
  rw [rejectGrouped, rejectIf_eq_ok] at h
  exact eq_false_of_ne_true h

theorem ItemTyped.scalar {item : ResolvedItem} {source : Nat} {column : Column} {name : String} {dataType : DataType}
    (h : item.Reads t source column) (hungrouped : isGrouped hasAggregate groupColumns = false)
    (htype : item.resultType column.dataType = dataType) :
    ItemTyped t hasAggregate hasRowNumber groupColumns specs item ⟨name, dataType⟩ := by
  subst htype
  exact .reads h fun hgrouped => by rw [hungrouped] at hgrouped; cases hgrouped

theorem ItemTyped.append {more : List AggregateSpec} {item : ResolvedItem} {column : ResultColumn}
    (h : ItemTyped t hasAggregate hasRowNumber groupColumns specs item column) :
    ItemTyped t hasAggregate hasRowNumber groupColumns (specs ++ more) item column := by
  cases h with
  | reads h hgroup => exact .reads h hgroup
  | rowNumber h => exact .rowNumber h
  | aggregate hspec hfits htype =>
    refine .aggregate ?_ hfits htype
    rw [List.getElem?_append_left (List.getElem?_eq_some_iff.1 hspec).1]
    exact hspec

/-- What one requested item comes to: typed items, and aggregates behind those before. -/
structure ResolvedItems.Typed (t : Table) (hasAggregate hasRowNumber : Bool) (groupColumns : List Nat)
    (before : List AggregateSpec) (resolved : ResolvedItems) : Prop where
  items : List.Forall₂ (ItemTyped t hasAggregate hasRowNumber groupColumns (before ++ resolved.aggregateSpecs)) resolved.items
    resolved.resultColumns
  specs : ∀ spec ∈ resolved.aggregateSpecs, spec.Fits t
  aggregates : resolved.aggregateSpecs ≠ [] → hasAggregate

theorem ResolvedItems.Typed.one {before : List AggregateSpec} {item : ResolvedItem} {column : ResultColumn}
    (h : ItemTyped t hasAggregate hasRowNumber groupColumns before item column) :
    (ResolvedItems.one item column).Typed t hasAggregate hasRowNumber groupColumns before := by
  constructor
  · show List.Forall₂ (ItemTyped t hasAggregate hasRowNumber groupColumns (before ++ [])) [item] [column]
    rw [List.append_nil]
    exact .cons h .nil
  · exact List.forall_mem_nil _
  · exact fun h => absurd rfl h

variable {before : List AggregateSpec} {resolved : ResolvedItems}

theorem resolveGroupable_typed {name : String} {aliasName : Option String} {source : Nat} {column : Column}
    {item : Option Nat → ResolvedItem} {defaultName : String → String} {dataType : DataType}
    (hcolumn : t.columns[source]? = some column)
    (hitem : ∀ position, (item position).source = some source ∧ (item position).takes column.dataType ∧
      (item position).groupPosition = position ∧ (item position).resultType column.dataType = dataType)
    (h : resolveGroupable t hasAggregate groupColumns name aliasName source item defaultName dataType = .ok resolved) :
    resolved.Typed t hasAggregate hasRowNumber groupColumns before := by
  obtain ⟨position, hposition, h⟩ := Exec.bind_eq_ok.1 h
  obtain ⟨field, _, h⟩ := Exec.bind_eq_ok.1 h
  obtain rfl := Exec.ok.inj h
  obtain ⟨hitemSource, htakes, hplace, rfl⟩ := hitem position
  apply ResolvedItems.Typed.one
  apply ItemTyped.reads ⟨hitemSource, hcolumn, htakes⟩
  rw [hplace]
  exact groupPositionOf_eq_ok hposition

theorem castItem_spec {actual targetType : DataType} {nullable : Bool} {source : Nat} {position : Option Nat}
    {item : ResolvedItem} (h : castItem actual targetType nullable source position = some item) :
    item.source = some source ∧ item.takes actual ∧ item.resultType actual = targetType ∧
      ∀ p, item.groupPosition = some p → position = some p := by
  cases actual <;> cases targetType <;> simp only [castItem] at h
  case int64.int64 =>
    obtain ⟨_, h⟩ := Option.ite_none_right_eq_some.1 h
    obtain rfl := Option.some.inj h
    exact ⟨rfl, rfl, rfl, fun _ hposition => hposition⟩
  all_goals
    first
    | obtain rfl := Option.some.inj h
      exact ⟨rfl, rfl, rfl, fun _ hposition => by cases hposition⟩
    | cases h

/-- Of the casts only that of a nullable integer passes in a grouped query. -/
theorem validateGroupedCast_eq_ok {name : String} {item : ResolvedItem}
    (h : validateGroupedCast hasAggregate groupColumns name item = .ok ()) :
    isGrouped hasAggregate groupColumns → ∃ p, item.groupPosition = some p := by
  intro hgrouped
  unfold validateGroupedCast at h
  rw [if_neg (not_not.2 hgrouped)] at h
  split at h
  · exact ⟨_, rfl⟩
  · cases h
  · cases h

section
variable (hc : Table.Consistent declared t)
include hc

theorem resolveScalar_typed {function name : String} {aliasName : Option String} {argumentType dataType : DataType}
    {item : Nat → ResolvedItem}
    (hitem : ∀ source, (item source).source = some source ∧ (item source).takes argumentType ∧
      (item source).resultType argumentType = dataType)
    (h : resolveScalar t hasAggregate groupColumns function name aliasName argumentType item dataType = .ok resolved) :
    resolved.Typed t hasAggregate hasRowNumber groupColumns before := by
  obtain ⟨source, _, h⟩ := Exec.bind_eq_ok.1 h
  obtain ⟨field, hfield, h⟩ := Exec.bind_eq_ok.1 h
  obtain ⟨_, htype, h⟩ := Exec.bind_eq_ok.1 h
  obtain ⟨_, hgrouped, h⟩ := Exec.bind_eq_ok.1 h
  obtain rfl := Exec.ok.inj h
  obtain ⟨column, hcolumn, hfieldType⟩ := column_of_schema hc (orPanic_eq_ok.1 hfield)
  rw [rejectIf_eq_ok, not_not, hfieldType] at htype
  obtain ⟨hitemSource, htakes, hresult⟩ := hitem source
  rw [← htype] at htakes hresult
  exact .one (.scalar ⟨hitemSource, hcolumn, htakes⟩ (rejectGrouped_eq_ok hgrouped) hresult)

theorem resolveCast_typed {name : String} {targetType : DataType} {aliasName : Option String}
    (h : resolveCast t hasAggregate groupColumns name targetType aliasName = .ok resolved) :
    resolved.Typed t hasAggregate hasRowNumber groupColumns before := by
  obtain ⟨source, _, h⟩ := Exec.bind_eq_ok.1 h
  obtain ⟨field, hfield, h⟩ := Exec.bind_eq_ok.1 h
  obtain ⟨nullable, _, h⟩ := Exec.bind_eq_ok.1 h
  obtain ⟨item, hitem, h⟩ := Exec.bind_eq_ok.1 h
  obtain ⟨_, hgroup, h⟩ := Exec.bind_eq_ok.1 h
  obtain rfl := Exec.ok.inj h
  obtain ⟨column, hcolumn, htype⟩ := column_of_schema hc (orPanic_eq_ok.1 hfield)
  rw [getOr_eq_ok, htype] at hitem
  obtain ⟨hitemSource, htakes, rfl, hposition⟩ := castItem_spec hitem
  apply ResolvedItems.Typed.one
  apply ItemTyped.reads ⟨hitemSource, hcolumn, htakes⟩
  intro hgrouped
  obtain ⟨p, hp⟩ := validateGroupedCast_eq_ok hgroup hgrouped
  exact ⟨p, hp, idxOf?_eq_some (hposition p hp)⟩

theorem resolveAbs_typed {name : String} {aliasName : Option String}
    (h : resolveAbs t hasAggregate groupColumns name aliasName = .ok resolved) :
    resolved.Typed t hasAggregate hasRowNumber groupColumns before := by
  obtain ⟨source, _, h⟩ := Exec.bind_eq_ok.1 h
  obtain ⟨field, hfield, h⟩ := Exec.bind_eq_ok.1 h
  obtain ⟨item, hitem, h⟩ := Exec.bind_eq_ok.1 h
  obtain ⟨_, hgrouped, h⟩ := Exec.bind_eq_ok.1 h
  obtain rfl := Exec.ok.inj h
  obtain ⟨column, hcolumn, htype⟩ := column_of_schema hc (orPanic_eq_ok.1 hfield)
  have hungrouped := rejectGrouped_eq_ok hgrouped
  rw [getOr_eq_ok, htype] at hitem
  rw [htype]
  cases hactual : column.dataType with
  | int64 =>
    rw [hactual] at hitem
    obtain rfl := Option.some.inj hitem
    exact .one (.scalar ⟨rfl, hcolumn, by rw [hactual]; rfl⟩ hungrouped rfl)
  | float64 =>
    rw [hactual] at hitem
    obtain rfl := Option.some.inj hitem
    exact .one (.scalar ⟨rfl, hcolumn, by rw [hactual]; rfl⟩ hungrouped rfl)
  | bool => rw [hactual] at hitem; cases hitem
  | string => rw [hactual] at hitem; cases hitem

theorem resolveAggregateArgument_spec {function : AggregateFunction} {argument : AggregateArgument}
    {resolvedArgument : Option (Nat × DataType)} {name : String}
    (h : resolveAggregateArgument t function argument = .ok (resolvedArgument, name)) :
    (resolvedArgument = none → function = .count) ∧ ∀ index dataType, resolvedArgument = some (index, dataType) →
      ∃ column, t.columns[index]? = some column ∧ dataType = column.dataType := by
  cases argument with
  | empty =>
    obtain ⟨_, hcount, h⟩ := Exec.bind_eq_ok.1 h
    obtain ⟨rfl, _⟩ := Prod.mk.inj (Exec.ok.inj h)
    rw [rejectIf_eq_ok, not_not] at hcount
    exact ⟨fun _ => hcount, fun _ _ h => by cases h⟩
  | wildcard =>
    obtain ⟨_, hcount, h⟩ := Exec.bind_eq_ok.1 h
    obtain ⟨rfl, _⟩ := Prod.mk.inj (Exec.ok.inj h)
    rw [rejectIf_eq_ok, not_not] at hcount
    exact ⟨fun _ => hcount, fun _ _ h => by cases h⟩
  | column name =>
    obtain ⟨index, _, h⟩ := Exec.bind_eq_ok.1 h
    obtain ⟨field, hfield, h⟩ := Exec.bind_eq_ok.1 h
    obtain ⟨rfl, _⟩ := Prod.mk.inj (Exec.ok.inj h)
    obtain ⟨column, hcolumn, htype⟩ := column_of_schema hc (orPanic_eq_ok.1 hfield)
    refine ⟨fun h => (by cases h), fun _ _ h => ?_⟩
    obtain ⟨rfl, rfl⟩ := Prod.mk.inj (Option.some.inj h)
    exact ⟨column, hcolumn, htype⟩

theorem resolveAggregate_typed (haggregate : hasAggregate) {function : AggregateFunction} {argument : AggregateArgument}
    {aliasName : Option String} (h : resolveAggregate t before.length function argument aliasName = .ok resolved) :
    resolved.Typed t hasAggregate hasRowNumber groupColumns before := by
  obtain ⟨⟨argument, name⟩, hargument, h⟩ := Exec.bind_eq_ok.1 h
  obtain ⟨_, hvalidate, h⟩ := Exec.bind_eq_ok.1 h
  obtain ⟨_, _, h⟩ := Exec.bind_eq_ok.1 h
  obtain ⟨dataType, htype, h⟩ := Exec.bind_eq_ok.1 h
  obtain rfl := Exec.ok.inj h
  obtain ⟨hempty, hcolumn⟩ := resolveAggregateArgument_spec hc hargument
  obtain ⟨_, hcountIf, hnumeric⟩ := Exec.bind_eq_ok.1 hvalidate
  rw [rejectIf_eq_ok] at hcountIf hnumeric
  rw [orPanic_eq_ok] at htype
  have hfits : AggregateSpec.Fits t ⟨function, argument.map (·.1), argument.map (·.2)⟩ := by
    constructor
    · intro index hindex
      obtain ⟨⟨_, dataType⟩, rfl, rfl⟩ := Option.map_eq_some_iff.1 hindex
      obtain ⟨column, hread, rfl⟩ := hcolumn _ _ rfl
      exact ⟨column, hread, rfl⟩
    · intro hnone
      rw [Option.map_eq_none_iff] at hnone
      subst hnone
      exact ⟨hempty rfl, rfl⟩
    · intro hfunction
      by_contra hne
      exact hcountIf ⟨hfunction, hne⟩
    · intro hfunction
      by_contra hne
      exact hnumeric ⟨hfunction, not_or.1 hne⟩
  constructor
  · refine .cons (.aggregate ?_ hfits htype) .nil
    rw [List.getElem?_append_right (Nat.le_refl _), Nat.sub_self]
    rfl
  · intro spec hspec
    obtain rfl := List.mem_singleton.1 hspec
    exact hfits
  · exact fun _ => haggregate

theorem resolveWildcard_items {done fields : List ColumnDef} (hschema : t.schema = done ++ fields)
    (hgroup : hasAggregate = false) (h : resolveWildcard groupColumns done.length fields = .ok resolved) :
    List.Forall₂ (ItemTyped t hasAggregate hasRowNumber groupColumns specs) resolved.items resolved.resultColumns ∧
      resolved.aggregateSpecs = [] := by
  induction fields generalizing done resolved with
  | nil =>
    obtain rfl := Exec.ok.inj h
    exact ⟨.nil, rfl⟩
  | cons field fields ih =>
    obtain ⟨_, hposition, h⟩ := Exec.bind_eq_ok.1 h
    obtain ⟨rest, hrest, h⟩ := Exec.bind_eq_ok.1 h
    obtain rfl := Exec.ok.inj h
    rw [rejectIf_eq_ok] at hposition
    have hschema' : t.schema = (done ++ [field]) ++ fields := by rw [hschema, List.append_assoc]; rfl
    obtain ⟨hitems, _⟩ := ih hschema' (by rw [List.length_append]; exact hrest)
    have hfield : t.schema[done.length]? = some field := by
      rw [hschema, List.getElem?_append_right (Nat.le_refl _), Nat.sub_self]
      rfl
    obtain ⟨column, hcolumn, htype⟩ := column_of_schema hc hfield
    refine ⟨.cons ?_ hitems, rfl⟩
    rw [htype]
    apply ItemTyped.reads ⟨rfl, hcolumn, rfl⟩
    intro hgrouped
    rw [isGrouped, hgroup, Bool.false_or, decide_eq_true_iff] at hgrouped
    cases hplace : groupColumns.idxOf? done.length with
    | none => exact absurd ⟨hgrouped, by rw [hplace]; rfl⟩ hposition
    | some p => exact ⟨p, rfl, idxOf?_eq_some hplace⟩

theorem resolveWildcard_typed (hgroup : hasAggregate = false)
    (h : resolveWildcard groupColumns 0 t.schema = .ok resolved) :
    resolved.Typed t hasAggregate hasRowNumber groupColumns before := by
  have hschema : t.schema = [] ++ t.schema := rfl
  obtain ⟨hitems, hspecs⟩ := resolveWildcard_items hc hschema hgroup h
  refine ⟨hitems, ?_, fun h => absurd hspecs h⟩
  rw [hspecs]
  exact List.forall_mem_nil _

/-- **Every requested item is typed.** -/
theorem resolveSelectItem_typed {item : SelectItem} (hwildcard : hasAggregate → item.isWildcard = false)
    (haggregate : item.isAggregate → hasAggregate) (hrowNumber : item.isRowNumber → hasRowNumber)
    (h : resolveSelectItem t hasAggregate groupColumns before.length item = .ok resolved) :
    resolved.Typed t hasAggregate hasRowNumber groupColumns before := by
  cases item with
  | wildcard =>
    apply resolveWildcard_typed hc _ h
    cases hasAggregate with
    | false => rfl
    | true => cases hwildcard rfl
  | column name aliasName =>
    obtain ⟨source, _, h⟩ := Exec.bind_eq_ok.1 h
    obtain ⟨field, hfield, h⟩ := Exec.bind_eq_ok.1 h
    obtain ⟨column, hcolumn, htype⟩ := column_of_schema hc (orPanic_eq_ok.1 hfield)
    rw [htype] at h
    refine resolveGroupable_typed hcolumn ?_ h
    intro position
    exact ⟨rfl, rfl, rfl, rfl⟩
  | int64Subtract name literal aliasName =>
    obtain ⟨source, _, h⟩ := Exec.bind_eq_ok.1 h
    obtain ⟨field, hfield, h⟩ := Exec.bind_eq_ok.1 h
    obtain ⟨_, htype, h⟩ := Exec.bind_eq_ok.1 h
    obtain ⟨_, hgrouped, h⟩ := Exec.bind_eq_ok.1 h
    obtain rfl := Exec.ok.inj h
    obtain ⟨column, hcolumn, hcolumnType⟩ := column_of_schema hc (orPanic_eq_ok.1 hfield)
    rw [rejectIf_eq_ok, not_not, hcolumnType] at htype
    exact .one (.scalar ⟨rfl, hcolumn, decide_eq_true htype⟩ (rejectGrouped_eq_ok hgrouped) rfl)
  | ifNullInt64 name fallback aliasName =>
    obtain ⟨source, _, h⟩ := Exec.bind_eq_ok.1 h
    obtain ⟨column, hcolumn, h⟩ := Exec.bind_eq_ok.1 h
    obtain ⟨_, hnullable, h⟩ := Exec.bind_eq_ok.1 h
    rw [orPanic_eq_ok] at hcolumn
    rw [rejectIf_eq_ok, not_not] at hnullable
    have htype : column.dataType = .int64 := by
      cases column with
      | nullableInt64 values => rfl
      | _ => cases hnullable
    refine resolveGroupable_typed hcolumn ?_ h
    intro position
    exact ⟨rfl, decide_eq_true htype, rfl, rfl⟩
  | isNull name aliasName | isNotNull name aliasName =>
    obtain ⟨source, hsource, h⟩ := Exec.bind_eq_ok.1 h
    obtain ⟨column, hcolumn⟩ := column_of_columnIndex hc hsource
    refine resolveGroupable_typed hcolumn ?_ h
    intro position
    exact ⟨rfl, rfl, rfl, rfl⟩
  | cast name targetType aliasName => exact resolveCast_typed hc h
  | toString name aliasName =>
    obtain ⟨source, _, h⟩ := Exec.bind_eq_ok.1 h
    obtain ⟨_, hgrouped, h⟩ := Exec.bind_eq_ok.1 h
    obtain ⟨field, hfield, h⟩ := Exec.bind_eq_ok.1 h
    obtain rfl := Exec.ok.inj h
    obtain ⟨column, hcolumn, htype⟩ := column_of_schema hc (orPanic_eq_ok.1 hfield)
    exact .one (.scalar ⟨rfl, hcolumn, decide_eq_true htype.symm⟩ (rejectGrouped_eq_ok hgrouped) rfl)
  | length name aliasName | lengthUtf8 name aliasName | empty name aliasName | lower name aliasName
  | upper name aliasName | round name aliasName | floor name aliasName | ceil name aliasName =>
    refine resolveScalar_typed hc ?_ h
    intro source
    exact ⟨rfl, rfl, rfl⟩
  | abs name aliasName => exact resolveAbs_typed hc h
  | rowNumber orderBy aliasName =>
    obtain rfl := Exec.ok.inj h
    exact .one (.rowNumber (hrowNumber rfl))
  | aggregate function argument aliasName => exact resolveAggregate_typed hc (haggregate rfl) h

/-- **The items of a query are typed**, whatever aggregates are before them. -/
theorem resolveItemsFrom_typed {requested : List SelectItem}
    (hwildcard : hasAggregate → ∀ item ∈ requested, item.isWildcard = false)
    (haggregate : ∀ item ∈ requested, item.isAggregate → hasAggregate)
    (hrowNumber : ∀ item ∈ requested, item.isRowNumber → hasRowNumber)
    (h : resolveItemsFrom t hasAggregate groupColumns before.length requested = .ok resolved) :
    resolved.Typed t hasAggregate hasRowNumber groupColumns before := by
  induction requested generalizing before resolved with
  | nil =>
    obtain rfl := Exec.ok.inj h
    exact ⟨.nil, List.forall_mem_nil _, fun h => absurd rfl h⟩
  | cons item requested ih =>
    obtain ⟨first, hfirst, h⟩ := Exec.bind_eq_ok.1 h
    obtain ⟨rest, hrest, h⟩ := Exec.bind_eq_ok.1 h
    obtain rfl := Exec.ok.inj h
    have htyped := resolveSelectItem_typed hc (fun h => hwildcard h item List.mem_cons_self)
      (haggregate item List.mem_cons_self) (hrowNumber item List.mem_cons_self) hfirst
    rw [← List.length_append] at hrest
    have hothers := ih (fun h other hother => hwildcard h other (List.mem_cons_of_mem _ hother))
      (fun other hother => haggregate other (List.mem_cons_of_mem _ hother))
      (fun other hother => hrowNumber other (List.mem_cons_of_mem _ hother)) hrest
    constructor
    · refine List.rel_append ?_ ?_
      · rw [← List.append_assoc]
        exact htyped.items.imp fun _ _ => ItemTyped.append
      · rw [← List.append_assoc]
        exact hothers.items
    · intro spec hspec
      rcases List.mem_append.1 hspec with hspec | hspec
      · exact htyped.specs spec hspec
      · exact hothers.specs spec hspec
    · intro hne
      by_cases hnone : first.aggregateSpecs = []
      · apply hothers.aggregates
        intro hrestNone
        exact hne (by rw [hnone, hrestNone]; rfl)
      · exact htyped.aggregates hnone

theorem resolveSelectItems_typed {requested : List SelectItem}
    (h : resolveSelectItems t requested groupColumns = .ok resolved) :
    resolved.Typed t (requested.any SelectItem.isAggregate) (requested.any SelectItem.isRowNumber) groupColumns [] := by
  obtain ⟨_, hwildcard, h⟩ := Exec.bind_eq_ok.1 h
  rw [rejectIf_eq_ok, not_and] at hwildcard
  refine resolveItemsFrom_typed hc ?_ ?_ ?_ h
  · intro haggregate item hitem
    have hany := eq_false_of_ne_true (hwildcard haggregate)
    exact eq_false_of_ne_true (List.any_eq_false.1 hany item hitem)
  · intro item hitem haggregate
    exact List.any_eq_true.2 ⟨item, hitem, haggregate⟩
  · intro item hitem hrowNumber
    exact List.any_eq_true.2 ⟨item, hitem, hrowNumber⟩

/-! ## Groups -/

structure KeyColumns (t : Table) (columns : List Nat) : Prop where
  found : ∀ column ∈ columns, ∃ physical, t.columns[column]? = some physical
  nodup : columns.Nodup

omit hc in
theorem KeyColumns.nil : KeyColumns t [] := ⟨List.forall_mem_nil _, List.nodup_nil⟩

theorem KeyColumns.concat {columns : List Nat} (h : KeyColumns t columns) {name : String} {column : Nat} {e : Error}
    (hcolumn : t.columnIndex name = .ok column) (hnew : rejectIf (column ∈ columns) e = .ok ()) :
    KeyColumns t (columns ++ [column]) := by
  rw [rejectIf_eq_ok] at hnew
  constructor
  · intro other hother
    rcases List.mem_append.1 hother with hother | hother
    · exact h.found other hother
    · obtain rfl := List.mem_singleton.1 hother
      exact column_of_columnIndex hc hcolumn
  · refine List.nodup_append.2 ⟨h.nodup, List.nodup_singleton _, ?_⟩
    intro a ha b hb heq
    obtain rfl := List.mem_singleton.1 hb
    exact hnew (heq ▸ ha)

theorem resolveDistinctColumns_eq_ok {columns result : List Nat} {items : List SelectItem} (hkeys : KeyColumns t columns)
    (h : resolveDistinctColumns t columns items = .ok result) :
    KeyColumns t result ∧ result.length = columns.length + items.length := by
  induction items generalizing columns with
  | nil =>
    obtain rfl := Exec.ok.inj h
    exact ⟨hkeys, rfl⟩
  | cons item items ih =>
    cases item with
    | column name aliasName =>
      cases aliasName with
      | none =>
        obtain ⟨column, hcolumn, h⟩ := Exec.bind_eq_ok.1 h
        obtain ⟨_, hnew, h⟩ := Exec.bind_eq_ok.1 h
        obtain ⟨hresult, hlength⟩ := ih (hkeys.concat hc hcolumn hnew) h
        refine ⟨hresult, ?_⟩
        rw [hlength, List.length_append, List.length_singleton, List.length_cons]
        omega
      | some aliasName => cases h
    | _ => cases h

theorem resolveGroupColumns_eq_ok {columns result : List Nat} {expressions : List String} (hkeys : KeyColumns t columns)
    (h : resolveGroupColumns t columns expressions = .ok result) : KeyColumns t result := by
  induction expressions generalizing columns with
  | nil =>
    obtain rfl := Exec.ok.inj h
    exact hkeys
  | cons expression expressions ih =>
    obtain ⟨⟨name, column⟩, hkey, h⟩ := Exec.bind_eq_ok.1 h
    obtain ⟨_, hnew, h⟩ := Exec.bind_eq_ok.1 h
    obtain ⟨other, hcolumn⟩ : ∃ other, t.columnIndex other = .ok column := by
      rw [resolveGroupKey] at hkey
      cases hcast : groupByCast expression with
      | none =>
        rw [hcast] at hkey
        obtain ⟨found, hfound, hkey⟩ := Exec.bind_eq_ok.1 hkey
        obtain ⟨_, rfl⟩ := Prod.mk.inj (Exec.ok.inj hkey)
        exact ⟨expression, hfound⟩
      | some cast =>
        rw [hcast] at hkey
        obtain ⟨found, hfound, hkey⟩ := Exec.bind_eq_ok.1 hkey
        obtain ⟨_, _, hkey⟩ := Exec.bind_eq_ok.1 hkey
        obtain ⟨_, _, hkey⟩ := Exec.bind_eq_ok.1 hkey
        obtain ⟨_, rfl⟩ := Prod.mk.inj (Exec.ok.inj hkey)
        exact ⟨cast.1, hfound⟩
    exact ih (hkeys.concat hc hcolumn hnew) h

end

/-! ## Outputs -/

theorem lt_of_mem_outputsNamed {names : List String} {name : String} {output : Nat}
    (h : output ∈ outputsNamed names name) : output < names.length := by
  obtain ⟨⟨other, index⟩, hmem, rfl⟩ := List.mem_map.1 h
  have hzip := (List.mem_filter.1 hmem).1
  exact (List.mem_zipIdx hzip).2.1.trans_eq (Nat.zero_add _)

theorem resolveOrder_eq_ok {columnNames expressionNames : List String} {order : OrderBy} {resolved : ResolvedOrder}
    (hlength : expressionNames.length = columnNames.length)
    (h : resolveOrder columnNames expressionNames order = .ok resolved) : resolved.output < columnNames.length := by
  rw [resolveOrder] at h
  split at h
  · rename_i output houtput
    obtain rfl := Exec.ok.inj h
    split at houtput
    · rw [← hlength]
      exact lt_of_mem_outputsNamed (houtput ▸ List.mem_singleton_self output)
    · exact lt_of_mem_outputsNamed (houtput ▸ List.mem_singleton_self output)
  · cases h
  · cases h

theorem resolveOrders_eq_ok {columnNames expressionNames : List String} {requested : List OrderBy}
    {ordering : List ResolvedOrder} (hlength : expressionNames.length = columnNames.length)
    (h : resolveOrders columnNames expressionNames requested = .ok ordering) :
    ∀ order ∈ ordering, order.output < columnNames.length := by
  induction requested generalizing ordering with
  | nil =>
    obtain rfl := Exec.ok.inj h
    exact List.forall_mem_nil _
  | cons order requested ih =>
    obtain ⟨first, hfirst, h⟩ := Exec.bind_eq_ok.1 h
    obtain ⟨rest, hrest, h⟩ := Exec.bind_eq_ok.1 h
    obtain rfl := Exec.ok.inj h
    exact List.forall_mem_cons.2 ⟨resolveOrder_eq_ok hlength hfirst, ih hrest⟩

theorem length_of_mapM {α β : Type} {f : α → Option β} {as : List α} {bs : List β} (h : as.mapM f = some bs) :
    bs.length = as.length := by
  induction as generalizing bs with
  | nil =>
    obtain rfl := Option.some.inj h
    rfl
  | cons a as ih =>
    rw [List.mapM_cons] at h
    obtain ⟨b, _, h⟩ := Option.bind_eq_some_iff.1 h
    obtain ⟨bs', hbs, h⟩ := Option.bind_eq_some_iff.1 h
    obtain rfl := Option.some.inj h
    rw [List.length_cons, List.length_cons, ih hbs]

theorem resolveOrdering_eq_ok {requested : List OrderBy} {ordering : List ResolvedOrder}
    (hlength : resolved.items.length = resolved.resultColumns.length)
    (h : resolveOrdering t resolved requested = .ok ordering) :
    (∀ order ∈ ordering, order.output < resolved.items.length) ∧ (requested = [] → ordering = []) := by
  rw [resolveOrdering] at h
  split at h
  · obtain rfl := Exec.ok.inj h
    exact ⟨List.forall_mem_nil _, fun _ => rfl⟩
  · rename_i hrequested
    obtain ⟨names, hnames, h⟩ := Exec.bind_eq_ok.1 h
    rw [orPanic_eq_ok] at hnames
    have hcolumns : (resolved.resultColumns.map (·.name)).length = resolved.items.length := by
      rw [List.length_map, hlength]
    rw [← hcolumns]
    refine ⟨resolveOrders_eq_ok ?_ h, fun h => absurd h hrequested⟩
    rw [length_of_mapM hnames, hcolumns]

theorem resolveHaving_eq_ok {requested : Having} {having : ResolvedHaving}
    (h : resolveHaving resolved requested = .ok having) :
    .aggregate having.state ∈ resolved.items ∧ ∃ spec, resolved.aggregateSpecs[having.state]? = some spec := by
  obtain ⟨output, _, h⟩ := Exec.bind_eq_ok.1 h
  obtain ⟨item, hitem, h⟩ := Exec.bind_eq_ok.1 h
  rw [orPanic_eq_ok] at hitem
  cases item with
  | aggregate state =>
    obtain ⟨spec, hspec, h⟩ := Exec.bind_eq_ok.1 h
    obtain ⟨predicate, _, h⟩ := Exec.bind_eq_ok.1 h
    obtain rfl := Exec.ok.inj h
    exact ⟨List.mem_of_getElem? hitem, spec, orPanic_eq_ok.1 hspec⟩
  | _ => cases h

theorem resolveWindowOrder_eq_ok (hc : Table.Consistent declared t) {order : OrderBy} {ordering : ResolvedWindowOrder}
    (h : resolveWindowOrder t order = .ok ordering) :
    ∃ column, t.columns[ordering.source]? = some column ∧ column.dataType = .int64 := by
  obtain ⟨source, _, h⟩ := Exec.bind_eq_ok.1 h
  obtain ⟨field, hfield, h⟩ := Exec.bind_eq_ok.1 h
  obtain ⟨_, htype, h⟩ := Exec.bind_eq_ok.1 h
  obtain rfl := Exec.ok.inj h
  obtain ⟨column, hcolumn, hcolumnType⟩ := column_of_schema hc (orPanic_eq_ok.1 hfield)
  rw [rejectIf_eq_ok, not_not, hcolumnType] at htype
  exact ⟨column, hcolumn, htype⟩

end

/-! ## Plans -/

structure SelectPlan.Sound (t : Table) (select : Select) (plan : SelectPlan) : Prop where
  items : List.Forall₂ (ItemTyped t (select.items.any SelectItem.isAggregate) (select.items.any SelectItem.isRowNumber)
    plan.groupColumns plan.resolved.aggregateSpecs) plan.resolved.items plan.resolved.resultColumns
  specs : ∀ spec ∈ plan.resolved.aggregateSpecs, spec.Fits t
  aggregates : plan.resolved.aggregateSpecs ≠ [] → select.items.any SelectItem.isAggregate
  groups : KeyColumns t plan.groupColumns
  distinct : select.distinct → plan.groupColumns.length = select.items.length
  groupBy : ¬ select.distinct → select.groupBy = [] → plan.groupColumns = []
  window : ∀ ordering ∈ plan.windowOrdering,
    ∃ column, t.columns[ordering.source]? = some column ∧ column.dataType = .int64
  windowed : ¬ select.items.any SelectItem.isRowNumber → plan.windowOrdering = none
  having : ∀ having ∈ plan.having,
    .aggregate having.state ∈ plan.resolved.items ∧ ∃ spec, plan.resolved.aggregateSpecs[having.state]? = some spec
  noHaving : select.having = none → plan.having = none
  ordering : ∀ order ∈ plan.ordering, order.output < plan.resolved.items.length
  unordered : select.orderBy = [] → plan.ordering = []

theorem resolveGroupColumns_nil {columns result : List Nat} (h : resolveGroupColumns t columns [] = .ok result) :
    result = columns := (Exec.ok.inj h).symm

theorem rowNumberOrders_nil {items : List SelectItem} (h : ¬ items.any SelectItem.isRowNumber) :
    rowNumberOrders items = [] := by
  rw [rowNumberOrders, List.filterMap_eq_nil_iff]
  intro item hitem
  have hnot := List.any_eq_false.1 (eq_false_of_ne_true h) item hitem
  cases item with
  | rowNumber orderBy aliasName => exact absurd rfl hnot
  | _ => rfl

/-- **Planning is sound.** -/
theorem planSelect_sound (hc : Table.Consistent declared t) {select : Select} {plan : SelectPlan}
    (h : planSelect t select = .ok plan) : plan.Sound t select := by
  obtain ⟨predicate, _, h⟩ := Exec.bind_eq_ok.1 h
  obtain ⟨groupColumns, hgroups, h⟩ := Exec.bind_eq_ok.1 h
  obtain ⟨resolved, hresolved, h⟩ := Exec.bind_eq_ok.1 h
  obtain ⟨windowOrdering, hwindow, h⟩ := Exec.bind_eq_ok.1 h
  obtain ⟨having, hhaving, h⟩ := Exec.bind_eq_ok.1 h
  obtain ⟨ordering, hordering, h⟩ := Exec.bind_eq_ok.1 h
  obtain rfl := Exec.ok.inj h
  have htyped := resolveSelectItems_typed hc hresolved
  obtain ⟨houtputs, hunordered⟩ := resolveOrdering_eq_ok htyped.items.length_eq hordering
  rw [resolveKeyColumns] at hgroups
  constructor
  case items => exact htyped.items
  case specs => exact htyped.specs
  case aggregates => exact htyped.aggregates
  case groups =>
    split at hgroups
    · exact (resolveDistinctColumns_eq_ok hc .nil hgroups).1
    · exact resolveGroupColumns_eq_ok hc .nil hgroups
  case distinct =>
    intro hdistinct
    rw [if_pos hdistinct] at hgroups
    exact (resolveDistinctColumns_eq_ok hc .nil hgroups).2.trans (Nat.zero_add _)
  case groupBy =>
    intro hdistinct hgroupBy
    rw [if_neg hdistinct, hgroupBy] at hgroups
    exact resolveGroupColumns_nil hgroups
  case window =>
    intro order horder
    obtain rfl := Option.mem_def.1 horder
    rw [resolveRowNumberOrdering] at hwindow
    split at hwindow
    · cases hwindow
    · obtain ⟨_, _, hwindow⟩ := Exec.bind_eq_ok.1 hwindow
      split at hwindow
      · cases hwindow
      · obtain ⟨found, hfound, hwindow⟩ := Exec.bind_eq_ok.1 hwindow
        obtain rfl := Option.some.inj (Exec.ok.inj hwindow)
        exact resolveWindowOrder_eq_ok hc hfound
  case windowed =>
    intro hnone
    rw [resolveRowNumberOrdering, rowNumberOrders_nil hnone] at hwindow
    exact (Exec.ok.inj hwindow).symm
  case having =>
    intro resolvedHaving hmem
    obtain rfl := Option.mem_def.1 hmem
    cases hrequested : select.having with
    | none =>
      rw [hrequested] at hhaving
      cases hhaving
    | some requested =>
      rw [hrequested] at hhaving
      obtain ⟨found, hfound, hhaving⟩ := Exec.bind_eq_ok.1 hhaving
      obtain rfl := Option.some.inj (Exec.ok.inj hhaving)
      exact resolveHaving_eq_ok hfound
  case noHaving =>
    intro hnone
    rw [hnone] at hhaving
    exact (Exec.ok.inj hhaving).symm
  case ordering => exact houtputs
  case unordered => exact hunordered

end

end RustHouse.Batch
