import RustHouse.SelectRows
import RustHouse.ValueCoherence

/-!
# What rows are ordered by

An ordering compares cells of columns and never the values that a query returns.
Its comparisons are those of keys, one for every row, and rows whose values exist
have keys that are ordered as these values.
-/

namespace Binary64

end Binary64

namespace RustHouse.Batch

open Checked Exec Words
open Decimal (Numeral)
open Std (OrientedCmp TransCmp)

/-! ## Keys -/

/-- What a row is ordered by: a value, or an integer that may not fit into one. -/
inductive OrderKey where
  | value (value : Value)
  | number (number : Int)
  deriving DecidableEq

namespace OrderKey

/-- Of an item with numbers the only value is NULL, which comes first. -/
def cmp : OrderKey → OrderKey → Ordering
  | value left, value right => left.cmp right
  | number left, number right => compare left right
  | value _, number _ => .lt
  | number _, value _ => .gt

def null : OrderKey := value (.null .int64)

instance : TransCmp cmp where
  eq_swap := by
    intro left right
    cases left with
    | value left =>
      cases right with
      | value right => exact (OrientedCmp.eq_swap : Value.cmp left right = (Value.cmp right left).swap)
      | number right => rfl
    | number left =>
      cases right with
      | value right => rfl
      | number right => exact (OrientedCmp.eq_swap : compare left right = (compare right left).swap)
  isLE_trans := by
    intro first second third h h'
    cases first with
    | value first =>
      cases third with
      | number third => rfl
      | value third =>
        cases second with
        | value second => exact (inferInstance : TransCmp Value.cmp).isLE_trans h h'
        | number second => cases h'
    | number first =>
      cases second with
      | value second => cases h
      | number second =>
        cases third with
        | value third => cases h'
        | number third => exact (inferInstance : TransCmp (compare : Int → Int → Ordering)).isLE_trans h h'

end OrderKey

def DecimalText.number (text : DecimalText) : Int :=
  if text.negative then -(Decimal.magnitude text.magnitude : Int) else Decimal.magnitude text.magnitude

def Value.int64ToFloat64 : Value → Option Value
  | int64 value => some (.float64 (.ofInt64 value))
  | null .int64 => some (.null .float64)
  | _ => none

def Value.int64ToBool : Value → Option Value
  | int64 value => some (.bool (value ≠ 0))
  | null .int64 => some (.null .bool)
  | _ => none

def Value.asFloat64 : Value → Option F64
  | float64 value => some value
  | _ => none

def Value.asBool : Value → Option Bool
  | bool value => some value
  | _ => none

def Value.asString : Value → Option String
  | string value => some value
  | _ => none

section
variable (float : FloatText)

def stringified : Value → Option Value
  | .null _ => some (.null .string)
  | .int64 value => (renderInt64 value).map .string
  | .float64 value => (renderFloat64 float value).map .string
  | .bool value => some (.string (renderBool value))
  | .string value => some (.string value)

namespace ResolvedItem

def source : ResolvedItem → Option Nat
  | column source _ | int64Subtract source _ | ifNullInt64 source _ _ | isNull source _ | isNotNull source _
  | castNullableInt64ToInt64 source _ | castInt64ToFloat64 source | castBoolToFloat64 source
  | castStringToFloat64 source | castFloat64ToInt64 source | castBoolToInt64 source | castStringToInt64 source
  | castInt64ToBool source | castFloat64ToBool source | castStringToBool source | castInt64ToString source
  | castFloat64ToString source | castBoolToString source | toString source _ | stringLength source
  | stringLengthUtf8 source | stringEmpty source | stringLower source | stringUpper source | int64Abs source
  | float64Abs source | float64Round source | float64Floor source | float64Ceil source => some source
  | rowNumber | aggregate _ => none

/-- **What an item makes of a cell.** -/
def apply (item : ResolvedItem) (value : Value) : Exec Error Value :=
  match item with
  | column _ _ | castNullableInt64ToInt64 _ _ => .ok value
  | int64Subtract _ literal => checkedSubtract literal value
  | ifNullInt64 _ fallback _ => orPanic ((Batch.ifNull fallback value).map .int64)
  | isNull _ _ => .ok (.bool (value = .null .int64))
  | isNotNull _ _ => .ok (.bool !(value = .null .int64))
  | castInt64ToFloat64 _ => orPanic value.int64ToFloat64
  | castInt64ToBool _ => orPanic value.int64ToBool
  | castBoolToFloat64 _ => orPanic (value.asBool.map fun value => .float64 (if value then .one else .zero))
  | castBoolToInt64 _ => orPanic (value.asBool.map fun value => .int64 (if value then 1 else 0))
  | castFloat64ToInt64 _ => do
    let number ← orPanic value.asFloat64
    let number ← checkedFloat64ToInt64 number
    .ok (.int64 number)
  | castFloat64ToBool _ => orPanic (value.asFloat64.map fun number => .bool number.isNonzero)
  | castStringToFloat64 _ => do
    let text ← orPanic value.asString
    let number ← checkedStringToFloat64 float text
    .ok (.float64 number)
  | castStringToInt64 _ => do
    let text ← orPanic value.asString
    let number ← checkedStringToInt64 text
    .ok (.int64 number)
  | castStringToBool _ => do
    let text ← orPanic value.asString
    let value ← checkedStringToBool text
    .ok (.bool value)
  | castInt64ToString _ | castFloat64ToString _ | castBoolToString _ | toString _ _ => orPanic (stringified float value)
  | stringLength _ => do
    let text ← orPanic value.asString
    let length ← stringLengthToI64 (stringLen text)
    .ok (.int64 length)
  | stringLengthUtf8 _ => do
    let text ← orPanic value.asString
    let length ← stringLengthUtf8ToI64 text
    .ok (.int64 length)
  | stringEmpty _ => orPanic (value.asString.map fun text => .int64 (if text = "" then 1 else 0))
  | stringLower _ => orPanic (value.asString.map fun text => .string (toAsciiLowercase text))
  | stringUpper _ => orPanic (value.asString.map fun text => .string (toAsciiUppercase text))
  | int64Abs _ => checkedAbs value
  | float64Abs _ => orPanic (value.asFloat64.map fun number => .float64 number.abs)
  | float64Round _ => orPanic (value.asFloat64.map fun number => .float64 number.round)
  | float64Floor _ => orPanic (value.asFloat64.map fun number => .float64 number.floor)
  | float64Ceil _ => orPanic (value.asFloat64.map fun number => .float64 number.ceil)
  | rowNumber | aggregate _ => .panic

def integerKey (number : Int → Int) : Value → Option OrderKey
  | .int64 value => some (.number (number value.toInt))
  | .null .int64 => some .null
  | _ => none

def valueKey : Exec Error Value → Option OrderKey
  | .ok value => some (.value value)
  | _ => none

/-- **What a cell is ordered by**: what the item makes of it, or that as an exact number. -/
def orderKey (item : ResolvedItem) (value : Value) : Option OrderKey :=
  match item with
  | int64Subtract _ literal => integerKey (· - literal.toInt) value
  | int64Abs _ => integerKey (fun number => number.natAbs) value
  | castStringToInt64 _ => do
    let text ← decimalText (← value.asString)
    some (.number text.number)
  | castStringToFloat64 _ => do
    let text ← value.asString
    if ScalarCast.float64Text text then some (.value (.float64 (orderingStringToFloat64 float text))) else none
  | castFloat64ToInt64 _ => value.asFloat64.map fun number => .value (.float64 number.trunc)
  | stringLength _ => value.asString.map fun text => .number (stringLen text)
  | stringLengthUtf8 _ => value.asString.map fun text => .number text.toList.length
  | column _ _ | ifNullInt64 _ _ _ | isNull _ _ | isNotNull _ _ | castNullableInt64ToInt64 _ _ | castInt64ToFloat64 _
  | castBoolToFloat64 _ | castBoolToInt64 _ | castInt64ToBool _ | castFloat64ToBool _ | castStringToBool _
  | castInt64ToString _ | castFloat64ToString _ | castBoolToString _ | toString _ _ | stringEmpty _ | stringLower _
  | stringUpper _ | float64Abs _ | float64Round _ | float64Floor _ | float64Ceil _ | rowNumber | aggregate _ =>
    valueKey (item.apply float value)

end ResolvedItem

end

/-! ## Cells -/

section
variable {t : Table} {source row : Nat}

theorem nullable_bind {α : Type} {part : Value → Option α} (hnull : part (.null .int64) = none)
    (hint : ∀ n, part (.int64 n) = none) (values : List (Option Int64)) :
    (Column.value row (.nullableInt64 values)).bind part = none := by
  rw [Column.value]
  cases values[row]? with
  | none => rfl
  | some value =>
    cases value with
    | none => exact hnull
    | some n => exact hint n

theorem boolAt_eq : boolAt t source row = (t.valueAt source row).bind Value.asBool := by
  rw [boolAt, Table.valueAt]
  cases t.columns[source]? with
  | none => rfl
  | some column =>
    cases column with
    | nullableInt64 values => exact (nullable_bind rfl (fun _ => rfl) values).symm
    | _ => simp [Column.value, Option.bind_map, Function.comp_def, Value.asBool]

theorem float64At_eq : float64At t source row = (t.valueAt source row).bind Value.asFloat64 := by
  rw [float64At, Table.valueAt]
  cases t.columns[source]? with
  | none => rfl
  | some column =>
    cases column with
    | nullableInt64 values => exact (nullable_bind rfl (fun _ => rfl) values).symm
    | _ => simp [Column.value, Option.bind_map, Function.comp_def, Value.asFloat64]

theorem stringAt_eq : stringAt t source row = (t.valueAt source row).bind Value.asString := by
  rw [stringAt, Table.valueAt]
  cases t.columns[source]? with
  | none => rfl
  | some column =>
    cases column with
    | nullableInt64 values => exact (nullable_bind rfl (fun _ => rfl) values).symm
    | _ => simp [Column.value, Option.bind_map, Function.comp_def, Value.asString]

theorem int64ToFloat64At_eq : int64ToFloat64At t source row = (t.valueAt source row).bind Value.int64ToFloat64 := rfl

theorem int64ToBoolAt_eq : int64ToBoolAt t source row = (t.valueAt source row).bind Value.int64ToBool := rfl

variable {float : FloatText} {item : ResolvedItem}

theorem stringifyValue_eq : stringifyValue t float source row = (t.valueAt source row).bind (stringified float) := rfl

/-! ## Projections -/

/-- **The value of an item in a row** is what the item makes of the row's cell. -/
theorem ResolvedItem.value_apply (hsource : item.source = some source) (rowNumber : Nat) :
    item.value float t rowNumber row = orPanic (t.valueAt source row) >>= item.apply float := by
  unfold ResolvedItem.value
  simp only [isNullAt, ifNullInt64At, boolAt_eq, float64At_eq, stringAt_eq, stringifyValue_eq, int64ToBoolAt_eq,
    int64ToFloat64At_eq]
  cases item with
  | rowNumber => cases hsource
  | aggregate state => cases hsource
  | _ =>
    obtain rfl := Option.some.inj hsource
    dsimp only
    cases t.valueAt _ row <;> rfl

/-! ## Comparisons -/

theorem DecimalText.number_text (n : Numeral) {text : DecimalText} (h : decimalText n.text = some text) :
    text.number = n.value := by
  obtain ⟨_, hvalue, _⟩ := stripLeadingZeros_spec n.digits_ne_nil n.isDigit
  rw [decimalText_text] at h
  obtain rfl := Option.some.inj h
  rw [number, hvalue]
  exact (Batch.value_eq n).symm

theorem decimalTextCmp_number {left right : String} {text text' : DecimalText} (h : decimalText left = some text)
    (h' : decimalText right = some text') : decimalTextCmp left right = some (compare text.number text'.number) := by
  obtain ⟨n, rfl⟩ := decimalText_isSome.1 (Option.isSome_of_eq_some h)
  obtain ⟨n', rfl⟩ := decimalText_isSome.1 (Option.isSome_of_eq_some h')
  rw [decimalTextCmp_text, DecimalText.number_text n h, DecimalText.number_text n' h']

theorem valueKey_eq_some {result : Exec Error Value} {key : OrderKey} (h : ResolvedItem.valueKey result = some key) :
    ∃ value, result = .ok value ∧ OrderKey.value value = key := by
  cases result with
  | ok value => exact ⟨value, rfl, Option.some.inj h⟩
  | error e => cases h
  | panic => cases h

theorem key_of_orPanic {value : Option Value} {key : OrderKey} (h : ResolvedItem.valueKey (orPanic value) = some key) :
    value.map .value = some key := by
  cases value with
  | none => cases h
  | some value => exact h

theorem map_of_valueKey {α : Type} {part : Option α} {f : α → Value} {key : OrderKey}
    (h : ResolvedItem.valueKey (orPanic (part.map f)) = some key) : part.map (fun a => .value (f a)) = some key := by
  have h := key_of_orPanic h
  rwa [Option.map_map] at h

theorem compare_part {α : Type} {part part' : Option α} {key : α → OrderKey} {cmp : α → α → Ordering}
    (hcmp : ∀ a b, cmp a b = (key a).cmp (key b)) {left right : OrderKey} (h : part.map key = some left)
    (h' : part'.map key = some right) :
    (part.bind fun a => part'.bind fun b => some (cmp a b)) = some (left.cmp right) := by
  obtain ⟨a, rfl, rfl⟩ := Option.map_eq_some_iff.1 h
  obtain ⟨b, rfl, rfl⟩ := Option.map_eq_some_iff.1 h'
  exact congrArg some (hcmp a b)

theorem compare_units (a b : Bool) :
    compare a b = (if a then F64.one else F64.zero).floatCmp (if b then F64.one else F64.zero) := by
  rw [F64.floatCmp_eq]
  cases a <;> cases b <;> rfl

theorem compare_sub (a b c : Int) : compare (a - c) (b - c) = compare a b :=
  compare_strictMono (fun _ _ h => Int.sub_lt_sub_right h c) a b

section
variable {value value' : Value} {key key' : OrderKey}

/-- A column has values of one type. -/
def SameVariant (value value' : Value) : Prop :=
  value.variantIndex = value'.variantIndex ∨ value = .null .int64 ∨ value' = .null .int64

theorem sameVariant_valueAt {row' : Nat} (h : t.valueAt source row = some value)
    (h' : t.valueAt source row' = some value') : SameVariant value value' := by
  rw [Table.valueAt] at h h'
  cases hcolumn : t.columns[source]? with
  | none =>
    rw [hcolumn] at h
    cases h
  | some column =>
    rw [hcolumn] at h h'
    simp only [Option.bind_some] at h h'
    cases column with
    | nullableInt64 values =>
      obtain ⟨cell, _, rfl⟩ := Option.map_eq_some_iff.1 h
      obtain ⟨cell', _, rfl⟩ := Option.map_eq_some_iff.1 h'
      cases cell with
      | none => exact .inr (.inl rfl)
      | some n =>
        cases cell' with
        | none => exact .inr (.inr rfl)
        | some n' => exact .inl rfl
    | _ =>
      obtain ⟨cell, _, rfl⟩ := Option.map_eq_some_iff.1 h
      obtain ⟨cell', _, rfl⟩ := Option.map_eq_some_iff.1 h'
      exact .inl rfl

theorem stringified_cmp {text text' : Value} (hsame : SameVariant value value') (h : stringified float value = some text)
    (h' : stringified float value' = some text') {row' : Nat} (hvalue : t.valueAt source row = some value)
    (hvalue' : t.valueAt source row' = some value') :
    stringifiedCmp t float source row row' = some (text.cmp text') := by
  simp only [stringifiedCmp, hvalue, hvalue', Option.bind_eq_bind, Option.bind_some]
  cases value with
  | null dataType =>
    obtain rfl := Option.some.inj h
    cases value' with
    | null dataType' => obtain rfl := Option.some.inj h'; rfl
    | bool b => obtain rfl := Option.some.inj h'; rfl
    | string s => obtain rfl := Option.some.inj h'; rfl
    | int64 n => obtain ⟨_, _, rfl⟩ := Option.map_eq_some_iff.1 h'; rfl
    | float64 x => obtain ⟨_, _, rfl⟩ := Option.map_eq_some_iff.1 h'; rfl
  | int64 n =>
    obtain ⟨written, hn, rfl⟩ := Option.map_eq_some_iff.1 h
    cases value' with
    | null dataType' => obtain rfl := Option.some.inj h'; rfl
    | int64 n' =>
      obtain ⟨written', hn', rfl⟩ := Option.map_eq_some_iff.1 h'
      rw [renderInt64_eq] at hn hn'
      obtain rfl := Option.some.inj hn
      obtain rfl := Option.some.inj hn'
      exact int64Cmp_eq n n'
    | _ => rcases hsame with h | h | h <;> cases h
  | float64 x =>
    obtain ⟨written, hx, rfl⟩ := Option.map_eq_some_iff.1 h
    cases value' with
    | null dataType' => obtain rfl := Option.some.inj h'; rfl
    | float64 x' =>
      obtain ⟨written', hx', rfl⟩ := Option.map_eq_some_iff.1 h'
      simp only [float64Cmp, hx, hx', Option.bind_eq_bind, Option.bind_some]
      rfl
    | _ => rcases hsame with h | h | h <;> cases h
  | bool b =>
    obtain rfl := Option.some.inj h
    cases value' with
    | null dataType' => obtain rfl := Option.some.inj h'; rfl
    | bool b' => obtain rfl := Option.some.inj h'; rfl
    | _ => rcases hsame with h | h | h <;> cases h
  | string s =>
    obtain rfl := Option.some.inj h
    cases value' with
    | null dataType' => obtain rfl := Option.some.inj h'; rfl
    | string s' => obtain rfl := Option.some.inj h'; rfl
    | _ => rcases hsame with h | h | h <;> cases h

theorem cmp_of_integerKeys {number : Int → Int} (hnumber : ∀ a b : Int64, compare (number a.toInt) (number b.toInt) =
    compare a.toInt b.toInt) (h : ResolvedItem.integerKey number value = some key)
    (h' : ResolvedItem.integerKey number value' = some key') : value.cmp value' = key.cmp key' := by
  cases value with
  | int64 n =>
    obtain rfl := Option.some.inj h
    cases value' with
    | int64 n' =>
      obtain rfl := Option.some.inj h'
      exact (hnumber n n').symm
    | null dataType => cases dataType <;> cases h'; rfl
    | _ => cases h'
  | null dataType =>
    cases dataType with
    | int64 =>
      obtain rfl := Option.some.inj h
      cases value' with
      | int64 n' => obtain rfl := Option.some.inj h'; rfl
      | null dataType' => cases dataType' <;> cases h'; rfl
      | _ => cases h'
    | _ => cases h
  | _ => cases h

theorem absCmp_keys (h : ResolvedItem.integerKey (fun number => number.natAbs) value = some key)
    (h' : ResolvedItem.integerKey (fun number => number.natAbs) value' = some key') :
    absCmp value value' = some (key.cmp key') := by
  cases value with
  | int64 n =>
    obtain rfl := Option.some.inj h
    cases value' with
    | int64 n' =>
      obtain rfl := Option.some.inj h'
      exact congrArg some (Decimal.compare_natCast _ _).symm
    | null dataType => cases dataType <;> cases h'; rfl
    | _ => cases h'
  | null dataType =>
    cases dataType with
    | int64 =>
      obtain rfl := Option.some.inj h
      cases value' with
      | int64 n' => obtain rfl := Option.some.inj h'; rfl
      | null dataType' => cases dataType' <;> cases h'; rfl
      | _ => cases h'
    | _ => cases h
  | _ => cases h

end

def rowOrderKey (float : FloatText) (t : Table) (item : ResolvedItem) (row : Nat) : Option OrderKey := do
  let source ← item.source
  let value ← t.valueAt source row
  item.orderKey float value

/-- **The comparisons of an item** are those of the keys of the rows. -/
theorem compare_keys {left right : Nat} {key key' : OrderKey} (h : rowOrderKey float t item left = some key)
    (h' : rowOrderKey float t item right = some key') : item.compare float t left right = some (key.cmp key') := by
  obtain ⟨source, hsource, h⟩ := Option.bind_eq_some_iff.1 h
  obtain ⟨value, hvalue, hkey⟩ := Option.bind_eq_some_iff.1 h
  obtain ⟨source', hsource', h'⟩ := Option.bind_eq_some_iff.1 h'
  obtain rfl := Option.some.inj (hsource.symm.trans hsource')
  obtain ⟨value', hvalue', hkey'⟩ := Option.bind_eq_some_iff.1 h'
  clear h h' hsource'
  have hbool : boolAt t source left = value.asBool := by rw [boolAt_eq, hvalue]; rfl
  have hbool' : boolAt t source right = value'.asBool := by rw [boolAt_eq, hvalue']; rfl
  have hfloat : float64At t source left = value.asFloat64 := by rw [float64At_eq, hvalue]; rfl
  have hfloat' : float64At t source right = value'.asFloat64 := by rw [float64At_eq, hvalue']; rfl
  have hstring : stringAt t source left = value.asString := by rw [stringAt_eq, hvalue]; rfl
  have hstring' : stringAt t source right = value'.asString := by rw [stringAt_eq, hvalue']; rfl
  cases item with
  | rowNumber => cases hsource
  | aggregate state => cases hsource
  | column _ _ | castNullableInt64ToInt64 _ _ =>
    obtain rfl := Option.some.inj hsource
    obtain rfl := Option.some.inj hkey
    obtain rfl := Option.some.inj hkey'
    simp only [ResolvedItem.compare, cmpAt, hvalue, hvalue']
    rfl
  | int64Subtract _ literal =>
    obtain rfl := Option.some.inj hsource
    have hkey : ResolvedItem.integerKey (· - literal.toInt) value = some key := hkey
    simp only [ResolvedItem.compare, cmpAt, hvalue, hvalue']
    have hcmp : value.cmp value' = key.cmp key' := by
      refine cmp_of_integerKeys ?_ hkey hkey'
      intro a b
      exact compare_sub _ _ _
    exact congrArg some hcmp
  | int64Abs _ =>
    obtain rfl := Option.some.inj hsource
    simp only [ResolvedItem.compare, hvalue, hvalue']
    exact absCmp_keys hkey hkey'
  | isNull _ _ | isNotNull _ _ =>
    obtain rfl := Option.some.inj hsource
    obtain rfl := Option.some.inj hkey
    obtain rfl := Option.some.inj hkey'
    simp only [ResolvedItem.compare, isNullAt, hvalue, hvalue']
    rfl
  | ifNullInt64 _ fallback _ =>
    obtain rfl := Option.some.inj hsource
    simp only [ResolvedItem.compare, ifNullInt64At, hvalue, hvalue']
    refine compare_part ?_ (map_of_valueKey hkey) (map_of_valueKey hkey')
    intro _ _
    rfl
  | castInt64ToFloat64 _ | castInt64ToBool _ =>
    obtain rfl := Option.some.inj hsource
    simp only [ResolvedItem.compare, int64ToFloat64At_eq, int64ToBoolAt_eq, hvalue, hvalue']
    refine compare_part ?_ (key_of_orPanic hkey) (key_of_orPanic hkey')
    intro _ _
    rfl
  | castBoolToFloat64 _ =>
    obtain rfl := Option.some.inj hsource
    simp only [ResolvedItem.compare, hbool, hbool']
    refine compare_part ?_ (map_of_valueKey hkey) (map_of_valueKey hkey')
    intro b b'
    exact compare_units b b'
  | castBoolToInt64 _ =>
    obtain rfl := Option.some.inj hsource
    simp only [ResolvedItem.compare, hbool, hbool']
    refine compare_part ?_ (map_of_valueKey hkey) (map_of_valueKey hkey')
    decide
  | castInt64ToString _ | castFloat64ToString _ | castBoolToString _ | toString _ _ =>
    obtain rfl := Option.some.inj hsource
    obtain ⟨text, htext, rfl⟩ := Option.map_eq_some_iff.1 (key_of_orPanic hkey)
    obtain ⟨text', htext', rfl⟩ := Option.map_eq_some_iff.1 (key_of_orPanic hkey')
    exact stringified_cmp (sameVariant_valueAt hvalue hvalue') htext htext' hvalue hvalue'
  | castStringToInt64 _ =>
    obtain rfl := Option.some.inj hsource
    obtain ⟨text, htext, hkey⟩ := Option.bind_eq_some_iff.1 hkey
    obtain ⟨decimal, hdecimal, hkey⟩ := Option.bind_eq_some_iff.1 hkey
    obtain ⟨text', htext', hkey'⟩ := Option.bind_eq_some_iff.1 hkey'
    obtain ⟨decimal', hdecimal', hkey'⟩ := Option.bind_eq_some_iff.1 hkey'
    obtain rfl := Option.some.inj hkey
    obtain rfl := Option.some.inj hkey'
    simp only [ResolvedItem.compare, hstring, hstring', htext, htext']
    exact decimalTextCmp_number hdecimal hdecimal'
  | castStringToFloat64 _ =>
    obtain rfl := Option.some.inj hsource
    obtain ⟨text, htext, hkey⟩ := Option.bind_eq_some_iff.1 hkey
    obtain ⟨text', htext', hkey'⟩ := Option.bind_eq_some_iff.1 hkey'
    obtain ⟨_, hkey⟩ := Option.ite_none_right_eq_some.1 hkey
    obtain ⟨_, hkey'⟩ := Option.ite_none_right_eq_some.1 hkey'
    obtain rfl := Option.some.inj hkey
    obtain rfl := Option.some.inj hkey'
    simp only [ResolvedItem.compare, hstring, hstring', htext, htext']
    rfl
  | castStringToBool _ =>
    obtain rfl := Option.some.inj hsource
    obtain ⟨_, hok, rfl⟩ := valueKey_eq_some hkey
    obtain ⟨_, hok', rfl⟩ := valueKey_eq_some hkey'
    obtain ⟨text, htext, hok⟩ := Exec.bind_eq_ok.1 hok
    obtain ⟨b, hb, hok⟩ := Exec.bind_eq_ok.1 hok
    obtain ⟨text', htext', hok'⟩ := Exec.bind_eq_ok.1 hok'
    obtain ⟨b', hb', hok'⟩ := Exec.bind_eq_ok.1 hok'
    obtain rfl := Exec.ok.inj hok
    obtain rfl := Exec.ok.inj hok'
    rw [orPanic_eq_ok] at htext htext'
    rw [checkedStringToBool, getOr_eq_ok] at hb hb'
    simp only [ResolvedItem.compare, hstring, hstring', htext, htext', Option.bind_eq_bind, Option.bind_some, hb, hb']
    rfl
  | castFloat64ToInt64 _ =>
    obtain rfl := Option.some.inj hsource
    simp only [ResolvedItem.compare, hfloat, hfloat']
    refine compare_part ?_ hkey hkey'
    intro _ _
    rfl
  | castFloat64ToBool _ | float64Abs _ | float64Round _ | float64Floor _ | float64Ceil _ =>
    obtain rfl := Option.some.inj hsource
    simp only [ResolvedItem.compare, hfloat, hfloat']
    refine compare_part ?_ (map_of_valueKey hkey) (map_of_valueKey hkey')
    intro _ _
    rfl
  | stringLength _ | stringLengthUtf8 _ =>
    obtain rfl := Option.some.inj hsource
    simp only [ResolvedItem.compare, hstring, hstring']
    refine compare_part ?_ hkey hkey'
    intro text text'
    exact (Decimal.compare_natCast _ _).symm
  | stringEmpty _ =>
    obtain rfl := Option.some.inj hsource
    simp only [ResolvedItem.compare, hstring, hstring']
    refine compare_part ?_ (map_of_valueKey hkey) (map_of_valueKey hkey')
    intro text text'
    by_cases hempty : text = "" <;> by_cases hempty' : text' = "" <;> simp only [hempty, hempty'] <;> decide
  | stringLower _ | stringUpper _ =>
    obtain rfl := Option.some.inj hsource
    simp only [ResolvedItem.compare, hstring, hstring']
    refine compare_part ?_ (map_of_valueKey hkey) (map_of_valueKey hkey')
    intro _ _
    rfl

/-! ## Keys of values -/

section
variable {value result : Value}

end

/-- A text of a floating-point number fits its buffer. -/
def FloatText.Bounded (float : FloatText) : Prop := ∀ x, stringLen (float.toText x) ≤ maxFloat64TextBytes

/-- The only NULLs of a table are integers. -/
def Value.IsCell (value : Value) : Prop := ∀ dataType, value = .null dataType → dataType = .int64

def ResolvedItem.takes : ResolvedItem → DataType → Bool
  | column _ _, _ | isNull _ _, _ | isNotNull _ _, _ => true
  | toString _ inputType, dataType => dataType = inputType
  | int64Subtract _ _, dataType | ifNullInt64 _ _ _, dataType | castNullableInt64ToInt64 _ _, dataType
  | castInt64ToFloat64 _, dataType | castInt64ToBool _, dataType | castInt64ToString _, dataType
  | int64Abs _, dataType => dataType = .int64
  | castBoolToFloat64 _, dataType | castBoolToInt64 _, dataType | castBoolToString _, dataType => dataType = .bool
  | castFloat64ToInt64 _, dataType | castFloat64ToBool _, dataType | castFloat64ToString _, dataType
  | float64Abs _, dataType | float64Round _, dataType | float64Floor _, dataType
  | float64Ceil _, dataType => dataType = .float64
  | castStringToFloat64 _, dataType | castStringToInt64 _, dataType | castStringToBool _, dataType
  | stringLength _, dataType | stringLengthUtf8 _, dataType | stringEmpty _, dataType | stringLower _, dataType
  | stringUpper _, dataType => dataType = .string
  | rowNumber, _ | aggregate _, _ => false

section
variable {value : Value}

theorem cell_int64 (hcell : value.IsCell) (h : value.dataType = .int64) :
    value = .null .int64 ∨ ∃ n, value = .int64 n := by
  cases value with
  | null dataType =>
    obtain rfl := hcell dataType rfl
    exact .inl rfl
  | int64 n => exact .inr ⟨n, rfl⟩
  | _ => cases h

theorem cell_bool (hcell : value.IsCell) (h : value.dataType = .bool) : ∃ b, value = .bool b := by
  cases value with
  | null dataType =>
    obtain rfl := hcell dataType rfl
    cases h
  | bool b => exact ⟨b, rfl⟩
  | _ => cases h

theorem cell_float64 (hcell : value.IsCell) (h : value.dataType = .float64) : ∃ x, value = .float64 x := by
  cases value with
  | null dataType =>
    obtain rfl := hcell dataType rfl
    cases h
  | float64 x => exact ⟨x, rfl⟩
  | _ => cases h

theorem cell_string (hcell : value.IsCell) (h : value.dataType = .string) : ∃ text, value = .string text := by
  cases value with
  | null dataType =>
    obtain rfl := hcell dataType rfl
    cases h
  | string text => exact ⟨text, rfl⟩
  | _ => cases h

theorem stringified_isSome (hfloat : float.Bounded) (value : Value) : ∃ text, stringified float value = some text := by
  cases value with
  | int64 n => exact ⟨_, Option.map_eq_some_iff.2 ⟨_, renderInt64_eq n, rfl⟩⟩
  | float64 x => exact ⟨_, Option.map_eq_some_iff.2 ⟨_, if_pos (hfloat x), rfl⟩⟩
  | _ => exact ⟨_, rfl⟩

/-- **Every row has a key** that is checked to have one where it is ordered by a text. -/
theorem validateOrderingText_iff (hfloat : float.Bounded) (hsource : item.source = some source)
    (hvalue : t.valueAt source row = some value) (htakes : item.takes value.dataType) (hcell : value.IsCell) :
    validateOrderingText t row item ≠ .panic ∧
      (validateOrderingText t row item = .ok () ↔ ∃ key, item.orderKey float value = some key) := by
  have hstring : stringAt t source row = value.asString := by rw [stringAt_eq, hvalue]; rfl
  have hkey {key : OrderKey} (h : item.orderKey float value = some key) (hok : validateOrderingText t row item = .ok ()) :
      validateOrderingText t row item ≠ .panic ∧
        (validateOrderingText t row item = .ok () ↔ ∃ key, item.orderKey float value = some key) := by
    rw [hok]
    exact ⟨ok_ne_panic _, fun _ => ⟨key, h⟩, fun _ => rfl⟩
  cases item with
  | rowNumber => cases hsource
  | aggregate state => cases hsource
  | column _ _ | castNullableInt64ToInt64 _ _ | isNull _ _ | isNotNull _ _ => exact hkey rfl rfl
  | castInt64ToString _ | castFloat64ToString _ | castBoolToString _ | toString _ _ =>
    obtain ⟨text, htext⟩ := stringified_isSome hfloat value
    exact hkey (congrArg (fun text => ResolvedItem.valueKey (orPanic text)) htext) rfl
  | int64Subtract _ _ | ifNullInt64 _ _ _ | castInt64ToFloat64 _ | castInt64ToBool _ | int64Abs _ =>
    obtain rfl | ⟨n, rfl⟩ := cell_int64 hcell (of_decide_eq_true htakes)
    · exact hkey rfl rfl
    · exact hkey rfl rfl
  | castBoolToFloat64 _ | castBoolToInt64 _ =>
    obtain ⟨b, rfl⟩ := cell_bool hcell (of_decide_eq_true htakes)
    exact hkey rfl rfl
  | castFloat64ToInt64 _ | castFloat64ToBool _ | float64Abs _ | float64Round _ | float64Floor _ | float64Ceil _ =>
    obtain ⟨x, rfl⟩ := cell_float64 hcell (of_decide_eq_true htakes)
    exact hkey rfl rfl
  | stringLength _ | stringLengthUtf8 _ | stringEmpty _ | stringLower _ | stringUpper _ =>
    obtain ⟨text, rfl⟩ := cell_string hcell (of_decide_eq_true htakes)
    exact hkey rfl rfl
  | castStringToInt64 column =>
    obtain ⟨text, rfl⟩ := cell_string hcell (of_decide_eq_true htakes)
    obtain rfl := Option.some.inj hsource
    have hvalidate : validateOrderingText t row (.castStringToInt64 column) = validateStringToInt64Syntax text := by
      rw [validateOrderingText, hstring]
      rfl
    rw [hvalidate, validateStringToInt64Syntax]
    refine ⟨getOr_ne_panic _ _, ?_⟩
    show _ ↔ ∃ key, ((decimalText text).bind fun decimal => some (OrderKey.number decimal.number)) = some key
    cases decimalText text with
    | none =>
      constructor
      · intro h
        cases h
      · intro h
        obtain ⟨_, h⟩ := h
        cases h
    | some decimal => exact ⟨fun _ => ⟨_, rfl⟩, fun _ => rfl⟩
  | castStringToFloat64 column =>
    obtain ⟨text, rfl⟩ := cell_string hcell (of_decide_eq_true htakes)
    obtain rfl := Option.some.inj hsource
    have hvalidate : validateOrderingText t row (.castStringToFloat64 column) = validateStringToFloat64Syntax text := by
      rw [validateOrderingText, hstring]
      rfl
    rw [hvalidate, validateStringToFloat64Syntax]
    refine ⟨rejectIf_ne_panic _ _, ?_⟩
    rw [rejectIf_eq_ok, not_not]
    show _ ↔ ∃ key, (if ScalarCast.float64Text text then some _ else none) = some key
    by_cases hgrammar : ScalarCast.float64Text text = true
    · rw [if_pos hgrammar]
      exact ⟨fun _ => ⟨_, rfl⟩, fun _ => hgrammar⟩
    · rw [if_neg hgrammar]
      constructor
      · intro h
        exact absurd h hgrammar
      · intro h
        obtain ⟨_, h⟩ := h
        cases h
  | castStringToBool column =>
    obtain ⟨text, rfl⟩ := cell_string hcell (of_decide_eq_true htakes)
    obtain rfl := Option.some.inj hsource
    have hvalidate : validateOrderingText t row (.castStringToBool column) =
        checkedStringToBool text >>= fun _ => .ok () := by
      rw [validateOrderingText, hstring]
      rfl
    have happly : (ResolvedItem.castStringToBool column).orderKey float (.string text) =
        ResolvedItem.valueKey (checkedStringToBool text >>= fun value => .ok (.bool value)) := rfl
    rw [hvalidate, happly, checkedStringToBool]
    cases boolText text with
    | none =>
      refine ⟨error_ne_panic _, ?_, ?_⟩
      · intro h
        cases h
      · intro h
        obtain ⟨_, h⟩ := h
        cases h
    | some b => exact ⟨ok_ne_panic _, fun _ => ⟨_, rfl⟩, fun _ => rfl⟩

end

end

end RustHouse.Batch
