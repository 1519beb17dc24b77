import RustHouse.PruningSound
import RustHouse.SelectItemsSound

/-!
# Orderings sort

Whatever an ordering compares and caches, and wherever it cuts the rows before they
are sorted, its result is the first of the rows in the stable order of their keys.
-/

namespace RustHouse.Batch

open Checked Exec Words
open OrderedReduction (collect collect_forEach)
open Std (OrientedCmp TransCmp)
open UnstableSort (Orders Strict lexicographic stableSort withTies)

/-! ## The order of rows -/

def firstOf {α : Type} (limit : Option Nat) (l : List α) : List α := limit.elim l l.take

section
variable (float : FloatText) (t : Table) (items : List ResolvedItem)

def outputKey (output row : Nat) : Option OrderKey := do
  let item ← items[output]?
  rowOrderKey float t item row

/-- Two rows by one key; a row without one would come first. -/
def orderCmp (order : ResolvedOrder) (left right : Nat) : Ordering :=
  descendingIf order.descending
    (((outputKey float t items order.output left).getD .null).cmp ((outputKey float t items order.output right).getD .null))

/-- **The order of rows**: by their keys, one after the other. -/
def rowOrder (ordering : List ResolvedOrder) : Nat → Nat → Ordering :=
  lexicographic (ordering.map (orderCmp float t items))

/-- Every row has a key in every output that it is ordered by. -/
def HasKeys (ordering : List ResolvedOrder) (rows : List Nat) : Prop :=
  ∀ order ∈ ordering, ∀ row ∈ rows, ∃ key, outputKey float t items order.output row = some key

end

section
variable {float : FloatText} {t : Table} {items : List ResolvedItem} {ordering : List ResolvedOrder} {rows : List Nat}

theorem transCmp_descendingIf {α : Type} (cmp : α → α → Ordering) [TransCmp cmp] (descending : Bool) :
    TransCmp fun a b => descendingIf descending (cmp a b) := by
  cases descending with
  | false => exact inferInstanceAs (TransCmp cmp)
  | true => exact UnstableSort.transCmp_swap cmp

instance (order : ResolvedOrder) : TransCmp (orderCmp float t items order) := by
  have := UnstableSort.transCmp_on (fun row => (outputKey float t items order.output row).getD .null) OrderKey.cmp
  exact transCmp_descendingIf _ _

instance : TransCmp (rowOrder float t items ordering) := by
  apply UnstableSort.transCmp_lexicographic
  intro cmp hcmp
  obtain ⟨order, _, rfl⟩ := List.mem_map.1 hcmp
  infer_instance

theorem then_descendingIf {descending : Bool} {comparison rest : Ordering} :
    (descendingIf descending comparison).then rest =
      if comparison ≠ .eq then descendingIf descending comparison else rest := by
  cases descending <;> cases comparison <;> rfl

theorem compareOutputs_eq {compareItem : ResolvedItem → Option Ordering} {last : Ordering} {cmp : ResolvedOrder → Ordering}
    (h : ∀ order ∈ ordering, ∃ item, items[order.output]? = some item ∧ compareItem item = some (cmp order)) :
    compareOutputs compareItem (some last) items ordering =
      some (ordering.foldr (fun order rest => (descendingIf order.descending (cmp order)).then rest) last) := by
  induction ordering with
  | nil => rfl
  | cons order ordering ih =>
    obtain ⟨⟨item, hitem, hcmp⟩, hrest⟩ := List.forall_mem_cons.1 h
    simp only [compareOutputs, hitem, hcmp, Option.bind_eq_bind, Option.bind_some, ih hrest, List.foldr_cons,
      then_descendingIf]
    split <;> rfl

/-- **Rows with keys are compared by their keys**, and else by their positions. -/
theorem compareRows_eq (h : HasKeys float t items ordering rows) {left right : Nat} (hleft : left ∈ rows)
    (hright : right ∈ rows) :
    compareRows float t items ordering left right = some (withTies (rowOrder float t items ordering) left right) := by
  have hitems : ∀ order ∈ ordering, ∃ item, items[order.output]? = some item ∧
      item.compare float t left right = some (((outputKey float t items order.output left).getD .null).cmp
        ((outputKey float t items order.output right).getD .null)) := by
    intro order horder
    obtain ⟨key, hkey⟩ := h order horder left hleft
    obtain ⟨key', hkey'⟩ := h order horder right hright
    rw [hkey, hkey']
    obtain ⟨item, hitem, hkey⟩ := Option.bind_eq_some_iff.1 hkey
    obtain ⟨item', hitem', hkey'⟩ := Option.bind_eq_some_iff.1 hkey'
    obtain rfl := Option.some.inj (hitem.symm.trans hitem')
    exact ⟨item, hitem, compare_keys hkey hkey'⟩
  rw [compareRows, compareOutputs_eq hitems, withTies, rowOrder, UnstableSort.withTies_lexicographic, List.foldr_map]
  rfl

/-! ## Bounded sorting -/

section
variable {α : Type} {compare : α → α → Option Ordering} {order : α → α → Ordering} {values : List α}

theorem allComparable_of (h : ∀ a ∈ values, ∀ b ∈ values, compare a b = some (order a b)) :
    allComparable compare values = true := by
  induction values with
  | nil => rfl
  | cons a values ih =>
    rw [allComparable, Bool.and_eq_true, List.all_eq_true]
    constructor
    · intro b hb
      rw [h a List.mem_cons_self b (List.mem_cons_of_mem _ hb), h b (List.mem_cons_of_mem _ hb) a List.mem_cons_self]
      rfl
    · apply ih
      intro b hb c hc
      exact h b (List.mem_cons_of_mem _ hb) c (List.mem_cons_of_mem _ hc)

/-- **A bounded sort** is the whole sort, cut. -/
theorem sortAndLimitBy_eq (sorts : UnstableSort) (horders : Orders order values) (hstrict : Strict order values)
    (h : ∀ a ∈ values, ∀ b ∈ values, compare a b = some (order a b)) (limit : Option Nat) :
    sortAndLimitBy sorts values limit compare = some (firstOf limit (sorts.sort order values)) := by
  have hagree : ∀ a ∈ values, ∀ b ∈ values, (compare a b).getD .eq = order a b := by
    intro a ha b hb
    rw [h a ha b hb]
    rfl
  rw [sortAndLimitBy]
  split
  · rename_i hzero
    rw [hzero]
    rfl
  · rw [if_neg (not_not.2 (allComparable_of h))]
    dsimp only
    have hwhole := sorts.sort_congr horders hstrict hagree
    have horders' : Orders (fun a b => (compare a b).getD .eq) values := horders.congr hagree
    have hstrict' : Strict (fun a b => (compare a b).getD .eq) values := hstrict.congr hagree
    cases limit with
    | none =>
      rw [← hwhole]
      rfl
    | some n =>
      by_cases hn : n < values.length
      · have hcut : (some n).filter (· < values.length) = some n := by simp [hn]
        rw [hcut]
        exact congrArg some ((sorts.sort_take_selectNth horders' hstrict' hn).trans (congrArg (List.take n) hwhole))
      · have hwide : (some n).filter (· < values.length) = none := by simp [Nat.le_of_not_lt hn]
        rw [hwide, hwhole]
        show some _ = some (List.take n _)
        rw [List.take_of_length_le]
        rw [(sorts.sort_perm horders).length_eq]
        exact Nat.le_of_not_lt hn

end

/-! ## Rows in order -/

variable (sorts : UnstableSort) (limit : Option Nat)

theorem sortAndLimitBy_rows (hkeys : HasKeys float t items ordering rows) (hsorted : rows.Pairwise (· < ·)) :
    sortAndLimitBy sorts rows limit (compareRows float t items ordering) =
      some (firstOf limit (stableSort (rowOrder float t items ordering) rows)) := by
  rw [← UnstableSort.sort_withTies sorts hsorted]
  apply sortAndLimitBy_eq sorts (UnstableSort.orders_of_transCmp rows) (UnstableSort.strict_withTies rows)
  intro left hleft right hright
  exact compareRows_eq hkeys hleft hright

theorem firstOf_map {α β : Type} (f : α → β) (limit : Option Nat) (l : List α) :
    firstOf limit (l.map f) = (firstOf limit l).map f := by
  cases limit with
  | none => rfl
  | some n => exact List.map_take.symm

theorem sortAndLimitBy_cached {κ : Type} (key : Nat → κ) (cmpKey : κ → κ → Ordering) {cmp : Nat → Nat → Ordering}
    [TransCmp cmp] (hkey : ∀ a b, cmpKey (key a) (key b) = cmp a b) (hsorted : rows.Pairwise (· < ·)) :
    sortAndLimitBy sorts (rows.map fun row => (row, key row)) limit
        (fun left right => some ((cmpKey left.2 right.2).then (Ord.compare left.1 right.1))) =
      some ((firstOf limit (stableSort cmp rows)).map fun row => (row, key row)) := by
  obtain ⟨horders, hstrict, hsort⟩ := UnstableSort.sort_cached sorts key hkey hsorted
  rw [← firstOf_map, ← hsort]
  apply sortAndLimitBy_eq sorts horders hstrict
  intro _ _ _ _
  rfl

theorem stableSort_single {order : ResolvedOrder} {key : Nat → OrderKey}
    (hkey : ∀ row ∈ rows, outputKey float t items order.output row = some (key row)) (hsorted : rows.Pairwise (· < ·)) :
    stableSort (fun a b => descendingIf order.descending ((key a).cmp (key b))) rows =
      stableSort (rowOrder float t items [order]) rows := by
  have := UnstableSort.transCmp_on key OrderKey.cmp
  have := transCmp_descendingIf (fun a b => (key a).cmp (key b)) order.descending
  apply UnstableSort.stableSort_congr hsorted
  intro a ha b hb
  show _ = (orderCmp float t items order a b).then .eq
  rw [Ordering.then_eq, orderCmp, hkey a ha, hkey b hb]
  rfl

/-- **An ordering by one key that is kept** is the ordering by this key. -/
theorem sort_cached_keys {κ : Type} {order : ResolvedOrder} {key : Nat → κ} (toKey : κ → OrderKey)
    {cmpKey : κ → κ → Ordering} (hcmp : ∀ a b, cmpKey a b = (toKey a).cmp (toKey b))
    (hkey : ∀ row ∈ rows, outputKey float t items order.output row = some (toKey (key row)))
    (hsorted : rows.Pairwise (· < ·)) :
    (do
      let cached ← orPanic (sortAndLimitBy sorts (rows.map fun row => (row, key row)) limit fun left right =>
        some ((descendingIf order.descending (cmpKey left.2 right.2)).then (Ord.compare left.1 right.1)))
      Exec.ok (cached.map (·.1)) : Exec Error (List Nat)) =
      .ok (firstOf limit (stableSort (rowOrder float t items [order]) rows)) := by
  have := UnstableSort.transCmp_on (fun row => toKey (key row)) OrderKey.cmp
  have := transCmp_descendingIf (fun a b => (toKey (key a)).cmp (toKey (key b))) order.descending
  have hkeys : ∀ a b, descendingIf order.descending (cmpKey (key a) (key b)) =
      descendingIf order.descending ((toKey (key a)).cmp (toKey (key b))) := by
    intro a b
    rw [hcmp]
  have hsort := sortAndLimitBy_cached sorts limit key (fun a b => descendingIf order.descending (cmpKey a b)) hkeys hsorted
  rw [hsort, orPanic_some, Exec.ok_bind, List.map_map, stableSort_single hkey hsorted]
  exact congrArg Exec.ok (List.map_id _)

/-! ## Cells -/

/-- Every output that rows are ordered by is an item that fits. -/
def Sorts (t : Table) (items : List ResolvedItem) (ordering : List ResolvedOrder) : Prop :=
  ∀ order ∈ ordering, ∃ item, items[order.output]? = some item ∧ item.Fits t

section
variable {declared : List Declared} (hc : Table.Consistent declared t)
include hc

theorem column_len {i : Nat} {column : Column} (h : t.columns[i]? = some column) : column.len = t.rowCount := by
  have hlt : i < declared.length := by
    rw [hc.declared_length, ← hc.columns_length]
    exact (List.getElem?_eq_some_iff.1 h).1
  obtain ⟨column', hcolumn, _, hlen⟩ := hc.column_of_declared (List.getElem?_eq_getElem hlt)
  obtain rfl := Option.some.inj (h.symm.trans hcolumn)
  exact hlen

theorem valueAt_of_column {i row : Nat} {column : Column} (h : t.columns[i]? = some column) (hrow : row < t.rowCount) :
    ∃ value, t.valueAt i row = some value ∧ value.dataType = column.dataType ∧ value.IsCell := by
  obtain ⟨value, hvalue⟩ := column_value column (column_len hc h ▸ hrow)
  refine ⟨value, ?_, column_value_dataType hvalue, ?_⟩
  · rw [Table.valueAt, h]
    exact hvalue
  · intro dataType hnull
    subst hnull
    cases column with
    | nullableInt64 values =>
      obtain ⟨cell, _, hcell⟩ := Option.map_eq_some_iff.1 hvalue
      cases cell <;> cases hcell
      rfl
    | _ =>
      obtain ⟨cell, _, hcell⟩ := Option.map_eq_some_iff.1 hvalue
      cases hcell

variable {item : ResolvedItem}

theorem ResolvedItem.Fits.cell (h : item.Fits t) {row : Nat} (hrow : row < t.rowCount) :
    ∃ source value, item.source = some source ∧ t.valueAt source row = some value ∧ item.takes value.dataType ∧
      value.IsCell := by
  obtain ⟨source, column, hreads⟩ := h
  obtain ⟨value, hvalue, htype, hcell⟩ := valueAt_of_column hc hreads.column_eq hrow
  exact ⟨source, value, hreads.source_eq, hvalue, htype ▸ hreads.takes, hcell⟩

variable (hfloat : float.Bounded)
include hfloat

theorem validateOrderingText_rows (h : item.Fits t) {row : Nat} (hrow : row < t.rowCount) :
    validateOrderingText t row item ≠ .panic ∧
      (validateOrderingText t row item = .ok () ↔ ∃ key, rowOrderKey float t item row = some key) := by
  obtain ⟨source, value, hsource, hvalue, htakes, hcell⟩ := h.cell hc hrow
  have hkey : rowOrderKey float t item row = item.orderKey float value := by
    rw [rowOrderKey, hsource, Option.bind_eq_bind, Option.bind_some, hvalue, Option.bind_eq_bind, Option.bind_some]
  rw [hkey]
  exact validateOrderingText_iff hfloat hsource hvalue htakes hcell

theorem validateOrderingTexts_iff (hsorts : Sorts t items ordering) (hrows : ∀ row ∈ rows, row < t.rowCount) :
    validateOrderingTexts t rows items ordering ≠ .panic ∧
      (validateOrderingTexts t rows items ordering = .ok () ↔ HasKeys float t items ordering rows) := by
  constructor
  · apply forEach_ne_panic
    intro order horder
    obtain ⟨item, hitem, hfits⟩ := hsorts order horder
    rw [hitem]
    apply forEach_ne_panic
    intro row hrow
    exact (validateOrderingText_rows hc hfloat hfits (hrows row hrow)).1
  · rw [validateOrderingTexts, forEach_eq_ok]
    refine forall₂_congr fun order horder => ?_
    obtain ⟨item, hitem, hfits⟩ := hsorts order horder
    rw [hitem]
    show forEach (fun row => validateOrderingText t row item) rows = .ok () ↔ _
    rw [forEach_eq_ok]
    refine forall₂_congr fun row hrow => ?_
    rw [(validateOrderingText_rows hc hfloat hfits (hrows row hrow)).2, outputKey, hitem]
    rfl

/-! ## Orderings -/

omit hc hfloat in
theorem guarded_spec {charge check : Exec Error Unit} {valid : Prop} (sorted : List Nat) (hcharge : charge ≠ .panic)
    (hcheck : check ≠ .panic ∧ (check = .ok () ↔ valid)) :
    (charge >>= fun _ => if limit = some 0 then .ok [] else check >>= fun _ => .ok (firstOf limit sorted)) ≠ .panic ∧
      ∀ result, (charge >>= fun _ => if limit = some 0 then .ok [] else check >>= fun _ => .ok (firstOf limit sorted)) =
          .ok result ↔ charge = .ok () ∧ (limit ≠ some 0 → valid) ∧ result = firstOf limit sorted := by
  obtain ⟨hpanic, hvalid⟩ := hcheck
  by_cases hzero : limit = some 0
  · subst hzero
    refine ⟨bind_ne_panic hcharge fun _ _ => ok_ne_panic _, fun result => ?_⟩
    rw [if_pos rfl, Exec.bind_eq_ok]
    constructor
    · intro h
      obtain ⟨_, hok, hresult⟩ := h
      exact ⟨hok, fun hne => absurd rfl hne, (Exec.ok.inj hresult).symm⟩
    · intro h
      exact ⟨(), h.1, congrArg Exec.ok h.2.2.symm⟩
  · rw [if_neg hzero]
    refine ⟨bind_ne_panic hcharge fun _ _ => bind_ne_panic hpanic fun _ _ => ok_ne_panic _, fun result => ?_⟩
    rw [Exec.bind_eq_ok]
    constructor
    · intro h
      obtain ⟨_, hok, hresult⟩ := h
      obtain ⟨_, hchecked, hresult⟩ := Exec.bind_eq_ok.1 hresult
      exact ⟨hok, fun _ => hvalid.1 hchecked, (Exec.ok.inj hresult).symm⟩
    · intro h
      obtain ⟨hok, hchecked, hresult⟩ := h
      refine ⟨(), hok, Exec.bind_eq_ok.2 ⟨(), hvalid.2 (hchecked hzero), ?_⟩⟩
      rw [hresult]

theorem orderSourceRowsByItems_spec (hsorts : Sorts t items ordering) (hrows : ∀ row ∈ rows, row < t.rowCount)
    (hsorted : rows.Pairwise (· < ·)) :
    orderSourceRowsByItems float t sorts rows items ordering limit ≠ .panic ∧
      ∀ result, orderSourceRowsByItems float t sorts rows items ordering limit = .ok result ↔
        (limit ≠ some 0 → HasKeys float t items ordering rows) ∧
          result = firstOf limit (stableSort (rowOrder float t items ordering) rows) := by
  have hvalid := validateOrderingTexts_iff hc hfloat hsorts hrows
  have hguarded : orderSourceRowsByItems float t sorts rows items ordering limit = Exec.ok () >>= fun _ =>
      if limit = some 0 then .ok [] else validateOrderingTexts t rows items ordering >>= fun _ =>
        .ok (firstOf limit (stableSort (rowOrder float t items ordering) rows)) := by
    rw [orderSourceRowsByItems, Exec.ok_bind]
    cases hvalidate : validateOrderingTexts t rows items ordering with
    | panic => rfl
    | error e => rfl
    | ok u =>
      rw [Exec.ok_bind, sortAndLimitBy_rows sorts limit (hvalid.2.1 hvalidate) hsorted]
      rfl
  obtain ⟨hpanic, hok⟩ := guarded_spec limit (stableSort (rowOrder float t items ordering) rows) (ok_ne_panic ()) hvalid
  rw [hguarded]
  refine ⟨hpanic, fun result => (hok result).trans ?_⟩
  exact ⟨fun h => h.2, fun h => ⟨rfl, h⟩⟩

omit hc hfloat in
theorem enforceOrderingState_eq_ok {rowCount entryBytes maxBytes : Nat} :
    enforceOrderingState rowCount entryBytes maxBytes = .ok () ↔ saturatingMul rowCount entryBytes ≤ maxBytes := by
  rw [enforceOrderingState, enforceResourceLimit, rejectIf_eq_ok, not_lt]

omit hc hfloat in
theorem enforceOrderingState_ne_panic (rowCount entryBytes maxBytes : Nat) :
    enforceOrderingState rowCount entryBytes maxBytes ≠ .panic := rejectIf_ne_panic _ _

omit hc hfloat in
theorem mapM_of_forall {α β : Type} {f : α → Option β} {g : α → β} {as : List α} (h : ∀ a ∈ as, f a = some (g a)) :
    as.mapM f = some (as.map g) := by
  induction as with
  | nil => rfl
  | cons a as ih =>
    obtain ⟨ha, has⟩ := List.forall_mem_cons.1 h
    rw [List.mapM_cons, ha, ih has]
    rfl

omit hfloat in
theorem texts_of_fits (item : ResolvedItem) {source : Nat} (hsource : item.source = some source)
    (htakes : ∀ dataType, item.takes dataType → dataType = .string) (h : item.Fits t)
    (hrows : ∀ row ∈ rows, row < t.rowCount) :
    ∃ text : Nat → String, ∀ row ∈ rows, stringAt t source row = some (text row) ∧
      t.valueAt source row = some (.string (text row)) := by
  refine ⟨fun row => (stringAt t source row).getD "", fun row hrow => ?_⟩
  obtain ⟨source', value, hsource', hvalue, htype, hcell⟩ := h.cell hc (hrows row hrow)
  obtain rfl := Option.some.inj (hsource.symm.trans hsource')
  obtain ⟨text, rfl⟩ := cell_string hcell (htakes _ htype)
  have htext : stringAt t source row = some text := by
    rw [stringAt_eq, hvalue]
    rfl
  simp [htext, hvalue]

omit hfloat in
variable (float) in
theorem orderSourceRowsByLengthUtf8_eq {order : ResolvedOrder} {source : Nat} (maxBytes : Nat)
    (hitem : items[order.output]? = some (.stringLengthUtf8 source))
    (hfits : (ResolvedItem.stringLengthUtf8 source).Fits t) (hrows : ∀ row ∈ rows, row < t.rowCount)
    (hsorted : rows.Pairwise (· < ·)) :
    HasKeys float t items [order] rows ∧
      orderSourceRowsByLengthUtf8 t sorts rows source order.descending limit maxBytes =
        enforceOrderingState rows.length lengthUtf8OrderingCacheEntryBytes maxBytes >>= fun _ =>
          .ok (firstOf limit (stableSort (rowOrder float t items [order]) rows)) := by
  obtain ⟨text, htext⟩ := texts_of_fits hc (.stringLengthUtf8 source) rfl (fun _ h => of_decide_eq_true h) hfits hrows
  have hkey : ∀ row ∈ rows, outputKey float t items order.output row =
      some (OrderKey.number ((text row).toList.length : Nat)) := by
    intro row hrow
    rw [outputKey, hitem]
    show ((t.valueAt source row).bind _) = _
    rw [(htext row hrow).2]
    rfl
  constructor
  · intro other hother row hrow
    obtain rfl := List.mem_singleton.1 hother
    exact ⟨_, hkey row hrow⟩
  · rw [orderSourceRowsByLengthUtf8]
    congr 1
    funext _
    by_cases hzero : limit = some 0
    · rw [if_pos hzero, hzero]
      rfl
    · have hcached : rows.mapM (fun row => (stringAt t source row).map fun text => (row, text.toList.length)) =
          some (rows.map fun row => (row, (text row).toList.length)) := by
        apply mapM_of_forall
        intro row hrow
        rw [(htext row hrow).1]
        rfl
      rw [if_neg hzero, hcached, orPanic_some, Exec.ok_bind]
      apply sort_cached_keys sorts limit (fun length : Nat => .number length) _ hkey hsorted
      intro a b
      exact (Decimal.compare_natCast a b).symm

omit hfloat in
variable (float) in
theorem orderSourceRowsByStringToFloat64_spec {order : ResolvedOrder} {source : Nat} (maxBytes : Nat)
    (hitem : items[order.output]? = some (.castStringToFloat64 source))
    (hfits : (ResolvedItem.castStringToFloat64 source).Fits t) (hrows : ∀ row ∈ rows, row < t.rowCount)
    (hsorted : rows.Pairwise (· < ·)) :
    orderSourceRowsByStringToFloat64 float t sorts rows source order.descending limit maxBytes ≠ .panic ∧
      ∀ result, orderSourceRowsByStringToFloat64 float t sorts rows source order.descending limit maxBytes = .ok result ↔
        saturatingMul rows.length stringToFloat64OrderingCacheEntryBytes ≤ maxBytes ∧
          (limit ≠ some 0 → HasKeys float t items [order] rows) ∧
          result = firstOf limit (stableSort (rowOrder float t items [order]) rows) := by
  obtain ⟨text, htext⟩ := texts_of_fits hc (.castStringToFloat64 source) rfl (fun _ h => of_decide_eq_true h) hfits hrows
  have hkey : ∀ row ∈ rows, outputKey float t items order.output row =
      if ScalarCast.float64Text (text row) then
        some (.value (.float64 (orderingStringToFloat64 float (text row)))) else none := by
    intro row hrow
    rw [outputKey, hitem]
    show ((t.valueAt source row).bind _) = _
    rw [(htext row hrow).2]
    rfl
  have hvalid : HasKeys float t items [order] rows ↔ ∀ row ∈ rows, ScalarCast.float64Text (text row) = true := by
    constructor
    · intro h row hrow
      obtain ⟨key, hsome⟩ := h order (List.mem_singleton_self _) row hrow
      rw [hkey row hrow] at hsome
      exact (Option.ite_none_right_eq_some.1 hsome).1
    · intro h other hother row hrow
      obtain rfl := List.mem_singleton.1 hother
      exact ⟨_, (hkey row hrow).trans (if_pos (h row hrow))⟩
  have hcheck : forEach (fun row => validateStringToFloat64Syntax (text row)) rows ≠ .panic ∧
      (forEach (fun row => validateStringToFloat64Syntax (text row)) rows = .ok () ↔ HasKeys float t items [order] rows) := by
    refine ⟨forEach_ne_panic fun row _ => rejectIf_ne_panic _ _, ?_⟩
    rw [forEach_eq_ok, hvalid]
    refine forall₂_congr fun row _ => ?_
    rw [validateStringToFloat64Syntax, rejectIf_eq_ok, not_not]
  have hcache : cacheStringToFloat64 float t source rows =
      forEach (fun row => validateStringToFloat64Syntax (text row)) rows >>= fun _ =>
        .ok (rows.map fun row => (row, orderingStringToFloat64 float (text row))) := by
    rw [cacheStringToFloat64, ← collect_forEach]
    congr 1
    apply List.map_congr_left
    intro row hrow
    rw [(htext row hrow).1]
    rfl
  have hguarded : orderSourceRowsByStringToFloat64 float t sorts rows source order.descending limit maxBytes =
      enforceOrderingState rows.length stringToFloat64OrderingCacheEntryBytes maxBytes >>= fun _ =>
        if limit = some 0 then .ok [] else
          forEach (fun row => validateStringToFloat64Syntax (text row)) rows >>= fun _ =>
            .ok (firstOf limit (stableSort (rowOrder float t items [order]) rows)) := by
    rw [orderSourceRowsByStringToFloat64, hcache]
    congr 1
    funext _
    congr 1
    rw [Exec.bind_assoc]
    cases hchecked : forEach (fun row => validateStringToFloat64Syntax (text row)) rows with
    | panic => rfl
    | error e => rfl
    | ok u =>
      rw [Exec.ok_bind, Exec.ok_bind, Exec.ok_bind]
      have hgrammar := hvalid.1 (hcheck.2.1 hchecked)
      apply sort_cached_keys sorts limit (fun number : F64 => .value (.float64 number)) _ _ hsorted
      · intro a b
        rfl
      · intro row hrow
        exact (hkey row hrow).trans (if_pos (hgrammar row hrow))
  obtain ⟨hpanic, hok⟩ := guarded_spec limit (stableSort (rowOrder float t items [order]) rows)
    (enforceOrderingState_ne_panic rows.length stringToFloat64OrderingCacheEntryBytes maxBytes) hcheck
  rw [hguarded]
  refine ⟨hpanic, fun result => (hok result).trans ?_⟩
  rw [enforceOrderingState_eq_ok]

def orderingStateBytes (items : List ResolvedItem) (ordering : List ResolvedOrder) (rowCount : Nat) : Nat :=
  match ordering with
  | [order] =>
    match items[order.output]? with
    | some (.stringLengthUtf8 _) => saturatingMul rowCount lengthUtf8OrderingCacheEntryBytes
    | some (.castStringToFloat64 _) => saturatingMul rowCount stringToFloat64OrderingCacheEntryBytes
    | _ => 0
  | _ => 0

/-- **Every ordering sorts by its keys**: it succeeds where its state is within the limit and every row has its
keys, and then the rows are the first ones in the stable order of the keys. -/
theorem orderSourceRows_spec (hsorts : Sorts t items ordering) (hrows : ∀ row ∈ rows, row < t.rowCount)
    (hsorted : ordering ≠ [] → rows.Pairwise (· < ·)) (maxBytes : Nat) :
    orderSourceRows float t sorts rows items ordering limit maxBytes ≠ .panic ∧
      ∀ result, orderSourceRows float t sorts rows items ordering limit maxBytes = .ok result ↔
        orderingStateBytes items ordering rows.length ≤ maxBytes ∧
          (limit ≠ some 0 → HasKeys float t items ordering rows) ∧
          result = firstOf limit (stableSort (rowOrder float t items ordering) rows) := by
  have hbyItems (hne : ordering ≠ []) (hstate : orderingStateBytes items ordering rows.length = 0)
      (heq : orderSourceRows float t sorts rows items ordering limit maxBytes =
        orderSourceRowsByItems float t sorts rows items ordering limit) :
      orderSourceRows float t sorts rows items ordering limit maxBytes ≠ .panic ∧
        ∀ result, orderSourceRows float t sorts rows items ordering limit maxBytes = .ok result ↔
          orderingStateBytes items ordering rows.length ≤ maxBytes ∧
            (limit ≠ some 0 → HasKeys float t items ordering rows) ∧
            result = firstOf limit (stableSort (rowOrder float t items ordering) rows) := by
    obtain ⟨hpanic, hok⟩ := orderSourceRowsByItems_spec sorts limit hc hfloat hsorts hrows (hsorted hne)
    rw [heq, hstate]
    refine ⟨hpanic, fun result => (hok result).trans ?_⟩
    exact ⟨fun h => ⟨Nat.zero_le _, h⟩, fun h => h.2⟩
  cases ordering with
  | nil =>
    refine ⟨ok_ne_panic _, fun result => ?_⟩
    rw [orderSourceRows, Exec.ok.injEq, eq_comm, rowOrder, List.map_nil, UnstableSort.stableSort_nil]
    constructor
    · intro h
      exact ⟨Nat.zero_le _, fun _ => List.forall_mem_nil _, h⟩
    · intro h
      exact h.2.2
  | cons order rest =>
  have hascending := hsorted (List.cons_ne_nil _ _)
  cases rest with
  | cons second rest => exact hbyItems (List.cons_ne_nil _ _) rfl rfl
  | nil =>
    obtain ⟨item, hitem, hfits⟩ := hsorts order (List.mem_singleton_self _)
    cases item with
    | stringLengthUtf8 source =>
      obtain ⟨hkeys, heq⟩ := orderSourceRowsByLengthUtf8_eq float sorts limit hc maxBytes hitem hfits
        hrows hascending
      have hroute : orderSourceRows float t sorts rows items [order] limit maxBytes =
          orderSourceRowsByLengthUtf8 t sorts rows source order.descending limit maxBytes := by
        simp only [orderSourceRows, hitem, orPanic_some, Exec.ok_bind]
      have hstate : orderingStateBytes items [order] rows.length =
          saturatingMul rows.length lengthUtf8OrderingCacheEntryBytes := by
        simp only [orderingStateBytes, hitem]
      rw [hroute, heq, hstate]
      refine ⟨bind_ne_panic (enforceOrderingState_ne_panic _ _ _) fun _ _ => ok_ne_panic _, fun result => ?_⟩
      rw [Exec.bind_eq_ok]
      constructor
      · intro h
        obtain ⟨_, hcharge, hresult⟩ := h
        exact ⟨enforceOrderingState_eq_ok.1 hcharge, fun _ => hkeys, (Exec.ok.inj hresult).symm⟩
      · intro h
        exact ⟨(), enforceOrderingState_eq_ok.2 h.1, congrArg Exec.ok h.2.2.symm⟩
    | castStringToFloat64 source =>
      have hspec := orderSourceRowsByStringToFloat64_spec float sorts limit hc maxBytes hitem hfits hrows
        hascending
      have hroute : orderSourceRows float t sorts rows items [order] limit maxBytes =
          orderSourceRowsByStringToFloat64 float t sorts rows source order.descending limit maxBytes := by
        simp only [orderSourceRows, hitem, orPanic_some, Exec.ok_bind]
      have hstate : orderingStateBytes items [order] rows.length =
          saturatingMul rows.length stringToFloat64OrderingCacheEntryBytes := by
        simp only [orderingStateBytes, hitem]
      rw [hroute, hstate]
      exact hspec
    | _ =>
      apply hbyItems (List.cons_ne_nil _ _)
      · simp only [orderingStateBytes, hitem]
      · simp only [orderSourceRows, hitem, orPanic_some, Exec.ok_bind]

/-! ## Windows -/

omit hfloat in
variable (float) in
theorem hasKeys_window {source : Nat} {column : Column} (hcolumn : t.columns[source]? = some column) (descending : Bool)
    (hrows : ∀ row ∈ rows, row < t.rowCount) :
    HasKeys float t [.column source none] [⟨0, descending⟩] rows := by
  intro order horder row hrow
  obtain rfl := List.mem_singleton.1 horder
  obtain ⟨value, hvalue, _⟩ := valueAt_of_column hc hcolumn (hrows row hrow)
  refine ⟨.value value, ?_⟩
  show ((t.valueAt source row).bind _) = _
  rw [hvalue]
  rfl

omit hfloat in
variable (float) in
theorem orderWindowRows_eq {ordering : ResolvedWindowOrder} {column : Column}
    (hcolumn : t.columns[ordering.source]? = some column) (hrows : ∀ row ∈ rows, row < t.rowCount)
    (hsorted : rows.Pairwise (· < ·)) :
    orderWindowRows t sorts rows ordering limit = some (firstOf limit (stableSort
      (rowOrder float t [.column ordering.source none] [⟨0, ordering.descending⟩]) rows)) := by
  have hkeys := hasKeys_window float hc hcolumn ordering.descending hrows
  rw [← sortAndLimitBy_rows sorts limit hkeys hsorted, orderWindowRows]
  congr 1
  funext left right
  simp only [compareRows, compareOutputs, List.getElem?_cons_zero, Option.bind_eq_bind, Option.bind_some,
    ResolvedItem.compare, then_descendingIf]
  cases cmpAt t ordering.source left right with
  | none => rfl
  | some comparison =>
    rw [Option.bind_some, Option.bind_some]
    split <;> rfl

end

end

end RustHouse.Batch
