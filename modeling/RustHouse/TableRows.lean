import RustHouse.PredicateSound

/-!
# The rows of a table

A table as the list of its rows. Rows that pass validation are appended behind
those that a table has.
-/

namespace RustHouse.Batch

open Checked Exec Words Method

namespace Table

def rowValues (t : Table) (row : Nat) : Option (List Value) := t.columns.mapM (Column.value row)

/-- **The contents of a table.** -/
def rows (t : Table) : Option (List (List Value)) := (List.range t.rowCount).mapM t.rowValues

end Table

/-- An ingestion that succeeds, and leaves the rows behind those that the table had. -/
def AppendsRows {ε : Type} (ingest : Method Table ε Nat) (t : Table) (rows : List (List Value)) : Prop :=
  ∃ old t', t.rows = some old ∧ (t.rowCount = 0 → old = []) ∧ ingest t = some (.ok rows.length, t') ∧
    t'.schema = t.schema ∧ t'.rows = some (old ++ rows)

/-! ## Columns -/

theorem push_value {column column' : Column} {value : Value} {bytes : Nat}
    (hpush : column.push value = some (column', bytes)) :
    (∀ row < column.len, column'.value row = column.value row) ∧ column'.value column.len = some value := by
  have hlast {α : Type} (values : List α) (a : α) (f : α → Value) : (∀ row < values.length,
      (values ++ [a])[row]?.map f = values[row]?.map f) ∧ (values ++ [a])[values.length]?.map f = some (f a) :=
    ⟨fun row hrow => by rw [List.getElem?_append_left hrow], by rw [List.getElem?_concat_length]; rfl⟩
  unfold Column.push at hpush
  split at hpush
  · obtain ⟨rfl, _⟩ := Prod.mk.inj (Option.some.inj hpush)
    exact hlast _ _ .int64
  · obtain ⟨rfl, _⟩ := Prod.mk.inj (Option.some.inj hpush)
    exact hlast _ (some _) fun value => value.elim (.null .int64) .int64
  · obtain ⟨rfl, _⟩ := Prod.mk.inj (Option.some.inj hpush)
    exact hlast _ none fun value => value.elim (.null .int64) .int64
  · obtain ⟨rfl, _⟩ := Prod.mk.inj (Option.some.inj hpush)
    exact hlast _ _ .float64
  · obtain ⟨rfl, _⟩ := Prod.mk.inj (Option.some.inj hpush)
    exact hlast _ _ .bool
  · obtain ⟨rfl, _⟩ := Prod.mk.inj (Option.some.inj hpush)
    exact hlast _ _ .string
  · cases hpush

theorem pushRow_values {declared : List Declared} {count added bytes : Nat} {columns columns' : List Column}
    {row : List Value} (hfits : Fits declared count columns) (hrow : row.length = columns.length)
    (hpush : Table.pushRow added columns row = some (columns', bytes)) :
    (∀ i < count, columns'.mapM (Column.value i) = columns.mapM (Column.value i)) ∧
      columns'.mapM (Column.value count) = some row := by
  induction hfits generalizing row columns' added bytes with
  | nil =>
    obtain rfl := List.eq_nil_of_length_eq_zero hrow
    obtain ⟨rfl, _⟩ := Prod.mk.inj (Option.some.inj hpush)
    exact ⟨fun _ _ => rfl, rfl⟩
  | @cons _ column _ columns hcolumn _ ih =>
    obtain ⟨value, row, rfl⟩ := List.exists_cons_of_length_eq_add_one hrow
    obtain ⟨⟨pushed, here⟩, hpushed, hpush⟩ := Option.bind_eq_some_iff.1 hpush
    obtain ⟨⟨rest, total⟩, hrest, hpush⟩ := Option.bind_eq_some_iff.1 hpush
    obtain ⟨rfl, _⟩ := Prod.mk.inj (Option.some.inj hpush)
    obtain ⟨hbefore, hlast⟩ := push_value hpushed
    obtain ⟨hbeforeRest, hlastRest⟩ := ih (Nat.succ.inj hrow) hrest
    rw [hcolumn.2] at hbefore hlast
    constructor
    · intro i hi
      rw [List.mapM_cons, List.mapM_cons, hbefore i hi, hbeforeRest i hi]
    · rw [List.mapM_cons, hlast, hlastRest]
      rfl

namespace Table

section
variable {declared : List Declared} {t t' : Table} {E : Error → Table → Prop}

theorem mapM_total {α β : Type} {f : α → Option β} {as : List α} (h : ∀ a ∈ as, ∃ b, f a = some b) :
    ∃ bs, as.mapM f = some bs := by
  induction as with
  | nil => exact ⟨[], rfl⟩
  | cons a as ih =>
    obtain ⟨⟨b, hb⟩, has⟩ := List.forall_mem_cons.1 h
    obtain ⟨bs, hbs⟩ := ih has
    exact ⟨b :: bs, by rw [List.mapM_cons, hb, hbs]; rfl⟩

theorem Consistent.rows_total (h : Consistent declared t) : ∃ old, t.rows = some old := by
  refine mapM_total fun row hrow => mapM_total fun column hcolumn => column_value column ?_
  obtain ⟨i, hi⟩ := List.mem_iff_getElem?.1 hcolumn
  obtain ⟨hlt, _⟩ := List.getElem?_eq_some_iff.1 hi
  have hlen : i < declared.length := by rw [h.fits.length_eq]; exact hlt
  obtain ⟨column', hcolumn', _, hrows⟩ := h.column_of_declared (List.getElem?_eq_getElem hlen)
  obtain rfl := Option.some.inj (hi.symm.trans hcolumn')
  exact hrows ▸ List.mem_range.1 hrow

/-! ## Appending -/

structure Appended (t : Table) (rows : List (List Value)) (t' : Table) : Prop where
  schema : t'.schema = t.schema
  rows : ∀ old, t.rows = some old → t'.rows = some (old ++ rows)

theorem Appended.refl (t : Table) : Appended t [] t := ⟨rfl, fun old h => by rw [List.append_nil]; exact h⟩

theorem Appended.trans {t'' : Table} {rows rows' : List (List Value)} (h : Appended t rows t')
    (h' : Appended t' rows' t'') : Appended t (rows ++ rows') t'' :=
  ⟨h'.schema.trans h.schema, fun old hold => by rw [← List.append_assoc]; exact h'.rows _ (h.rows old hold)⟩

theorem mapM_congr {α β : Type} {f g : α → Option β} {as : List α} (h : ∀ a ∈ as, f a = g a) : as.mapM f = as.mapM g := by
  induction as with
  | nil => rfl
  | cons a as ih =>
    obtain ⟨ha, has⟩ := List.forall_mem_cons.1 h
    rw [List.mapM_cons, List.mapM_cons, ha, ih has]

theorem appendValidatedRow_appended {row : List Value} {u : Unit} (h : Consistent declared t)
    (hrow : AdmitsRow declared row) (hrun : appendValidatedRow row t = some (.ok u, t')) : Appended t [row] t' := by
  obtain ⟨_, _, hread, hrun⟩ := bind_eq_ok.1 hrun
  obtain ⟨rfl, rfl⟩ := read_eq_ok.1 hread
  obtain ⟨⟨columns', bytes⟩, _, hcall, hrun⟩ := bind_eq_ok.1 hrun
  obtain ⟨hpush, rfl⟩ := call_eq_ok.1 hcall
  obtain rfl := write_eq_ok.1 hrun
  have hlen : row.length = t.columns.length := by rw [← hrow.length_eq, h.fits.length_eq]
  obtain ⟨hbefore, hlast⟩ := pushRow_values h.fits hlen (orPanic_eq_ok.1 hpush)
  refine ⟨rfl, fun old hold => ?_⟩
  have hprefix : (List.range t.rowCount).mapM (fun i => columns'.mapM (Column.value i)) = some old :=
    (mapM_congr fun i hi => hbefore i (List.mem_range.1 hi)).trans hold
  show (List.range (t.rowCount + 1)).mapM (fun i => columns'.mapM (Column.value i)) = _
  rw [List.range_succ, List.mapM_append, hprefix, List.mapM_cons, hlast]
  rfl

theorem appendEach_appended {rows : List (List Value)} (more : Nat) (h : Consistent declared t)
    (hroom : HasRoom t (rows.length + more)) (hrows : ∀ row ∈ rows, AdmitsRow declared row) :
    wp (appendEach rows) (fun _ t' => Consistent declared t' ∧ Appended t rows t') E t := by
  induction rows generalizing t with
  | nil => exact ⟨h, .refl t⟩
  | cons row rows ih =>
    obtain ⟨hrow, hrows⟩ := List.forall_mem_cons.1 hrows
    have hroom' : HasRoom t (rows.length + more + 1) := by rwa [Nat.add_right_comm]
    rw [appendEach, wp_bind]
    refine wp_mono (wp_and (appendValidatedRow_wp h hroom' hrow) fun _ _ hrun => appendValidatedRow_appended h hrow hrun)
      (fun _ t' ht' => ?_) fun _ _ he => he
    obtain ⟨⟨hconsistent, hroom⟩, happended⟩ := ht'
    exact wp_mono (ih hconsistent hroom hrows) (fun _ _ h => ⟨h.1, happended.trans h.2⟩) fun _ _ he => he

theorem markValuesMutated_contents {u : Unit} (hrun : markValuesMutated t = some (.ok u, t')) :
    t'.schema = t.schema ∧ t'.columns = t.columns ∧ t'.rowCount = t.rowCount := by
  obtain ⟨_, _, hread, hrun⟩ := bind_eq_ok.1 hrun
  obtain ⟨rfl, rfl⟩ := read_eq_ok.1 hread
  dsimp only at hrun
  cases hindex : t.int64MinMaxIndex with
  | none =>
    rw [hindex] at hrun
    obtain rfl := write_eq_ok.1 hrun
    exact ⟨rfl, rfl, rfl⟩
  | some previous =>
    rw [hindex] at hrun
    dsimp only at hrun
    cases hbuild : buildInt64MinMaxIndex { t with
      int64RangePartitions := none, mutationGeneration := t.mutationGeneration + 1, int64MinMaxIndex := none }
      previous.column previous.limits with
    | ok index =>
      rw [hbuild] at hrun
      obtain rfl := write_eq_ok.1 hrun
      exact ⟨rfl, rfl, rfl⟩
    | error rejection =>
      rw [hbuild] at hrun
      obtain rfl := write_eq_ok.1 hrun
      exact ⟨rfl, rfl, rfl⟩
    | panic =>
      rw [hbuild] at hrun
      cases (call_eq_ok.1 hrun).1

theorem rows_congr (hcolumns : t'.columns = t.columns) (hrowCount : t'.rowCount = t.rowCount) : t'.rows = t.rows := by
  unfold Table.rows rowValues
  rw [hcolumns, hrowCount]

theorem markValuesMutated_appended {u : Unit} (hrun : markValuesMutated t = some (.ok u, t')) : Appended t [] t' := by
  obtain ⟨hschema, hcolumns, hrowCount⟩ := markValuesMutated_contents hrun
  refine ⟨hschema, fun old hold => ?_⟩
  rw [List.append_nil, ← hold]
  exact rows_congr hcolumns hrowCount

/-- **Validated rows** are appended in their order. -/
theorem appendValidatedRows_appended {rows : List (List Value)} (h : Consistent declared t)
    (hroom : HasRoom t rows.length) (hrows : ∀ row ∈ rows, AdmitsRow declared row) :
    wp (appendValidatedRows rows) (fun _ t' => Consistent declared t' ∧ Appended t rows t') E t := by
  rw [appendValidatedRows, wp_bind]
  refine wp_mono (appendEach_appended 0 h hroom hrows) (fun _ t' ht' => ?_) fun _ _ he => he
  obtain ⟨hconsistent, happended⟩ := ht'
  split
  · refine wp_mono (wp_and (markValuesMutated_wp hconsistent) fun _ _ hrun => markValuesMutated_appended hrun)
      (fun _ t'' ht'' => ⟨ht''.1.1, ?_⟩) fun _ _ he => he
    have := happended.trans ht''.2
    rwa [List.append_nil] at this
  · exact ⟨hconsistent, happended⟩

/-! ## Validation -/

theorem validateRowCapacity_of_hasRoom {rows : Nat} (hroom : HasRoom t rows) : t.validateRowCapacity rows = .ok () := by
  obtain ⟨hrows, hcells⟩ := hroom
  have hsaturated : saturatingMul (saturatingAdd t.rowCount rows) t.schema.length ≤ t.limits.maxCells :=
    Nat.le_trans (saturatingMul_mono (Nat.min_le_left _ _)) hcells
  rw [validateRowCapacity, rejectIf_of_not (by omega), Exec.ok_bind]
  exact rejectIf_of_not (Nat.not_lt.2 hsaturated)

theorem validateValue_of_admits {column : Nat} {d : Declared} {value : Value} (h : Consistent declared t)
    (hd : declared[column]? = some d) (hadmits : Column.Admits d.kind value)
    (hfinite : ∀ x, value = .float64 x → x.isFinite = true) : t.validateValue column d.1 value = .ok () := by
  cases value with
  | null dataType =>
    obtain ⟨physical, hphysical, hkind, _⟩ := h.column_of_declared hd
    obtain ⟨rfl, hnullable⟩ := hadmits
    have hisNullable : physical.isNullableInt64 = true := congrArg Prod.snd (hkind.trans hnullable)
    rw [validateValue, hphysical, orPanic_some, Exec.ok_bind]
    exact rejectIf_of_not (not_not.2 ⟨hisNullable, rfl⟩)
  | float64 number =>
    have htype : d.1.dataType = .float64 := (show DataType.float64 = d.1.dataType from hadmits).symm
    rw [validateValue, rejectIf_of_not (not_not.2 htype), Exec.ok_bind]
    exact rejectIf_of_not (not_not.2 (hfinite number rfl))
  | _ => exact rejectIf_of_not (not_not.2 (show _ = d.1.dataType from hadmits).symm)

def FiniteRow (row : List Value) : Prop := ∀ x, Value.float64 x ∈ row → x.isFinite = true

theorem validateProjected_of_admits {column : Nat} {rest : List Declared} (before : List Value) {row : List Value}
    (h : Consistent declared t) (hbefore : before.length = column) (hrest : declared.drop column = rest)
    (hadmits : AdmitsRow rest row) (hfinite : FiniteRow row) :
    t.validateProjected (before ++ row) column (rest.map Prod.fst)
      ((List.range' column rest.length).map some) = .ok () := by
  induction hadmits generalizing column before with
  | nil => rfl
  | @cons d value rest row hvalue _ ih =>
    have hd : declared[column]? = some d := by rw [← List.head?_drop, hrest]; rfl
    have hnext : declared.drop (column + 1) = rest := by rw [← List.drop_drop, hrest]; rfl
    have hget : (before ++ value :: row)[column]? = some value := by
      rw [List.getElem?_append_right (Nat.le_of_eq hbefore), hbefore, Nat.sub_self]
      rfl
    have hvalid := validateValue_of_admits h hd hvalue fun x hx => hfinite x (hx ▸ List.mem_cons_self ..)
    rw [List.length_cons, List.range'_succ, List.map_cons, List.map_cons, validateProjected, hget, orPanic_some,
      Exec.ok_bind, hvalid, Exec.ok_bind, List.append_cons]
    exact ih _ (by rw [List.length_append, hbefore]; rfl) hnext fun x hx => hfinite x (List.mem_cons_of_mem _ hx)

theorem inputIndexesBySchema_range (filled : List (Option Nat)) (n : Nat) :
    inputIndexesBySchema filled.length (filled ++ List.replicate n none) (List.range' filled.length n) =
      some (filled ++ (List.range' filled.length n).map some) := by
  induction n generalizing filled with
  | zero => rfl
  | succ n ih =>
    have hset : setIndex (filled ++ none :: List.replicate n none) filled.length (some filled.length) =
        some (filled ++ [some filled.length] ++ List.replicate n none) := by
      rw [setIndex, if_pos (by simp), List.set_append_right _ _ (Nat.le_refl _), Nat.sub_self, List.append_assoc]
      rfl
    have hrest := ih (filled ++ [some filled.length])
    rw [List.length_append, List.length_singleton] at hrest
    rw [List.replicate_succ, List.range'_succ, inputIndexesBySchema, hset, Option.bind_eq_bind, Option.bind_some, hrest,
      List.map_cons, List.append_assoc]
    rfl

/-- **Rows of the schema are prepared as they are** when there is room for them. -/
theorem prepareProjectedRows_range {rows : List (List Value)} (h : Consistent declared t)
    (hroom : HasRoom t rows.length) (hrows : ∀ row ∈ rows, AdmitsRow declared row ∧ FiniteRow row) :
    t.prepareProjectedRows (List.range t.schema.length) rows = .ok ⟨rows, none⟩ := by
  have hindexes := inputIndexesBySchema_range [] t.schema.length
  rw [List.nil_append, List.nil_append, List.length_nil, ← List.range_eq_range'] at hindexes
  have hlengths : forEach (fun row : List Value => rejectIf (row.length ≠ (List.range t.schema.length).length)
      (Error.rowLength t.name (List.range t.schema.length).length row.length)) rows = .ok () := by
    refine forEach_eq_ok.2 fun row hrow => rejectIf_of_not (not_not.2 ?_)
    rw [List.length_range, ← h.declared_length, (hrows row hrow).1.length_eq]
  have hvalues : forEach (fun row => t.validateProjected row 0 t.schema ((List.range t.schema.length).map some)) rows =
      .ok () := by
    refine forEach_eq_ok.2 fun row hrow => ?_
    have := validateProjected_of_admits [] h rfl List.drop_zero (hrows row hrow).1 (hrows row hrow).2
    rwa [List.nil_append, List.length_nil, ← h.schema, h.declared_length, ← List.range_eq_range'] at this
  rw [prepareProjectedRows, prepareProjectedRowsWithCapacity, hindexes, orPanic_some, Exec.ok_bind, hlengths,
    Exec.ok_bind, validateRowCapacity_of_hasRoom hroom, Exec.ok_bind, hvalues, Exec.ok_bind, if_pos rfl]

end

end Table

end RustHouse.Batch
