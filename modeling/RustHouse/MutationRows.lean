import RustHouse.TableRows

/-!
# The rows that deletion and replacement leave

Deletion compacts each column on its own by one selection of rows, so that the
rows that stay are whole. Replacement puts one value into some rows of one
column, and touches no other cell.
-/

namespace RustHouse.Batch

open Checked Exec Words Method

/-- The rows that stay, in order. -/
def survivors (rowCount : Nat) (rowIndexes : List Nat) : List Nat :=
  (List.range rowCount).filter fun row => row ∉ rowIndexes

/-! ## Deletion from one column -/

theorem compactDeletedRows_eq {α : Type} {rowIndexes pending : List Nat} {sourceRow position : Nat} {values : List α}
    (remaining : rowIndexes.drop position = pending) (sorted : pending.Pairwise (· < ·))
    (inside : ∀ i ∈ pending, sourceRow ≤ i) : compactDeletedRows rowIndexes sourceRow position values =
      ((values.zipIdx sourceRow).filter fun p => p.2 ∉ pending).map Prod.fst := by
  induction values generalizing sourceRow position pending with
  | nil => rfl
  | cons value values ih =>
    have hhead : rowIndexes[position]? = pending.head? := by rw [← remaining, List.head?_drop]
    rw [compactDeletedRows, hhead, List.zipIdx_cons]
    by_cases hdelete : pending.head? = some sourceRow
    · obtain ⟨rest, rfl⟩ : ∃ rest, pending = sourceRow :: rest := List.head?_eq_some_iff.1 hdelete
      obtain ⟨hfirst, hrest⟩ := List.pairwise_cons.1 sorted
      have hremaining : rowIndexes.drop (position + 1) = rest := by
        rw [← List.drop_drop, remaining, List.drop_one, List.tail_cons]
      rw [if_pos hdelete, ih hremaining hrest hfirst, List.filter_cons_of_neg (by simp)]
      refine congrArg _ (List.filter_congr fun p hp => ?_)
      have hne : p.2 ≠ sourceRow := Nat.ne_of_gt (List.le_snd_of_mem_zipIdx hp)
      simp [hne]
    · have hafter : ∀ i ∈ pending, sourceRow + 1 ≤ i := by
        intro i hi
        cases pending with
        | nil => cases hi
        | cons j rest =>
          have hj : sourceRow < j :=
            Nat.lt_of_le_of_ne (inside j (List.mem_cons_self ..)) fun h => hdelete (by rw [h]; rfl)
          rcases List.mem_cons.1 hi with rfl | hi
          · exact hj
          · exact Nat.lt_trans hj ((List.pairwise_cons.1 sorted).1 i hi)
      have hkept : sourceRow ∉ pending := fun h => Nat.not_succ_le_self _ (hafter _ h)
      rw [if_neg hdelete, ih remaining sorted hafter, List.filter_cons_of_pos (by simpa using hkept), List.map_cons]

section
variable {rowIndexes : List Nat}

theorem survivors_eq {α : Type} (values : List α) :
    survivors values.length rowIndexes = (values.zipIdx.filter fun p => p.2 ∉ rowIndexes).map Prod.snd := by
  rw [survivors, List.range_eq_range', ← List.zipIdx_map_snd, List.filter_map]
  rfl

variable (sorted : rowIndexes.Pairwise (· < ·))
include sorted

theorem compactDeletedRows_getElem? {α : Type} (values : List α) (i : Nat) :
    (compactDeletedRows rowIndexes 0 0 values)[i]? =
      (survivors values.length rowIndexes)[i]?.bind fun row => values[row]? := by
  rw [compactDeletedRows_eq List.drop_zero sorted fun _ _ => Nat.zero_le _, survivors_eq, List.getElem?_map,
    List.getElem?_map]
  cases hkept : (values.zipIdx.filter fun p => p.2 ∉ rowIndexes)[i]? with
  | none => rfl
  | some p =>
    obtain ⟨hmem, _⟩ := List.mem_filter.1 (List.mem_of_getElem? hkept)
    exact (List.mem_zipIdx_iff_getElem?.1 hmem).symm

theorem length_compactDeletedRows {α : Type} (values : List α) :
    (compactDeletedRows rowIndexes 0 0 values).length = (survivors values.length rowIndexes).length := by
  rw [compactDeletedRows_eq List.drop_zero sorted fun _ _ => Nat.zero_le _, survivors_eq, List.length_map, List.length_map]

theorem length_survivors {rowCount : Nat} (inside : ∀ i ∈ rowIndexes, i < rowCount) :
    (survivors rowCount rowIndexes).length = rowCount - rowIndexes.length := by
  have hinside : ∀ i ∈ rowIndexes, i < (List.range rowCount).length := by
    intro i hi
    rw [List.length_range]
    exact inside i hi
  obtain ⟨hlength, _⟩ := compactDeletedRows_spec (fun _ => 0) sorted hinside
  rw [length_compactDeletedRows sorted, List.length_range] at hlength
  omega

theorem deleteRows_value {column column' : Column} {bytes : Nat}
    (h : column.deleteRows rowIndexes = some (column', bytes)) {i row : Nat}
    (hrow : (survivors column.len rowIndexes)[i]? = some row) : column'.value i = column.value row := by
  obtain ⟨_, _, h⟩ := Option.bind_eq_some_iff.1 h
  obtain ⟨rfl, _⟩ := Prod.mk.inj (Option.some.inj h)
  cases column with
  | _ values =>
    simp only [Column.len] at hrow
    simp only [Column.value, compactDeletedRows_getElem? sorted, hrow, Option.bind_some]

theorem deleteFromColumns_values {rows deleted bytes : Nat} {columns columns' : List Column}
    (hlen : ∀ column ∈ columns, column.len = rows)
    (h : Table.deleteFromColumns rowIndexes deleted columns = some (columns', bytes)) {i row : Nat}
    (hrow : (survivors rows rowIndexes)[i]? = some row) :
    columns'.mapM (Column.value i) = columns.mapM (Column.value row) := by
  induction columns generalizing deleted columns' bytes with
  | nil =>
    obtain ⟨rfl, _⟩ := Prod.mk.inj (Option.some.inj h)
    rfl
  | cons column columns ih =>
    obtain ⟨hcolumn, hcolumns⟩ := List.forall_mem_cons.1 hlen
    obtain ⟨⟨column', bytes'⟩, hdelete, h⟩ := Option.bind_eq_some_iff.1 h
    obtain ⟨⟨rest, total⟩, hrest, h⟩ := Option.bind_eq_some_iff.1 h
    obtain ⟨rfl, _⟩ := Prod.mk.inj (Option.some.inj h)
    rw [List.mapM_cons, List.mapM_cons, ih hcolumns hrest, deleteRows_value sorted hdelete (hcolumn ▸ hrow)]

end

/-! ## Deletion from a table -/

theorem mapM_range {α β : Type} {f : α → Option β} {g : Nat → Option β} {as : List α}
    (h : ∀ i a, as[i]? = some a → g i = f a) : (List.range as.length).mapM g = as.mapM f := by
  induction as generalizing g with
  | nil => rfl
  | cons a as ih =>
    have hrest : (List.range as.length).mapM (g ∘ Nat.succ) = as.mapM f := ih fun i a ha => h (i + 1) a ha
    rw [List.length_cons, List.range_succ_eq_map, List.mapM_cons, List.mapM_cons, h 0 a rfl, List.mapM_map, hrest]

namespace Table

section
variable {declared : List Declared} {t : Table} {E : Error → Table → Prop}

theorem Consistent.columns_len (h : Consistent declared t) : ∀ column ∈ t.columns, column.len = t.rowCount := by
  intro column hcolumn
  obtain ⟨i, hi⟩ := List.mem_iff_getElem?.1 hcolumn
  obtain ⟨hlt, _⟩ := List.getElem?_eq_some_iff.1 hi
  have hdeclared : i < declared.length := by rw [h.fits.length_eq]; exact hlt
  obtain ⟨column', hcolumn', _, hlen⟩ := h.column_of_declared (List.getElem?_eq_getElem hdeclared)
  obtain rfl := Option.some.inj (hi.symm.trans hcolumn')
  exact hlen

/-- **Deletion** leaves the other rows, whole and in their order. -/
theorem deleteRows_wp (h : Consistent declared t) {rowIndexes : List Nat} (inside : ∀ i ∈ rowIndexes, i < t.rowCount)
    (sorted : rowIndexes.Pairwise (· < ·)) : wp (deleteRows rowIndexes) (fun deleted t' =>
      deleted = rowIndexes.length ∧ Consistent declared t' ∧ t'.schema = t.schema ∧
        t'.rows = (survivors t.rowCount rowIndexes).mapM t.rowValues ∧ (rowIndexes = [] → t' = t)) E t := by
  rw [deleteRows, wp_bind, wp_read, validateRowSelection_eq_ok.2 ⟨inside, sorted⟩, wp_bind, wp_call_ok]
  split
  · rename_i hempty
    subst hempty
    refine ⟨rfl, h, rfl, ?_, fun _ => rfl⟩
    rw [survivors, List.filter_eq_self.2 (by simp)]
    rfl
  · rename_i hne
    obtain ⟨columns, bytes, hdelete, hfits, hretained⟩ := deleteFromColumns_spec h.fits sorted inside 0
    have hvalues := fun i row hrow => @deleteFromColumns_values _ sorted _ _ _ _ _ h.columns_len hdelete i row hrow
    rw [Nat.zero_add] at hdelete
    simp only [wp_bind, hdelete, orPanic_some, wp_call_ok, wp_write]
    have htotal : t.retainedValueBytes - bytes = retainedBytes columns := by rw [h.retained]; omega
    have ht' := h.withColumns hfits (Nat.sub_le _ _) htotal
    refine wp_mono (wp_and (markValuesMutated_wp ht') fun _ _ hrun => markValuesMutated_contents hrun) ?_ fun _ _ he => he
    intro _ t' hmarks
    obtain ⟨hmarked, hschema, hcolumns, hrowCount⟩ := hmarks
    refine ⟨rfl, hmarked.1, hschema, ?_, fun hempty => absurd hempty hne⟩
    rw [rows_congr hcolumns hrowCount, Table.rows, ← length_survivors sorted inside]
    exact mapM_range hvalues

end

end Table

/-! ## Replacement in one column -/

theorem mapM_set {α β : Type} {f : α → Option β} {as : List α} {a a' : α} {b b' : β} {i : Nat} (hi : as[i]? = some a)
    (hb : f a = some b) (hb' : f a' = some b') : (as.set i a').mapM f = (as.mapM f).map (·.set i b') := by
  induction as generalizing i with
  | nil => cases hi
  | cons c as ih =>
    cases i with
    | zero =>
      obtain rfl := Option.some.inj hi
      rw [List.set_cons_zero, List.mapM_cons, List.mapM_cons, hb, hb']
      cases as.mapM f <;> rfl
    | succ i =>
      rw [List.set_cons_succ, List.mapM_cons, List.mapM_cons, ih hi]
      cases f c <;> cases as.mapM f <;> rfl

theorem mapM_set_of_eq {α β : Type} {f : α → Option β} {as : List α} {a a' : α} {i : Nat} (hi : as[i]? = some a)
    (ha : f a' = f a) : (as.set i a').mapM f = as.mapM f := by
  induction as generalizing i with
  | nil => cases hi
  | cons c as ih =>
    cases i with
    | zero =>
      obtain rfl := Option.some.inj hi
      rw [List.set_cons_zero, List.mapM_cons, List.mapM_cons, ha]
    | succ i => rw [List.set_cons_succ, List.mapM_cons, List.mapM_cons, ih hi]

theorem replaceValue_value {column column' : Column} {value : Value} {row removed added : Nat}
    (h : column.replaceValue row value = some (column', removed, added)) (other : Nat) :
    column'.value other = if other = row then some value else column.value other := by
  have hset {α : Type} {values values' : List α} {a : α} (f : α → Value) (hvalues : setIndex values row a = some values') :
      values'[other]?.map f = if other = row then some (f a) else values[other]?.map f := by
    unfold setIndex at hvalues
    split at hvalues
    · rename_i hrow
      obtain rfl := Option.some.inj hvalues
      by_cases hother : other = row
      · rw [if_pos hother, hother, List.getElem?_set_self hrow]
        rfl
      · rw [if_neg hother, List.getElem?_set_ne (Ne.symm hother)]
    · cases hvalues
  unfold Column.replaceValue at h
  split at h
  · obtain ⟨values', hvalues, h⟩ := Option.bind_eq_some_iff.1 h
    obtain ⟨rfl, _⟩ := Prod.mk.inj (Option.some.inj h)
    exact hset .int64 hvalues
  · obtain ⟨values', hvalues, h⟩ := Option.bind_eq_some_iff.1 h
    obtain ⟨rfl, _⟩ := Prod.mk.inj (Option.some.inj h)
    exact hset (fun value => value.elim (.null .int64) .int64) hvalues
  · obtain ⟨values', hvalues, h⟩ := Option.bind_eq_some_iff.1 h
    obtain ⟨rfl, _⟩ := Prod.mk.inj (Option.some.inj h)
    exact hset (fun value => value.elim (.null .int64) .int64) hvalues
  · obtain ⟨values', hvalues, h⟩ := Option.bind_eq_some_iff.1 h
    obtain ⟨rfl, _⟩ := Prod.mk.inj (Option.some.inj h)
    exact hset .float64 hvalues
  · obtain ⟨values', hvalues, h⟩ := Option.bind_eq_some_iff.1 h
    obtain ⟨rfl, _⟩ := Prod.mk.inj (Option.some.inj h)
    exact hset .bool hvalues
  · obtain ⟨_, _, h⟩ := Option.bind_eq_some_iff.1 h
    obtain ⟨values', hvalues, h⟩ := Option.bind_eq_some_iff.1 h
    obtain ⟨rfl, _⟩ := Prod.mk.inj (Option.some.inj h)
    exact hset .string hvalues
  · cases h

theorem replaceValues_value {column column' : Column} {value : Value} {rows : List Nat}
    {removed added removed' added' : Nat}
    (h : column.replaceValues removed added (rows.map (·, value)) = some (column', removed', added')) (row : Nat) :
    column'.value row = if row ∈ rows then some value else column.value row := by
  induction rows generalizing column removed added with
  | nil =>
    obtain ⟨rfl, _⟩ := Prod.mk.inj (Option.some.inj h)
    rw [if_neg List.not_mem_nil]
  | cons first rows ih =>
    obtain ⟨⟨middle, _, _⟩, hfirst, h⟩ := Option.bind_eq_some_iff.1 h
    rw [ih h, replaceValue_value hfirst row]
    by_cases hrow : row = first
    · simp [hrow]
    · simp [hrow]

namespace Table

section
variable {declared : List Declared} {t : Table} {E : Error → Table → Prop}

def updatedRows (t : Table) (column : Nat) (value : Value) (rowIndexes : List Nat) : Option (List (List Value)) :=
  (List.range t.rowCount).mapM fun row =>
    (t.rowValues row).map fun values => if row ∈ rowIndexes then values.set column value else values

/-- **Replacement** puts the value into the column of the given rows, and leaves every other cell. -/
theorem replaceColumnValues_wp (h : Consistent declared t) {column : String} {i : Nat} {d : Declared}
    (hi : t.columnIndex column = .ok i) (hd : declared[i]? = some d) {rowIndexes : List Nat}
    (inside : ∀ row ∈ rowIndexes, row < t.rowCount) (sorted : rowIndexes.Pairwise (· < ·)) {value : Value}
    (hvalue : t.validateValue i d.1 value = .ok ()) :
    wp (replaceColumnValues column (rowIndexes.map (·, value))) (fun replaced t' =>
      replaced = rowIndexes.length ∧ Consistent declared t' ∧ t'.schema = t.schema ∧
        t'.rows = t.updatedRows i value rowIndexes ∧ (rowIndexes = [] → t' = t)) E t := by
  have hrows : (rowIndexes.map (·, value)).map Prod.fst = rowIndexes := by rw [List.map_map]; exact List.map_id _
  have hvalues : forEach (fun replacement => t.validateValue i d.1 replacement.2) (rowIndexes.map (·, value)) = .ok () := by
    refine forEach_eq_ok.2 fun replacement hreplacement => ?_
    obtain ⟨_, _, rfl⟩ := List.mem_map.1 hreplacement
    exact hvalue
  obtain ⟨physical, hphysical, hkind, hlen⟩ := h.column_of_declared hd
  have hadmits : ∀ replacement ∈ rowIndexes.map (·, value), Column.Admits physical.kind replacement.2 := by
    intro replacement hreplacement
    rw [hkind]
    exact validateValue_eq_ok h hd (forEach_eq_ok.1 hvalues replacement hreplacement)
  have hinside : ∀ replacement ∈ rowIndexes.map (·, value), 0 ≤ replacement.1 ∧ replacement.1 < physical.len := by
    intro replacement hreplacement
    obtain ⟨row, hrow, rfl⟩ := List.mem_map.1 hreplacement
    exact ⟨Nat.zero_le _, hlen ▸ inside row hrow⟩
  obtain ⟨physical', removed, added, hreplace, hkind', hlen', hbytes, hremoved⟩ :=
    Column.replaceValues_spec 0 0 0 hadmits hinside (hrows.symm ▸ sorted)
  rw [replaceColumnValues, wp_bind, wp_read, hi, wp_bind, wp_call_ok, wp_bind, hrows,
    validateRowSelection_eq_ok.2 ⟨inside, sorted⟩, wp_call_ok]
  simp only [wp_bind, h.schema_getElem?, hd, Option.map_some, orPanic_some, wp_call_ok, hphysical, hreplace, wp_write]
  rw [show forEach _ (rowIndexes.map (·, value)) = Exec.ok () from hvalues, wp_call_ok]
  have hretained := retainedBytes_set physical' hphysical
  have hle := retainedBytes_le hphysical
  have hstring := physical.stringBytesFrom_le
  have htotal : t.retainedValueBytes - removed + added = retainedBytes (t.columns.set i physical') := by
    rw [h.retained]; omega
  have ht' := h.withColumns (fits_set h.fits hphysical hkind' hlen') (Nat.le_refl _) htotal
  have hcolumns : (List.range t.rowCount).mapM (fun row => (t.columns.set i physical').mapM (Column.value row)) =
      t.updatedRows i value rowIndexes := by
    refine mapM_congr fun row hrow => ?_
    have hcell := replaceValues_value hreplace row
    obtain ⟨old, hold⟩ := column_value physical (hlen ▸ List.mem_range.1 hrow)
    by_cases hmem : row ∈ rowIndexes
    · simp only [if_pos hmem] at hcell ⊢
      exact mapM_set hphysical hold hcell
    · simp only [if_neg hmem] at hcell ⊢
      rw [mapM_set_of_eq hphysical hcell, Option.map_id']
      rfl
  rw [List.length_map]
  split
  · rename_i hne
    rw [wp_bind]
    refine wp_mono (wp_and (markValuesMutated_wp ht') fun _ _ hrun => markValuesMutated_contents hrun) ?_ fun _ _ he => he
    intro _ t' hmarks
    obtain ⟨hmarked, hschema, hcontents, hrowCount⟩ := hmarks
    refine ⟨rfl, hmarked.1, hschema, ?_, fun hempty => absurd (congrArg List.length hempty) hne⟩
    rw [rows_congr hcontents hrowCount]
    exact hcolumns
  · rename_i hzero
    obtain rfl := List.eq_nil_of_length_eq_zero (not_not.1 hzero)
    obtain ⟨rfl, hunchanged⟩ := Prod.mk.inj (Option.some.inj hreplace)
    obtain ⟨rfl, rfl⟩ := Prod.mk.inj hunchanged
    obtain ⟨hlt, rfl⟩ := List.getElem?_eq_some_iff.1 hphysical
    have hset : t.columns.set i t.columns[i] = t.columns := List.set_getElem_self hlt
    refine ⟨rfl, ht', rfl, hcolumns, fun _ => ?_⟩
    rw [hset]
    rfl

end

end Table

end RustHouse.Batch
