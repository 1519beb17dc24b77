import RustHouse.DatabaseStatements
import RustHouse.TableSound

/-!
# INSERT with a list of columns

A row for some named columns stands for a row of the whole table: each column
has the value under its name, or its default. Inserting the one or the other
comes to the same.
-/

namespace RustHouse.Batch

open Checked (usizeMax saturatingAdd)
open Exec Words KeyedTotals Method

namespace Table

/-- The row in schema order that the values of some named columns stand for. -/
def fullRow (t : Table) (names : List String) (row : List Value) : List Value :=
  (t.schema.zip t.columns).map fun (field, column) =>
    ((names.zip row).find? fun input => eqIgnoreAsciiCase input.1 field.name).elim (defaultValue column) Prod.snd

def Names (t : Table) (name : String) (i : Nat) : Prop :=
  ∃ field, t.schema[i]? = some field ∧ eqIgnoreAsciiCase name field.name = true

/-! ## Positions of names -/

section
variable {declared : List Declared} {t : Table}

theorem lookup_of_nodup {α β : Type} [BEq α] [LawfulBEq α] {entries : List (α × β)} {key : α} {value : β}
    (hnodup : (entries.map Prod.fst).Nodup) (h : (key, value) ∈ entries) : entries.lookup key = some value := by
  induction entries with
  | nil => cases h
  | cons entry entries ih =>
    obtain ⟨hfirst, hrest⟩ := List.nodup_cons.1 hnodup
    rw [List.lookup_cons]
    rcases List.mem_cons.1 h with rfl | h
    · rw [beq_self_eq_true]
    · have hne : key ≠ entry.1 := fun heq => hfirst (List.mem_map.2 ⟨_, h, heq⟩)
      rw [beq_false_of_ne hne]
      exact ih hrest h

theorem Names.unique (h : Consistent declared t) {a b : String} {i j : Nat} (ha : t.Names a i) (hb : t.Names b j) :
    i = j ↔ eqIgnoreAsciiCase a b = true := by
  obtain ⟨field, hi, ha⟩ := ha
  obtain ⟨field', hj, hb⟩ := hb
  rw [eqIgnoreAsciiCase_iff] at ha hb ⊢
  constructor
  · rintro rfl
    obtain rfl := Option.some.inj (hi.symm.trans hj)
    exact ha.trans hb.symm
  · intro hab
    obtain ⟨hilt, rfl⟩ := List.getElem?_eq_some_iff.1 hi
    obtain ⟨hjlt, rfl⟩ := List.getElem?_eq_some_iff.1 hj
    have hi' : i < (t.schema.map fun field => toAsciiLowercase field.name).length := by rwa [List.length_map]
    have hj' : j < (t.schema.map fun field => toAsciiLowercase field.name).length := by rwa [List.length_map]
    refine (@List.Nodup.getElem_inj_iff _ _ h.distinct i hi' j hj').1 ?_
    rw [List.getElem_map, List.getElem_map, ← ha, ← hb, hab]

theorem schemaIndexesByName_names (h : Consistent declared t) {name : String} {i : Nat} (hname : t.Names name i) :
    t.schemaIndexesByName.lookup (toAsciiLowercase name) = some i := by
  obtain ⟨field, hi, hname⟩ := hname
  rw [eqIgnoreAsciiCase_iff] at hname
  have hkeys : (t.schemaIndexesByName.map Prod.fst) = (t.schema.map fun field => toAsciiLowercase field.name).reverse := by
    rw [schemaIndexesByName, List.map_reverse, List.map_map]
    refine congrArg List.reverse ?_
    conv_rhs => rw [← List.zipIdx_map_fst 0 t.schema, List.map_map]
    rfl
  refine lookup_of_nodup ?_ ?_
  · rw [hkeys]
    exact List.nodup_reverse.2 h.distinct
  · rw [schemaIndexesByName, List.mem_reverse]
    refine List.mem_map.2 ⟨(field, i), List.mem_zipIdx_iff_getElem?.2 hi, ?_⟩
    rw [hname]

theorem positions_exist {names : List String} (hknown : ∀ name ∈ names, ∃ field ∈ t.schema, eqIgnoreAsciiCase name field.name = true) :
    ∃ schemaIndexes, List.Forall₂ t.Names names schemaIndexes := by
  induction names with
  | nil => exact ⟨[], .nil⟩
  | cons name names ih =>
    obtain ⟨⟨field, hfield, hname⟩, hrest⟩ := List.forall_mem_cons.1 hknown
    obtain ⟨schemaIndexes, hindexes⟩ := ih hrest
    obtain ⟨i, hi⟩ := List.mem_iff_getElem?.1 hfield
    exact ⟨i :: schemaIndexes, .cons ⟨field, hi, hname⟩ hindexes⟩

theorem positions_inside {names : List String} {schemaIndexes : List Nat} (h : List.Forall₂ t.Names names schemaIndexes) :
    ∀ i ∈ schemaIndexes, i < t.schema.length := by
  induction h with
  | nil => exact List.forall_mem_nil _
  | cons hname _ ih =>
    obtain ⟨_, hi, _⟩ := hname
    exact List.forall_mem_cons.2 ⟨(List.getElem?_eq_some_iff.1 hi).1, ih⟩

theorem positions_nodup (h : Consistent declared t) {names : List String} {schemaIndexes : List Nat}
    (hnames : List.Forall₂ t.Names names schemaIndexes)
    (hdistinct : names.Pairwise fun a b => eqIgnoreAsciiCase a b = false) : schemaIndexes.Nodup := by
  induction hnames with
  | nil => exact List.nodup_nil
  | @cons name i names schemaIndexes hname hnames ih =>
    obtain ⟨hfirst, hrest⟩ := List.pairwise_cons.1 hdistinct
    refine List.nodup_cons.2 ⟨fun hmem => ?_, ih hrest⟩
    obtain ⟨k, hk⟩ := List.mem_iff_getElem?.1 hmem
    obtain ⟨hlt, hi⟩ := List.getElem?_eq_some_iff.1 hk
    have hlt' : k < names.length := hnames.length_eq ▸ hlt
    have hsame := (Names.unique h hname (hnames.get hlt' hlt)).1 hi.symm
    exact Bool.false_ne_true ((hfirst _ (List.get_mem _ ⟨k, hlt'⟩)).symm.trans hsame)

theorem resolveInsertColumns_names (h : Consistent declared t) {names : List String} {before schemaIndexes : List Nat}
    (hnames : List.Forall₂ t.Names names schemaIndexes) (hnodup : schemaIndexes.Nodup)
    (hfresh : ∀ i ∈ schemaIndexes, i ∉ before) : t.resolveInsertColumns before names = .ok (before ++ schemaIndexes) := by
  induction hnames generalizing before with
  | nil => rw [List.append_nil]; rfl
  | @cons name i names schemaIndexes hname hnames ih =>
    obtain ⟨hnot, hnodup⟩ := List.nodup_cons.1 hnodup
    obtain ⟨hfirst, hfresh⟩ := List.forall_mem_cons.1 hfresh
    rw [resolveInsertColumns, schemaIndexesByName_names h hname, getOr_some, Exec.ok_bind, rejectIf_of_not hfirst,
      Exec.ok_bind, ih hnodup, List.append_assoc]
    · rfl
    · intro j hj hmem
      rcases List.mem_append.1 hmem with hmem | hmem
      · exact hfresh j hj hmem
      · exact hnot (List.mem_singleton.1 hmem ▸ hj)

/-! ## Assignment -/

theorem find_named (h : Consistent declared t) {names : List String} {schemaIndexes : List Nat}
    (hnames : List.Forall₂ t.Names names schemaIndexes) {j : Nat} {field : ColumnDef} (hj : t.schema[j]? = some field)
    (row : List Value) :
    ((names.zip row).find? fun input => eqIgnoreAsciiCase input.1 field.name).map Prod.snd =
      ((schemaIndexes.zip row).find? fun input => input.1 = j).map Prod.snd := by
  have hfield : t.Names field.name j := ⟨field, hj, eqIgnoreAsciiCase_iff.2 rfl⟩
  induction hnames generalizing row with
  | nil => rfl
  | @cons name i names schemaIndexes hname hnames ih =>
    cases row with
    | nil => rfl
    | cons value row =>
      have hunique := Names.unique h hname hfield
      rw [List.zip_cons_cons, List.zip_cons_cons, List.find?_cons, List.find?_cons]
      by_cases hi : i = j
      · rw [hunique.1 hi, decide_eq_true hi]
        rfl
      · rw [Bool.eq_false_iff.2 (mt hunique.2 hi), decide_eq_false hi]
        exact ih row

/-- Assignment gives each position its value, and leaves the others. -/
theorem assignValues_find {row source : List Value} {schemaIndexes : List Nat} (inside : ∀ i ∈ schemaIndexes, i < row.length)
    (hnodup : schemaIndexes.Nodup) : ∃ row', assignValues row source schemaIndexes = some row' ∧
      ∀ j : Nat, row'[j]? = ((schemaIndexes.zip source).find? fun input => input.1 = j).elim row[j]? fun input => some input.2 := by
  induction schemaIndexes generalizing row source with
  | nil => exact ⟨row, by cases source <;> rfl, fun _ => rfl⟩
  | cons i schemaIndexes ih =>
    cases source with
    | nil => exact ⟨row, rfl, fun _ => rfl⟩
    | cons value source =>
      obtain ⟨hi, hinside⟩ := List.forall_mem_cons.1 inside
      obtain ⟨hnot, hnodup⟩ := List.nodup_cons.1 hnodup
      obtain ⟨row', hassign, hvalues⟩ := @ih (row.set i value) source (by rwa [List.length_set]) hnodup
      refine ⟨row', ?_, fun j => ?_⟩
      · simp only [assignValues, setIndex, if_pos hi]
        exact hassign
      · rw [hvalues, List.zip_cons_cons, List.find?_cons]
        by_cases hj : i = j
        · have hnone : ((schemaIndexes.zip source).find? fun input => input.1 = j) = none := by
            refine List.find?_eq_none.2 fun input hinput heq => hnot ?_
            rw [hj, ← of_decide_eq_true heq]
            exact (List.of_mem_zip hinput).1
          rw [hnone, decide_eq_true hj, hj, Option.elim_none, List.getElem?_set_self (hj ▸ hi)]
          rfl
        · rw [decide_eq_false hj, List.getElem?_set_ne hj]

theorem length_fullRow (h : Consistent declared t) (names : List String) (row : List Value) :
    (t.fullRow names row).length = t.schema.length := by
  rw [fullRow, List.length_map, List.length_zip, h.columns_length, Nat.min_self]

theorem assignValues_fullRow (h : Consistent declared t) {names : List String} {schemaIndexes : List Nat}
    (hnames : List.Forall₂ t.Names names schemaIndexes) (hnodup : schemaIndexes.Nodup) (row : List Value) :
    assignValues (declared.map Declared.default) row schemaIndexes = some (t.fullRow names row) := by
  have hinside : ∀ i ∈ schemaIndexes, i < (declared.map Declared.default).length := by
    rw [List.length_map, h.declared_length]
    exact positions_inside hnames
  obtain ⟨row', hassign, hvalues⟩ := @assignValues_find _ row _ hinside hnodup
  rw [hassign, Option.some.injEq]
  refine List.ext_getElem? fun j => ?_
  rw [hvalues]
  cases hd : declared[j]? with
  | none =>
    have hout : t.schema.length ≤ j := by
      rw [← h.declared_length]
      exact List.getElem?_eq_none_iff.1 hd
    have hnone : ((schemaIndexes.zip row).find? fun input => input.1 = j) = none := by
      refine List.find?_eq_none.2 fun input hinput heq => ?_
      have hlt := positions_inside hnames input.1 (List.of_mem_zip hinput).1
      rw [of_decide_eq_true heq] at hlt
      omega
    rw [hnone, Option.elim_none, List.getElem?_map, hd, List.getElem?_eq_none (by rwa [length_fullRow h])]
    rfl
  | some d =>
    obtain ⟨column, hcolumn, hkind, _⟩ := h.column_of_declared hd
    have hfield : t.schema[j]? = some d.1 := by rw [h.schema_getElem?, hd]; rfl
    have hzip : (t.schema.zip t.columns)[j]? = some (d.1, column) := List.getElem?_zip_eq_some.2 ⟨hfield, hcolumn⟩
    have hfind := find_named h hnames hfield row
    rw [List.getElem?_map, hd, fullRow, List.getElem?_map, hzip, Option.map_some, Option.map_some]
    dsimp only
    rw [defaultValue_of_kind hkind]
    revert hfind
    cases (schemaIndexes.zip row).find? fun input => input.1 = j <;>
      cases (names.zip row).find? fun input => eqIgnoreAsciiCase input.1 d.1.name <;>
      intro hfind
    · rfl
    · cases hfind
    · cases hfind
    · exact hfind.symm

/-! ## Validation -/

theorem validateValue_default (h : Consistent declared t) {column : Nat} {d : Declared} (hd : declared[column]? = some d) :
    t.validateValue column d.1 d.default = .ok () := by
  obtain ⟨physical, hphysical, hkind, _⟩ := h.column_of_declared hd
  obtain ⟨⟨name, dataType⟩, nullable⟩ := d
  cases nullable with
  | true =>
    have hnullable : physical.isNullableInt64 = true := congrArg Prod.snd hkind
    simp [Declared.default, validateValue, hphysical, hnullable]
  | false => cases dataType <;> rfl

theorem Chosen.cons_iff {source defaults row : List Value} {indexes : List (Option Nat)} {d value : Value}
    {input : Option Nat} : Chosen source (d :: defaults) (input :: indexes) (value :: row) ↔
      some value = input.elim (some d) (fun i => source[i]?) ∧ Chosen source defaults indexes row := by
  constructor
  · intro h
    exact ⟨h.value 0, Nat.succ.inj h.length, fun j => h.value (j + 1)⟩
  · intro ⟨hvalue, h⟩
    refine ⟨congrArg Nat.succ h.length, fun j => ?_⟩
    cases j with
    | zero => exact hvalue
    | succ j => exact h.value j

theorem validateProjected_eq (h : Consistent declared t) {source : List Value} {column : Nat} {rest : List Declared}
    {indexes : List (Option Nat)} {row : List Value} (hrest : declared.drop column = rest)
    (hlen : indexes.length = rest.length) (hrow : Chosen source (rest.map Declared.default) indexes row) :
    t.validateProjected source column (rest.map Prod.fst) indexes = t.validateValues column (rest.map Prod.fst) row := by
  induction rest generalizing column indexes row with
  | nil =>
    obtain rfl := List.eq_nil_of_length_eq_zero hlen
    obtain rfl := List.eq_nil_of_length_eq_zero hrow.length
    rfl
  | cons d rest ih =>
    obtain ⟨input, indexes, rfl⟩ := List.exists_cons_of_length_eq_add_one hlen
    obtain ⟨value, row, rfl⟩ := List.exists_cons_of_length_eq_add_one hrow.length
    have hd : declared[column]? = some d := by rw [← List.head?_drop, hrest]; rfl
    have hnext : declared.drop (column + 1) = rest := by rw [← List.drop_drop, hrest]; rfl
    obtain ⟨hvalue, hrow⟩ := Chosen.cons_iff.1 hrow
    have hrest := ih hnext (Nat.succ.inj hlen) hrow
    rw [List.map_cons, validateValues]
    cases input with
    | none =>
      obtain rfl := Option.some.inj hvalue
      rw [validateProjected, validateValue_default h hd, Exec.ok_bind, hrest]
    | some i => rw [validateProjected, show source[i]? = some value from hvalue.symm, orPanic_some, Exec.ok_bind, hrest]

theorem validateProjected_fullRow (h : Consistent declared t) {names : List String} {schemaIndexes : List Nat}
    (hnames : List.Forall₂ t.Names names schemaIndexes) (hnodup : schemaIndexes.Nodup) {indexes : List (Option Nat)}
    (hindexes : inputIndexesBySchema 0 (List.replicate t.schema.length none) schemaIndexes = some indexes)
    (hlength : indexes.length = t.schema.length) {row : List Value} (hrow : row.length = names.length) :
    t.validateProjected row 0 t.schema indexes = t.validateRow (t.fullRow names row) := by
  have hdefaults : (declared.map Declared.default).length = t.schema.length := by
    rw [List.length_map, h.declared_length]
  obtain ⟨row', hassign, hchosen⟩ := assignValues_chosen hindexes List.drop_zero (hrow.trans hnames.length_eq)
    (hdefaults ▸ chosen_defaults row (declared.map Declared.default))
  obtain rfl := Option.some.inj ((assignValues_fullRow h hnames hnodup row).symm.trans hassign)
  have heq := validateProjected_eq h List.drop_zero (hlength.trans h.declared_length.symm) hchosen
  rw [← h.schema] at heq
  rw [heq, validateRow, rejectIf_of_not (not_not.2 (length_fullRow h names row))]
  rfl

end

/-! ## Appending -/

section
variable {t t' : Table}

def columnDefaults (t : Table) : List Value := (t.schema.zip t.columns).map fun (_, column) => defaultValue column

theorem push_default {column column' : Column} {value : Value} {bytes : Nat}
    (h : column.push value = some (column', bytes)) : defaultValue column' = defaultValue column := by
  unfold Column.push at h
  split at h
  · obtain ⟨rfl, _⟩ := Prod.mk.inj (Option.some.inj h)
    rfl
  · obtain ⟨rfl, _⟩ := Prod.mk.inj (Option.some.inj h)
    rfl
  · obtain ⟨rfl, _⟩ := Prod.mk.inj (Option.some.inj h)
    rfl
  · obtain ⟨rfl, _⟩ := Prod.mk.inj (Option.some.inj h)
    rfl
  · obtain ⟨rfl, _⟩ := Prod.mk.inj (Option.some.inj h)
    rfl
  · obtain ⟨rfl, _⟩ := Prod.mk.inj (Option.some.inj h)
    rfl
  · cases h

theorem pushRow_defaults {added bytes : Nat} {columns columns' : List Column} {row : List Value}
    (h : pushRow added columns row = some (columns', bytes)) : columns'.map defaultValue = columns.map defaultValue := by
  induction columns generalizing added row columns' bytes with
  | nil =>
    obtain ⟨rfl, _⟩ := Prod.mk.inj (Option.some.inj h)
    rfl
  | cons column columns ih =>
    cases row with
    | nil =>
      obtain ⟨rfl, _⟩ := Prod.mk.inj (Option.some.inj h)
      rfl
    | cons value row =>
      obtain ⟨⟨pushed, here⟩, hpushed, h⟩ := Option.bind_eq_some_iff.1 h
      obtain ⟨⟨rest, total⟩, hrest, h⟩ := Option.bind_eq_some_iff.1 h
      obtain ⟨rfl, _⟩ := Prod.mk.inj (Option.some.inj h)
      rw [List.map_cons, List.map_cons, push_default hpushed, ih hrest]

theorem appendValidatedRow_defaults {row : List Value} {u : Unit} (h : appendValidatedRow row t = some (.ok u, t')) :
    t'.columnDefaults = t.columnDefaults := by
  obtain ⟨_, _, hread, h⟩ := bind_eq_ok.1 h
  obtain ⟨rfl, rfl⟩ := read_eq_ok.1 hread
  obtain ⟨⟨columns', bytes⟩, _, hcall, h⟩ := bind_eq_ok.1 h
  obtain ⟨hpush, rfl⟩ := call_eq_ok.1 hcall
  obtain rfl := write_eq_ok.1 h
  have hdefaults := pushRow_defaults (orPanic_eq_ok.1 hpush)
  have hzip (columns : List Column) : ((t.schema.zip columns).map fun p => defaultValue p.2) =
      (t.schema.zip (columns.map defaultValue)).map Prod.snd := by
    rw [List.zip_map_right, List.map_map]
    rfl
  exact (hzip columns').trans ((congrArg (fun values => (t.schema.zip values).map Prod.snd) hdefaults).trans
    (hzip t.columns).symm)

theorem appendDefaulted_eq {defaults : List Value} {schemaIndexes : List Nat} {rows : List (List Value)}
    {full : List Value → List Value} (hassign : ∀ row, assignValues defaults row schemaIndexes = some (full row))
    (hdefaults : t.columnDefaults = defaults) : appendDefaulted schemaIndexes rows t = appendEach (rows.map full) t := by
  induction rows generalizing t with
  | nil => rfl
  | cons row rows ih =>
    have hrow : orPanic (assignValues t.columnDefaults row schemaIndexes) = (.ok (full row) : Exec Error (List Value)) := by
      rw [hdefaults, hassign]
      rfl
    show (call (orPanic (assignValues t.columnDefaults row schemaIndexes)) >>= fun row =>
      appendValidatedRow row >>= fun _ => appendDefaulted schemaIndexes rows) t = _
    rw [hrow]
    have hstep : (appendValidatedRow (full row) >>= fun _ => appendDefaulted schemaIndexes rows) t =
        (appendValidatedRow (full row) >>= fun _ => appendEach (rows.map full)) t :=
      Method.bind_congr rfl fun _ _ happend => ih ((appendValidatedRow_defaults happend).trans hdefaults)
    exact hstep

end

/-! ## Insertion -/

/-- Two preparations that succeed together, append as many rows and append the same to every table of the
same columns, or that fail with the same error. -/
def SameInsert (declared : List Declared) : Exec Error PreparedInsertRows → Exec Error PreparedInsertRows → Prop
  | .ok prepared, .ok full => prepared.rows.length = full.rows.length ∧
      ∀ t, Consistent declared t → appendPreparedInsertRows prepared t = appendPreparedInsertRows full t
  | .error e, .error e' => e = e'
  | _, _ => False

section
variable {declared : List Declared} {t : Table}

theorem forEach_map_congr {α β : Type} {check : α → Exec Error Unit} {check' : β → Exec Error Unit} {f : α → β} {as : List α}
    (h : ∀ a ∈ as, check a = check' (f a)) : forEach check as = forEach check' (as.map f) := by
  induction as with
  | nil => rfl
  | cons a as ih =>
    obtain ⟨ha, has⟩ := List.forall_mem_cons.1 h
    rw [List.map_cons, forEach, forEach, ha, ih has]

theorem fullRow_range (h : Consistent declared t) {names : List String} (hnames : List.Forall₂ t.Names names (List.range t.schema.length))
    {row : List Value} (hrow : row.length = names.length) : t.fullRow names row = row := by
  have hlength : (declared.map Declared.default).length = row.length := by
    rw [List.length_map, h.declared_length, hrow, hnames.length_eq, List.length_range]
  have hassign := assignValues_fullRow h hnames List.nodup_range row
  have hrange := assignValues_range [] hlength
  rw [← hlength, List.length_map, h.declared_length, List.length_nil, ← List.range_eq_range'] at hrange
  exact Option.some.inj (hassign.symm.trans hrange)

theorem prepareInsertRows_names (h : Consistent declared t) {names : List String} (hne : names ≠ [])
    {schemaIndexes : List Nat} (hnames : List.Forall₂ t.Names names schemaIndexes) (hnodup : schemaIndexes.Nodup)
    {rows : List (List Value)} (hrows : ∀ row ∈ rows, row.length = names.length) (capacityRows : Nat) :
    t.prepareInsertRows (some names) rows capacityRows = (do
      t.validateRowCapacity capacityRows
      forEach t.validateRow (rows.map (t.fullRow names))
      .ok ⟨rows, if schemaIndexes = List.range t.schema.length then none else some schemaIndexes⟩) := by
  have hinside : ∀ i ∈ schemaIndexes, i < (List.replicate t.schema.length (none : Option Nat)).length := by
    rw [List.length_replicate]
    exact positions_inside hnames
  obtain ⟨indexes, hindexes, hlength, _⟩ := inputIndexesBySchema_spec 0 _ hinside
    fun i hi => absurd (List.eq_of_mem_replicate hi) (Option.some_ne_none i)
  rw [List.length_replicate] at hlength
  have hwidth : forEach (fun row : List Value => rejectIf (row.length ≠ names.length)
      (Error.rowLength t.name names.length row.length)) rows = .ok () :=
    forEach_eq_ok.2 fun row hrow => rejectIf_of_not (not_not.2 (hrows row hrow))
  have hvalidate := forEach_map_congr fun row hrow =>
    validateProjected_fullRow h hnames hnodup hindexes hlength (hrows row hrow)
  simp only [prepareInsertRows, if_neg hne]
  rw [resolveInsertColumns_names h hnames hnodup fun _ _ => List.not_mem_nil, Exec.ok_bind, List.nil_append, hwidth,
    Exec.ok_bind, prepareProjectedRowsWithCapacity, hindexes, orPanic_some, Exec.ok_bind, ← hnames.length_eq, hwidth,
    Exec.ok_bind, hvalidate]

structure ColumnList (t : Table) (names : List String) : Prop where
  known : ∀ name ∈ names, ∃ field ∈ t.schema, eqIgnoreAsciiCase name field.name = true
  distinct : names.Pairwise fun a b => eqIgnoreAsciiCase a b = false

theorem ColumnList.positions (h : Consistent declared t) {names : List String} (hlist : t.ColumnList names) :
    ∃ schemaIndexes, List.Forall₂ t.Names names schemaIndexes ∧ schemaIndexes.Nodup := by
  obtain ⟨schemaIndexes, hnames⟩ := positions_exist hlist.known
  exact ⟨schemaIndexes, hnames, positions_nodup h hnames hlist.distinct⟩

variable {names : List String} {rows : List (List Value)}

theorem map_fullRow_range (h : Consistent declared t) (hnames : List.Forall₂ t.Names names (List.range t.schema.length))
    (hrows : ∀ row ∈ rows, row.length = names.length) : rows.map (t.fullRow names) = rows :=
  (List.map_congr_left fun row hrow => fullRow_range h hnames (hrows row hrow)).trans (List.map_id rows)

theorem append_fullRows (h : Consistent declared t) {schemaIndexes : List Nat}
    (hnames : List.Forall₂ t.Names names schemaIndexes) (hnodup : schemaIndexes.Nodup)
    (hrows : ∀ row ∈ rows, row.length = names.length) {t' : Table} (h' : Consistent declared t') :
    appendPreparedInsertRows
        ⟨rows, if schemaIndexes = List.range t.schema.length then none else some schemaIndexes⟩ t' =
      appendPreparedInsertRows ⟨rows.map (t.fullRow names), none⟩ t' := by
  by_cases hrange : schemaIndexes = List.range t.schema.length
  · subst hrange
    rw [if_pos rfl, map_fullRow_range h hnames hrows]
  · have happend := @appendDefaulted_eq t' _ _ rows _ (assignValues_fullRow h hnames hnodup) h'.defaults
    rw [if_neg hrange]
    refine Method.bind_congr happend fun _ t'' _ => ?_
    simp only [ne_eq, List.map_eq_nil_iff]

theorem prepareInsertRows_fullRows (h : Consistent declared t) (hlist : t.ColumnList names) (hne : names ≠ [])
    (hrows : ∀ row ∈ rows, row.length = names.length) (capacityRows : Nat) :
    SameInsert declared (t.prepareInsertRows (some names) rows capacityRows)
      (t.prepareInsertRows none (rows.map (t.fullRow names)) capacityRows) := by
  obtain ⟨schemaIndexes, hnames, hnodup⟩ := hlist.positions h
  rw [prepareInsertRows_names h hne hnames hnodup hrows]
  simp only [prepareInsertRows]
  cases hcapacity : t.validateRowCapacity capacityRows with
  | panic => exact absurd hcapacity (validateRowCapacity_ne_panic t capacityRows)
  | error e => rfl
  | ok =>
    cases hvalid : forEach t.validateRow (rows.map (t.fullRow names)) with
    | panic => exact absurd hvalid (forEach_ne_panic fun row _ => (validateRow_spec h row).1)
    | error e => rfl
    | ok => exact ⟨(List.length_map _).symm, fun t' h' => append_fullRows h hnames hnodup hrows h'⟩

theorem prepareInsertRows_single (h : Consistent declared t) (hlist : t.ColumnList names) (hne : names ≠ [])
    (hrows : ∀ row ∈ rows, row.length = names.length) (hsingle : t.schema.length = 1) (capacityRows : Nat) :
    t.prepareInsertRows (some names) rows capacityRows =
      t.prepareInsertRows none (rows.map (t.fullRow names)) capacityRows := by
  obtain ⟨schemaIndexes, hnames, hnodup⟩ := hlist.positions h
  have hinside := positions_inside hnames
  have hrange : schemaIndexes = List.range t.schema.length := by
    rw [hsingle] at hinside ⊢
    have hzero : ∀ i ∈ schemaIndexes, i = 0 := fun i hi => Nat.lt_one_iff.1 (hinside i hi)
    cases hnames with
    | nil => exact absurd rfl hne
    | @cons _ i _ rest =>
      obtain ⟨rfl, hrest⟩ := List.forall_mem_cons.1 hzero
      obtain ⟨hfirst, _⟩ := List.nodup_cons.1 hnodup
      cases rest with
      | nil => rfl
      | cons j rest => exact absurd (hrest j (List.mem_cons_self ..)) fun heq => hfirst (heq ▸ List.mem_cons_self ..)
  subst hrange
  rw [prepareInsertRows_names h hne hnames hnodup hrows, if_pos rfl, map_fullRow_range h hnames hrows]
  rfl

end

end Table

/-! ## Statements -/

section
variable {declared : List Declared} {t : Table} {names : List String} {rows : List (List Value)}

theorem executeInsertStatement_fullRows (h : Table.Consistent declared t) (hlist : t.ColumnList names) (hne : names ≠ [])
    (hrows : ∀ row ∈ rows, row.length = names.length) (io : CommitIo) {db : Database} {table : String}
    (hfound : db.catalog.table table = .ok t) (hlogged : db.walTracks table = true → t.schema.length = 1) :
    Database.executeInsertStatement io table (some names) rows db =
      Database.executeInsertStatement io table none (rows.map (t.fullRow names)) db := by
  have hlookup : db.catalog.tables.lookup (normalize table) = some t := getOr_eq_ok.1 hfound
  rw [Database.executeInsertStatement, Database.executeInsertStatement, List.length_map]
  refine Method.bind_congr rfl fun _ _ hread => Method.bind_congr rfl fun target db' hcall => ?_
  obtain ⟨rfl, rfl⟩ := read_eq_ok.1 hread
  obtain ⟨htarget, rfl⟩ := call_eq_ok.1 hcall
  obtain rfl := Exec.ok.inj (hfound.symm.trans htarget)
  cases htracked : db.walTracks table with
  | true => rw [Table.prepareInsertRows_single h hlist hne hrows (hlogged htracked)]
  | false =>
    have hlog (prepared : PreparedInsertRows) : Database.logPreparedInt64Append io table prepared db = some (.ok (), db) := by
      show (if db.walTracks table then _ else pure () : Method Database Error Unit) db = _
      rw [htracked]
      rfl
    have hsame := Table.prepareInsertRows_fullRows h hlist hne hrows rows.length
    revert hsame
    cases t.prepareInsertRows (some names) rows rows.length <;>
      cases t.prepareInsertRows none (rows.map (t.fullRow names)) rows.length <;> intro hsame
    case ok.ok prepared full =>
      obtain ⟨hlength, happend⟩ := hsame
      have hmut : Database.tableMut table (Table.appendPreparedInsertRows prepared) db =
          Database.tableMut table (Table.appendPreparedInsertRows full) db := by
        simp only [Database.tableMut, hlookup, happend t h]
      have hcommit (rows : PreparedInsertRows) : (call (.ok rows) >>= fun rows => do
            Database.logPreparedInt64Append io table rows
            Database.tableMut table (Table.appendPreparedInsertRows rows)
            return StatementResult.command "INSERT" rows.rows.length) db =
          (Database.logPreparedInt64Append io table rows >>= fun _ => do
            Database.tableMut table (Table.appendPreparedInsertRows rows)
            return StatementResult.command "INSERT" rows.rows.length) db := rfl
      rw [hcommit, hcommit]
      refine Method.bind_congr (hlog prepared |>.trans (hlog full).symm) fun _ db' hlogged => ?_
      obtain rfl := (Prod.mk.inj (Option.some.inj ((hlog full).symm.trans hlogged))).2
      refine Method.bind_congr hmut fun _ _ _ => ?_
      rw [hlength]
    case error.error e e' => rw [show e = e' from hsame]
    all_goals exact hsame.elim

end

/-- **INSERT with a list of columns.** Rows for some named columns, each named once, are prepared as the full rows
that they stand for: with the same error or none, for any capacity, and to the same table. So are the statements. -/
theorem insert_columns {declared : List Declared} {t : Table} (h : Table.Reachable declared t) {names : List String}
    (hlist : t.ColumnList names) (hne : names ≠ []) {rows : List (List Value)}
    (hrows : ∀ row ∈ rows, row.length = names.length) :
    (∀ capacityRows, Table.SameInsert declared (t.prepareInsertRows (some names) rows capacityRows)
      (t.prepareInsertRows none (rows.map (t.fullRow names)) capacityRows)) ∧
    ∀ io db table, db.catalog.table table = .ok t → (db.walTracks table = true → t.schema.length = 1) →
      Database.executeInsertStatement io table (some names) rows db =
        Database.executeInsertStatement io table none (rows.map (t.fullRow names)) db :=
  ⟨Table.prepareInsertRows_fullRows (Table.reachable_consistent h) hlist hne hrows,
    fun io _ _ => executeInsertStatement_fullRows (Table.reachable_consistent h) hlist hne hrows io⟩

def itemsSample : Table :=
  ⟨"t", [⟨"a", .int64⟩, ⟨"b", .string⟩, ⟨"c", .bool⟩], [.int64 [], .string [], .bool []], 0, 0, .default, 0, none, none⟩

def itemsDeclared : List Declared := [(⟨"a", .int64⟩, false), (⟨"b", .string⟩, false), (⟨"c", .bool⟩, false)]

theorem itemsSample_reachable : Table.Reachable itemsDeclared itemsSample :=
  .withLimits (by decide +kernel :
    Table.withLimits "t" [⟨"a", .int64⟩, ⟨"b", .string⟩, ⟨"c", .bool⟩] .default = .ok itemsSample)

/-- A database with that table alone. -/
def itemsDatabase : Database := { Database.new with catalog := ⟨Catalog.new.tables.insert "t" itemsSample⟩ }

/-- The list names the third column and then the first, and leaves out the second. -/
theorem insert_columns_sample :
    itemsSample.fullRow ["C", "A"] [.bool true, .int64 1] = [.int64 1, .string "", .bool true] ∧
      (∀ capacityRows, Table.SameInsert itemsDeclared
        (itemsSample.prepareInsertRows (some ["C", "A"]) [[.bool true, .int64 1]] capacityRows)
        (itemsSample.prepareInsertRows none [itemsSample.fullRow ["C", "A"] [.bool true, .int64 1]] capacityRows)) ∧
      Database.executeInsertStatement .success "T" (some ["C", "A"]) [[.bool true, .int64 1]] itemsDatabase =
        Database.executeInsertStatement .success "T" none [[.int64 1, .string "", .bool true]] itemsDatabase := by
  have hfull : itemsSample.fullRow ["C", "A"] [.bool true, .int64 1] = [.int64 1, .string "", .bool true] := by
    decide +kernel
  have hlist : itemsSample.ColumnList ["C", "A"] := ⟨by decide +kernel, by decide +kernel⟩
  have hrow : ∀ row ∈ [[Value.bool true, .int64 1]], row.length = ["C", "A"].length := List.forall_mem_singleton.2 rfl
  obtain ⟨hprepared, hstatement⟩ := insert_columns itemsSample_reachable hlist (List.cons_ne_nil _ _) hrow
  have hinsert := hstatement .success itemsDatabase "T" rfl fun hlogged => absurd hlogged Bool.false_ne_true
  rw [List.map_singleton, hfull] at hinsert
  exact ⟨hfull, hprepared, hinsert⟩

/-- A list that leaves out every column is rejected, although the row of defaults is not. -/
theorem no_columns_rejected : Table.Reachable itemsDeclared itemsSample ∧ itemsSample.ColumnList [] ∧
    itemsSample.prepareInsertRows (some []) [[]] 1 = .error (.missingInsertColumn "t" "a") ∧
    itemsSample.prepareInsertRows none ([[]].map (itemsSample.fullRow [])) 1 =
      .ok ⟨[[.int64 0, .string "", .bool false]], none⟩ ∧
    ¬ Table.SameInsert itemsDeclared (itemsSample.prepareInsertRows (some []) [[]] 1)
      (itemsSample.prepareInsertRows none ([[]].map (itemsSample.fullRow [])) 1) := by
  have hrejected : itemsSample.prepareInsertRows (some []) [[]] 1 = .error (.missingInsertColumn "t" "a") := by
    decide +kernel
  have haccepted : itemsSample.prepareInsertRows none ([[]].map (itemsSample.fullRow [])) 1 =
      .ok ⟨[[.int64 0, .string "", .bool false]], none⟩ := by
    decide +kernel
  refine ⟨itemsSample_reachable, ⟨List.forall_mem_nil _, .nil⟩, hrejected, haccepted, fun hsame => ?_⟩
  rw [hrejected, haccepted] at hsame
  exact hsame

end RustHouse.Batch
