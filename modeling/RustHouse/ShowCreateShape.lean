import RustHouse.ShowCreate
import RustHouse.TableSound

/-!
# The shape of SHOW CREATE TABLE

How many columns the first statement creates depends on which columns are
nullable, and on nothing else. A table stays within one batch of statements
when columns are added under the check and when they are dropped.
-/

namespace RustHouse.Batch

open Checked Exec

/-! ## Nullable columns by position -/

/-- The columns of the first statement, from which of all columns are nullable. -/
def createdColumns (nullable : List Bool) : Nat :=
  match nullable.findIdx? id with
  | none => nullable.length
  | some first =>
    if ((nullable.drop first).length ≤ 2 && (nullable.drop first).all id) ∧ nullable.length ≤ defaultMaxAstListItems then
      nullable.length
    else max first 1

/-- The number of statements in the text. -/
def showCreateStatements (nullable : List Bool) : Nat := 1 + (nullable.length - createdColumns nullable)

/-- The columns can be created again by one batch. -/
def Showable (declared : List Declared) : Prop :=
  showCreateStatements (declared.map Prod.snd) ≤ defaultMaxBatchStatements

section
variable {declared : List Declared} {t : Table}

theorem Table.Consistent.nullable (h : Table.Consistent declared t) :
    t.columns.map Column.isNullableInt64 = declared.map Prod.snd := by
  have hfits := h.fits
  revert hfits
  generalize t.columns = columns
  generalize t.rowCount = rows
  intro hfits
  clear h
  induction hfits with
  | nil => rfl
  | cons hd _ ih => exact congrArg₂ List.cons (congrArg Prod.snd hd.1) ih

theorem Table.Consistent.schema_length (h : Table.Consistent declared t) :
    t.schema.length = (declared.map Prod.snd).length := by
  rw [List.length_map, h.declared_length]

theorem findIdx?_nullable (columns : List Column) :
    columns.findIdx? Column.isNullableInt64 = (columns.map Column.isNullableInt64).findIdx? id := by
  rw [List.findIdx?_map]; rfl

theorem all_nullable (columns : List Column) :
    columns.all Column.isNullableInt64 = (columns.map Column.isNullableInt64).all id := by
  rw [List.all_map]; rfl

end

/-! ## Bounds -/

theorem showCreateStatements_of_none {nullable : List Bool} (h : nullable.findIdx? id = none) :
    showCreateStatements nullable = 1 := by
  rw [showCreateStatements, createdColumns, h, Nat.sub_self]

theorem showCreateStatements_le {nullable : List Bool} {first : Nat} (h : nullable.findIdx? id = some first) :
    showCreateStatements nullable ≤ 1 + (nullable.length - max first 1) := by
  rw [showCreateStatements, createdColumns, h]
  dsimp only
  split <;> omega

theorem showable_trailing {declared : List Declared} {columns : List Declared} {nullable : List Declared}
    (hdeclared : declared = columns ++ nullable) (hcolumns : ∀ d ∈ columns, d.2 = false) (hlen : nullable.length ≤ 2) :
    Showable declared := by
  subst hdeclared
  rw [Showable]
  cases hfirst : ((columns ++ nullable).map Prod.snd).findIdx? id with
  | none => rw [showCreateStatements_of_none hfirst]; decide
  | some first =>
    have hge : columns.length ≤ first := by
      apply Nat.le_of_not_lt
      intro hlt
      obtain ⟨hfirstLt, hat, _⟩ := List.findIdx?_eq_some_iff_getElem.1 hfirst
      rw [List.getElem_map, List.getElem_append_left hlt] at hat
      rw [hcolumns _ (List.getElem_mem hlt)] at hat
      cases hat
    have hle := showCreateStatements_le hfirst
    rw [List.length_map, List.length_append] at hle
    have : (3 : Nat) ≤ defaultMaxBatchStatements := by decide
    omega

/-! ## Adding a column -/

theorem statementsAfterAddition {declared : List Declared} {t : Table} (h : Table.Consistent declared t) (added : Bool) :
    showCreateStatementCountAfterAddition t added = showCreateStatements (declared.map Prod.snd ++ [added]) := by
  rw [showCreateStatementCountAfterAddition, showCreateStatements, createdColumns, findIdx?_nullable, h.nullable,
    h.schema_length, List.findIdx?_append, List.length_append, List.length_singleton]
  generalize hnullable : declared.map Prod.snd = nullable
  cases hfirst : nullable.findIdx? id with
  | none =>
    cases added with
    | false => simp
    | true =>
      have hdrop : (t.columns.drop nullable.length).all Column.isNullableInt64 = true := by
        rw [List.drop_eq_nil_of_le (by rw [h.columns_length, h.schema_length, hnullable])]; rfl
      simp only [Option.none_or, if_true, Nat.min_self, hdrop]
      simp
      split <;> omega
  | some first =>
    have hlt := (List.findIdx?_eq_some_iff_getElem.1 hfirst).1
    have hall : (t.columns.drop first).all Column.isNullableInt64 = (nullable.drop first).all id := by
      rw [all_nullable, List.map_drop, h.nullable, hnullable]
    simp only [Option.some_or, Nat.min_eq_left (Nat.le_of_lt hlt), hall, List.drop_append_of_le_length (Nat.le_of_lt hlt),
      List.length_append, List.length_drop, List.length_singleton, List.all_append, List.all_cons, List.all_nil,
      Bool.and_true, id]
    rw [show nullable.length + 1 - first = nullable.length - first + 1 by omega]
    split <;> omega

theorem Showable.added {declared : List Declared} {t : Table} {d : Declared} {field : ColumnDef}
    (h : Table.Consistent declared t) (hadd : validateShowCreateAddition t field d.2 = .ok ()) :
    Showable (declared ++ [d]) := by
  rw [validateShowCreateAddition] at hadd
  rw [Showable, List.map_append, List.map_singleton, ← statementsAfterAddition h]
  split at hadd
  · assumption
  · obtain ⟨_, _, hadd⟩ := Exec.bind_eq_ok.1 hadd
    cases hadd

/-! ## Dropping a column -/

theorem split_at_nullable {nullable : List Bool} {first : Nat} (h : nullable.findIdx? id = some first) :
    ∃ rest, nullable = List.replicate first false ++ true :: rest := by
  induction nullable generalizing first with
  | nil => cases h
  | cons b nullable ih =>
    cases b with
    | true =>
      obtain rfl : first = 0 := by simpa [List.findIdx?_cons] using h.symm
      exact ⟨nullable, rfl⟩
    | false =>
      rw [List.findIdx?_cons, if_neg (by decide)] at h
      obtain ⟨first', hfirst, rfl⟩ := Option.map_eq_some_iff.1 h
      obtain ⟨rest, hrest⟩ := ih hfirst
      exact ⟨rest, by rw [List.replicate_succ, List.cons_append, ← hrest]⟩

theorem showCreateStatements_replicate (count : Nat) (rest : List Bool) :
    showCreateStatements (List.replicate count false ++ rest) ≤ 1 + (count + rest.length - max count 1) := by
  cases hfirst : (List.replicate count false ++ rest).findIdx? id with
  | none => rw [showCreateStatements_of_none hfirst]; exact Nat.le_add_right _ _
  | some first =>
    have hge : count ≤ first := by
      apply Nat.le_of_not_lt
      intro hlt
      obtain ⟨_, hat, _⟩ := List.findIdx?_eq_some_iff_getElem.1 hfirst
      rw [List.getElem_append_left (by rwa [List.length_replicate]), List.getElem_replicate] at hat
      cases hat
    have hle := showCreateStatements_le hfirst
    rw [List.length_append, List.length_replicate] at hle
    omega

theorem showCreateStatements_eraseIdx (nullable : List Bool) (i : Nat) :
    showCreateStatements (nullable.eraseIdx i) ≤ max (showCreateStatements nullable) 3 := by
  cases hfirst : nullable.findIdx? id with
  | none =>
    have hnone : (nullable.eraseIdx i).findIdx? id = none := by
      rw [List.findIdx?_eq_none_iff] at hfirst ⊢
      exact fun b hb => hfirst b (List.mem_of_mem_eraseIdx hb)
    rw [showCreateStatements_of_none hnone]; omega
  | some first =>
    obtain ⟨rest, hrest⟩ := split_at_nullable hfirst
    -- Either the suffix is short, or every column from the first nullable one on has its own statement.
    have hcount : rest.length ≤ 1 ∨ 1 + (first + (rest.length + 1) - max first 1) ≤ showCreateStatements nullable := by
      rw [showCreateStatements, createdColumns, hfirst]
      dsimp only
      rw [hrest, List.drop_append_of_le_length (by rw [List.length_replicate])]
      simp only [List.drop_replicate, Nat.sub_self, List.replicate_zero, List.nil_append, List.length_cons,
        List.length_append, List.length_replicate]
      split
      · rename_i hsupported
        left
        have := (Bool.and_eq_true_iff.1 hsupported.1).1
        simpa using this
      · right; omega
    have herased : showCreateStatements (nullable.eraseIdx i) ≤ 1 + (first + (rest.length + 1) - max first 1) := by
      rw [hrest, List.eraseIdx_append, List.length_replicate]
      split
      · rename_i hi
        rw [List.eraseIdx_replicate, if_pos hi]
        have := showCreateStatements_replicate (first - 1) (true :: rest)
        rw [List.length_cons] at this
        omega
      · refine Nat.le_trans (showCreateStatements_replicate first _) ?_
        have := List.length_eraseIdx_le (true :: rest) (i - first)
        rw [List.length_cons] at this
        omega
    omega

theorem Showable.dropped {declared : List Declared} (h : Showable declared) (column : String) :
    Showable (Table.redeclareDropped declared column) := by
  rw [Table.redeclareDropped, List.eraseP_eq_eraseIdx]
  cases declared.findIdx? fun d => eqIgnoreAsciiCase d.1.name column with
  | none => exact h
  | some i =>
    rw [Showable, ← List.eraseIdx_map]
    refine Nat.le_trans (showCreateStatements_eraseIdx _ _) (max_le h ?_)
    decide

theorem Showable.renamed {declared : List Declared} (h : Showable declared) (source destination : String) :
    Showable (Table.redeclareRenamed declared source destination) := by
  have hkept : ∀ d : Declared, (Table.Declared.renamed destination d).2 = id d.2 := fun _ => rfl
  have hsame := Table.map_modify hkept declared (declared.findIdx fun d => eqIgnoreAsciiCase d.1.name source)
  rw [List.modify_id] at hsame
  rwa [Showable, Table.redeclareRenamed, hsame]

end RustHouse.Batch
