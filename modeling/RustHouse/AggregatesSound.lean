import RustHouse.Aggregates

/-!
# Parallel aggregates agree with sequential ones

Each reducer is a tally: totals are joined in any grouping, a later part keeps
the first group and the first of equal extremes, and checked counters fail only
when the total does not fit.
-/

namespace RustHouse.Batch

open Checked Exec OrderedReduction

theorem checkedAddSigned_eq (bits : Nat) (a b : Int) (e : Error) :
    getOr (checkedAddSigned bits a b) e =
      if -2 ^ (bits - 1) ≤ a + b ∧ a + b < 2 ^ (bits - 1) then .ok (a + b) else .error e := by
  unfold checkedAddSigned
  split <;> rfl

/-- A counter that does not become negative fails when it is too large. -/
theorem checked_counter (e : Error) {a b : Int} (h : 0 ≤ a + b) :
    getOr (checkedAddSigned 64 a b) e = if a + b < 2 ^ 63 then .ok (a + b) else .error e := by
  rw [checkedAddSigned_eq]
  by_cases hgood : a + b < 2 ^ 63
  · rw [if_pos ⟨by omega, hgood⟩, if_pos hgood]
  · rw [if_neg fun hfits => hgood hfits.2, if_neg hgood]

/-- The rows of a selection that a column has; there are no more than an index can count. -/
structure Selects (length : Nat) (matchingRows : List Nat) : Prop where
  inRange : ∀ row ∈ matchingRows, row < length
  count : matchingRows.length ≤ usizeMax

/-! ## Counts -/

/-- How many of some tests are passed, as long as a signed counter holds the number. -/
def countTally (operation : String) : Tally Bool Int Error where
  empty := 0
  single counted := if counted then 1 else 0
  join := (· + ·)
  good total := decide (total < 2 ^ 63)
  error := .numericOverflow operation
  observe total counted := countStep operation total counted
  merge := countMerge operation

section
variable (operation : String)

@[simp] theorem countTally_join (a b : Int) : (countTally operation).join a b = a + b := rfl

@[simp] theorem countTally_single (counted : Bool) : (countTally operation).single counted = if counted then 1 else 0 := rfl

@[simp] theorem countTally_observe (total : Int) (counted : Bool) :
    (countTally operation).observe total counted = countStep operation total counted := rfl

@[simp] theorem countTally_merge (total count : Int) :
    (countTally operation).merge total count = countMerge operation total count := rfl

theorem countTally_good (total : Int) : (countTally operation).good total = true ↔ total < 2 ^ 63 := decide_eq_true_iff

theorem countTally_exact (tests : List Bool) : (countTally operation).exact tests = (tests.countP id : Nat) := by
  induction tests using List.reverseRecOn with
  | nil => rfl
  | append_singleton tests test ih =>
    rw [Tally.exact_concat, ih, List.countP_append]
    cases test <;> rfl

theorem checked_count {a b : Int} (h : 0 ≤ a + b) :
    getOr (checkedAddSigned 64 a b) (.numericOverflow operation) = (countTally operation).checked (a + b) := by
  rw [checked_counter _ h, Tally.checked]
  simp only [countTally_good]
  rfl

theorem countTally_lawful : (countTally operation).Lawful fun _ => True where
  empty_join := Int.zero_add
  join_empty := Int.add_zero
  join_assoc := Int.add_assoc
  good_empty := rfl
  left _ _ _ := trivial
  right _ _ _ := trivial
  good_left xs ys _ hgood := by
    rw [countTally_good, countTally_exact, countTally_exact] at hgood
    rw [countTally_good, countTally_exact]
    exact Int.lt_of_le_of_lt (Int.le_add_of_nonneg_right (Int.natCast_nonneg _)) hgood
  good_right xs ys _ hgood := by
    rw [countTally_good, countTally_exact, countTally_exact] at hgood
    rw [countTally_good, countTally_exact]
    exact Int.lt_of_le_of_lt (Int.le_add_of_nonneg_left (Int.natCast_nonneg _)) hgood
  observe xs counted _ hgood := by
    rw [countTally_observe, countTally_join, countTally_single]
    cases counted with
    | false => rw [if_neg Bool.false_ne_true, Int.add_zero, Tally.checked_of_good hgood, countStep, if_neg Bool.false_ne_true]
    | true =>
      rw [if_pos rfl, countStep, if_pos rfl, countTally_exact]
      exact checked_count operation (Int.add_nonneg (Int.natCast_nonneg _) Int.one_nonneg)
  merge xs ys _ _ _ := by
    rw [countTally_merge, countTally_join, countMerge, countTally_exact, countTally_exact]
    exact checked_count operation (Int.add_nonneg (Int.natCast_nonneg _) (Int.natCast_nonneg _))

end

/-! ## Sums -/

namespace GlobalInt64SumAvg

/-- The total of a value that may be missing. -/
def Partial.single : Option Int64 → Partial
  | some value => ⟨value.toInt, 1⟩
  | none => .default

def Partial.join (a b : Partial) : Partial := ⟨a.sum + b.sum, a.count + b.count⟩

theorem Partial.default_join (a : Partial) : Partial.default.join a = a := by
  cases a
  exact congrArg₂ Partial.mk (Int.zero_add _) (Nat.zero_add _)

theorem Partial.join_default (a : Partial) : a.join .default = a := by
  cases a
  exact congrArg₂ Partial.mk (Int.add_zero _) (Nat.add_zero _)

theorem Partial.join_assoc (a b c : Partial) : (a.join b).join c = a.join (b.join c) :=
  congrArg₂ Partial.mk (Int.add_assoc ..) (Nat.add_assoc ..)

/-- A total of so many values at most. -/
structure Partial.Within (total : Partial) (n : Nat) : Prop where
  lower : -(n * 2 ^ 63 : Int) ≤ total.sum
  upper : total.sum ≤ n * 2 ^ 63
  count : total.count ≤ n

theorem Partial.Within.mono {total : Partial} {m n : Nat} (h : total.Within m) (hmn : m ≤ n) : total.Within n := by
  obtain ⟨hlower, hupper, hcount⟩ := h
  exact ⟨by omega, by omega, by omega⟩

theorem Partial.default_within (n : Nat) : Partial.default.Within n := by
  refine ⟨?_, ?_, Nat.zero_le n⟩ <;> rw [Partial.default] <;> dsimp only <;> omega

theorem Partial.single_within (value : Option Int64) : (Partial.single value).Within 1 := by
  cases value with
  | none => exact default_within 1
  | some value =>
    have hlower := Int64.le_toInt value
    have hupper := Int64.toInt_lt value
    refine ⟨?_, ?_, Nat.le_refl 1⟩ <;> rw [Partial.single] <;> dsimp only <;> omega

theorem Partial.Within.join {a b : Partial} {m n : Nat} (ha : a.Within m) (hb : b.Within n) :
    (a.join b).Within (m + n) := by
  obtain ⟨hlower, hupper, hcount⟩ := ha
  obtain ⟨hlower', hupper', hcount'⟩ := hb
  exact ⟨by rw [Partial.join]; push_cast; omega, by rw [Partial.join]; push_cast; omega, Nat.add_le_add hcount hcount'⟩

/-- **No overflow.** The total of no more values than an index can count fits its machine integers. -/
theorem Partial.merge_eq (operation : SumOperation) {a b : Partial} {n : Nat} (h : (a.join b).Within n)
    (hn : n ≤ usizeMax) : Partial.merge operation a b = .ok (a.join b) := by
  obtain ⟨hlower, hupper, hcount⟩ := h
  have hmax : usizeMax = 2 ^ 64 - 1 := rfl
  have hsum : -2 ^ (128 - 1) ≤ a.sum + b.sum ∧ a.sum + b.sum < 2 ^ (128 - 1) := by
    rw [Partial.join] at hlower hupper
    dsimp only at hlower hupper
    omega
  rw [Partial.merge, checkedAddSigned_eq, if_pos hsum, Exec.ok_bind, checkedAdd_of_le (Nat.le_trans hcount hn)]
  rfl

/-- The values that are present, summed and counted. -/
def tally (operation : SumOperation) : Tally (Option Int64) Partial Error where
  empty := .default
  single := .single
  join := .join
  good _ := true
  error := .numericOverflow operation.sumOverflowContext
  observe total
    | some value => total.observe operation value
    | none => .ok total
  merge := Partial.merge operation

theorem tally_within (operation : SumOperation) (values : List (Option Int64)) :
    ((tally operation).exact values).Within values.length := by
  induction values using List.reverseRecOn with
  | nil => exact Partial.default_within 0
  | append_singleton values value ih =>
    rw [Tally.exact_concat, List.length_append]
    exact ih.join (Partial.single_within value)

theorem tally_lawful (operation : SumOperation) : (tally operation).Lawful fun values => values.length ≤ usizeMax where
  empty_join := Partial.default_join
  join_empty := Partial.join_default
  join_assoc := Partial.join_assoc
  good_empty := rfl
  left _ _ hfits := Nat.le_trans (List.length_append ▸ Nat.le_add_right _ _) hfits
  right _ _ hfits := Nat.le_trans (List.length_append ▸ Nat.le_add_left _ _) hfits
  good_left _ _ _ _ := rfl
  good_right _ _ _ _ := rfl
  observe values value hfits _ := by
    have hwithin := (tally_within operation values).join (Partial.single_within value)
    rw [List.length_append] at hfits
    cases value with
    | some value => exact Partial.merge_eq operation hwithin hfits
    | none => exact congrArg Exec.ok (Partial.join_default _).symm
  merge xs ys hfits _ _ := by
    rw [List.length_append] at hfits
    exact Partial.merge_eq operation ((tally_within operation xs).join (tally_within operation ys)) hfits

end GlobalInt64SumAvg

/-! ## Extremes -/

namespace GlobalScalarExtremum

variable {E : Type}

/-- The first extreme of the values that are present. -/
def tally (compare : E → E → E) : Tally (Option E) (Option E) Error where
  empty := none
  single := id
  join := reducePartials compare
  good _ := true
  error := .numericOverflow ""
  observe extremum value := .ok (reducePartials compare extremum value)
  merge extremum part := .ok (reducePartials compare extremum part)

theorem reducePartials_eq (compare : E → E → E) : reducePartials compare = either compare := by
  funext a b
  cases a <;> cases b <;> rfl

theorem tally_lawful {compare : E → E → E} (h : ∀ a b c, compare (compare a b) c = compare a (compare b c)) :
    (tally compare).Lawful fun _ => True where
  empty_join a := by cases a <;> rfl
  join_empty a := by cases a <;> rfl
  join_assoc a b c := by
    show reducePartials compare (reducePartials compare a b) c = reducePartials compare a (reducePartials compare b c)
    rw [reducePartials_eq, either_assoc h]
  good_empty := rfl
  left _ _ _ := trivial
  right _ _ _ := trivial
  good_left _ _ _ _ := rfl
  good_right _ _ _ _ := rfl
  observe _ _ _ _ := rfl
  merge _ _ _ _ _ := rfl

end GlobalScalarExtremum

theorem firstFloat64Minimum_eq : firstFloat64Minimum = first F64.orderKey := by
  funext left right
  rw [firstFloat64Minimum, first, F64.floatCmp_eq]
  simp only [compare_lt_iff_lt]

theorem firstInt64Minimum_eq : firstInt64Minimum = first Int64.toInt := by
  funext left right
  rw [firstInt64Minimum, first]
  simp only [Int64.lt_iff_toInt_lt]

theorem firstInt64Maximum_eq : firstInt64Maximum = first fun x : Int64 => OrderDual.toDual x.toInt := by
  funext left right
  rw [firstInt64Maximum, first]
  simp only [gt_iff_lt, Int64.lt_iff_toInt_lt, OrderDual.toDual_lt_toDual]

theorem int64_min_eq (left right : Int64) : min left right = firstInt64Minimum left right := by
  show (if left ≤ right then left else right) = if right < left then right else left
  by_cases h : right < left
  · rw [if_pos h, if_neg fun hle => Int.not_lt.2 (Int64.le_iff_toInt_le.1 hle) (Int64.lt_iff_toInt_lt.1 h)]
  · rw [if_neg h, if_pos (Int64.le_iff_toInt_le.2 (Int.not_lt.1 fun hlt => h (Int64.lt_iff_toInt_lt.2 hlt)))]

theorem int64_max_eq (left right : Int64) : max left right = firstInt64Maximum left right := by
  show (if left ≤ right then right else left) = if right > left then right else left
  by_cases h : left < right
  · rw [if_pos h, if_pos (Int64.le_iff_toInt_le.2 (Int.le_of_lt (Int64.lt_iff_toInt_lt.1 h)))]
  · rw [if_neg h]
    split
    · rename_i hle
      have hle := Int64.le_iff_toInt_le.1 hle
      have hge := Int.not_lt.1 fun hlt => h (Int64.lt_iff_toInt_lt.2 hlt)
      exact Int64.toInt_inj.1 (Int.le_antisymm hge hle)
    · rfl

/-! ## Grouped counts -/

namespace GroupedBoolCount

def Partial.single (row : Bool × Bool) : Partial :=
  ⟨if row.1 then 0 else 1, if row.1 then 1 else 0, if !row.1 && row.2 then 1 else 0, if row.1 && row.2 then 1 else 0,
    some row.1⟩

def Partial.join (a b : Partial) : Partial :=
  ⟨a.falseRows + b.falseRows, a.trueRows + b.trueRows, a.falseCount + b.falseCount, a.trueCount + b.trueCount,
    a.firstSeen <|> b.firstSeen⟩

/-- A signed counter holds each of the numbers. -/
def Partial.good (total : Partial) : Bool :=
  total.falseRows < 2 ^ 63 ∧ total.trueRows < 2 ^ 63 ∧ total.falseCount < 2 ^ 63 ∧ total.trueCount < 2 ^ 63

/-- Rows by their group and whether they are counted. -/
def tally (operation : Operation) : Tally (Bool × Bool) Partial Error where
  empty := .default
  single := .single
  join := .join
  good := Partial.good
  error := .numericOverflow operation.name
  observe total row := total.observe operation row.1 row.2
  merge := Partial.merge operation

structure Partial.Nonneg (total : Partial) : Prop where
  falseRows : 0 ≤ total.falseRows
  trueRows : 0 ≤ total.trueRows
  falseCount : 0 ≤ total.falseCount
  trueCount : 0 ≤ total.trueCount

theorem Partial.Nonneg.join {a b : Partial} (ha : a.Nonneg) (hb : b.Nonneg) : (a.join b).Nonneg :=
  ⟨Int.add_nonneg ha.1 hb.1, Int.add_nonneg ha.2 hb.2, Int.add_nonneg ha.3 hb.3, Int.add_nonneg ha.4 hb.4⟩

theorem Partial.single_nonneg (row : Bool × Bool) : (Partial.single row).Nonneg := by
  obtain ⟨group, counted⟩ := row
  cases group <;> cases counted <;> exact ⟨by decide, by decide, by decide, by decide⟩

theorem tally_nonneg (operation : Operation) (rows : List (Bool × Bool)) : ((tally operation).exact rows).Nonneg := by
  induction rows using List.reverseRecOn with
  | nil => exact ⟨Int.le_refl 0, Int.le_refl 0, Int.le_refl 0, Int.le_refl 0⟩
  | append_singleton rows row ih =>
    rw [Tally.exact_concat]
    exact ih.join (Partial.single_nonneg row)

theorem Partial.good_iff (total : Partial) : total.good = true ↔
    total.falseRows < 2 ^ 63 ∧ total.trueRows < 2 ^ 63 ∧ total.falseCount < 2 ^ 63 ∧ total.trueCount < 2 ^ 63 :=
  decide_eq_true_iff

theorem Partial.good_of_join {a b : Partial} (ha : a.Nonneg) (hb : b.Nonneg) (h : (a.join b).good) : a.good ∧ b.good := by
  obtain ⟨_, _, _, _⟩ := ha
  obtain ⟨_, _, _, _⟩ := hb
  rw [Partial.good_iff, Partial.join] at h
  rw [Partial.good_iff, Partial.good_iff]
  dsimp only at h
  omega

theorem Partial.merge_eq (operation : Operation) {a b : Partial} (h : (a.join b).Nonneg) :
    Partial.merge operation a b = (tally operation).checked (a.join b) := by
  obtain ⟨h1, h2, h3, h4⟩ := h
  have hgood := Partial.good_iff (a.join b)
  have hbad : ¬ (a.join b).good = true →
      (tally operation).checked (a.join b) = .error (.numericOverflow operation.name) := fun hnot => if_neg hnot
  rw [Partial.merge, checked_counter _ h1, checked_counter _ h2, checked_counter _ h3, checked_counter _ h4]
  by_cases hfalseRows : a.falseRows + b.falseRows < 2 ^ 63
  · rw [if_pos hfalseRows, Exec.ok_bind]
    by_cases htrueRows : a.trueRows + b.trueRows < 2 ^ 63
    · rw [if_pos htrueRows, Exec.ok_bind]
      by_cases hfalseCount : a.falseCount + b.falseCount < 2 ^ 63
      · rw [if_pos hfalseCount, Exec.ok_bind]
        by_cases htrueCount : a.trueCount + b.trueCount < 2 ^ 63
        · rw [if_pos htrueCount, Exec.ok_bind]
          exact (Tally.checked_of_good (hgood.2 ⟨hfalseRows, htrueRows, hfalseCount, htrueCount⟩)).symm
        · rw [if_neg htrueCount, hbad fun hg => htrueCount (hgood.1 hg).2.2.2]
          rfl
      · rw [if_neg hfalseCount, hbad fun hg => hfalseCount (hgood.1 hg).2.2.1]
        rfl
    · rw [if_neg htrueRows, hbad fun hg => htrueRows (hgood.1 hg).2.1]
      rfl
  · rw [if_neg hfalseRows, hbad fun hg => hfalseRows (hgood.1 hg).1]
    rfl

theorem Partial.observe_eq (operation : Operation) {total : Partial} (hgood : total.good) (hnonneg : total.Nonneg)
    (row : Bool × Bool) : total.observe operation row.1 row.2 = Partial.merge operation total (.single row) := by
  obtain ⟨falseRows, trueRows, falseCount, trueCount, firstSeen⟩ := total
  obtain ⟨group, counted⟩ := row
  obtain ⟨h1, h2, h3, h4⟩ := (Partial.good_iff _).1 hgood
  obtain ⟨h5, h6, h7, h8⟩ := hnonneg
  dsimp only at h1 h2 h3 h4 h5 h6 h7 h8
  have hsame {n : Int} (hn : 0 ≤ n) (hn' : n < 2 ^ 63) (e : Error) : getOr (checkedAddSigned 64 n 0) e = .ok n := by
    rw [checked_counter e (by omega), Int.add_zero, if_pos hn']
  cases group <;> cases counted <;>
    simp only [Partial.observe, Partial.merge, Partial.single, Partial.rowCount, Partial.count, Partial.setRows,
      Partial.setCount, hsame h5 h1, hsame h6 h2, hsame h7 h3, hsame h8 h4, Exec.ok_bind, if_true, if_false,
      Bool.false_eq_true, Bool.not_true, Bool.not_false, Bool.and_true, Bool.and_false] <;>
    cases firstSeen <;> rfl

theorem firstSeen_assoc (a b c : Option Bool) : ((a <|> b) <|> c) = (a <|> (b <|> c)) := by
  cases a <;> rfl

theorem tally_lawful (operation : Operation) : (tally operation).Lawful fun _ => True where
  empty_join a := by
    cases a
    simp only [tally, Partial.join, Partial.default, Int.zero_add]
    rfl
  join_empty a := by
    obtain ⟨_, _, _, _, firstSeen⟩ := a
    simp only [tally, Partial.join, Partial.default, Int.add_zero]
    cases firstSeen <;> rfl
  join_assoc a b c := by
    simp only [tally, Partial.join, Int.add_assoc, firstSeen_assoc]
  good_empty := rfl
  left _ _ _ := trivial
  right _ _ _ := trivial
  good_left xs ys _ hgood := (Partial.good_of_join (tally_nonneg operation xs) (tally_nonneg operation ys) hgood).1
  good_right xs ys _ hgood := (Partial.good_of_join (tally_nonneg operation xs) (tally_nonneg operation ys) hgood).2
  observe xs row _ hgood := by
    have hnonneg := tally_nonneg operation xs
    show Partial.observe operation _ row.1 row.2 = _
    rw [Partial.observe_eq operation hgood hnonneg row, Partial.merge_eq operation (hnonneg.join (Partial.single_nonneg row))]
    rfl
  merge xs ys _ _ _ := Partial.merge_eq operation ((tally_nonneg operation xs).join (tally_nonneg operation ys))

end GroupedBoolCount

/-! ## Grouped sums -/

namespace GroupedBoolSumAvg

open GlobalInt64SumAvg (Partial.join_assoc)

def Partial.single (row : Bool × Int64) : Partial :=
  ⟨if row.1 then .default else ⟨row.2.toInt, 1⟩, if row.1 then ⟨row.2.toInt, 1⟩ else .default, some row.1⟩

def Partial.join (a b : Partial) : Partial :=
  ⟨a.falseGroup.join b.falseGroup, a.trueGroup.join b.trueGroup, a.firstSeen <|> b.firstSeen⟩

/-- Values by their group, summed and counted. -/
def tally (operation : SumOperation) : Tally (Bool × Int64) Partial Error where
  empty := .default
  single := .single
  join := .join
  good _ := true
  error := .numericOverflow operation.sumOverflowContext
  observe total row := total.observe operation row.1 row.2
  merge := Partial.merge operation

structure Partial.Within (total : Partial) (n : Nat) : Prop where
  falseGroup : total.falseGroup.Within n
  trueGroup : total.trueGroup.Within n

theorem Partial.single_within (row : Bool × Int64) : (Partial.single row).Within 1 := by
  obtain ⟨group, value⟩ := row
  have hvalue := GlobalInt64SumAvg.Partial.single_within (some value)
  have hdefault := GlobalInt64SumAvg.Partial.default_within 1
  cases group
  · exact ⟨hvalue, hdefault⟩
  · exact ⟨hdefault, hvalue⟩

theorem tally_within (operation : SumOperation) (rows : List (Bool × Int64)) :
    ((tally operation).exact rows).Within rows.length := by
  induction rows using List.reverseRecOn with
  | nil => exact ⟨GlobalInt64SumAvg.Partial.default_within 0, GlobalInt64SumAvg.Partial.default_within 0⟩
  | append_singleton rows row ih =>
    have hrow := Partial.single_within row
    rw [Tally.exact_concat, List.length_append]
    exact ⟨ih.1.join hrow.1, ih.2.join hrow.2⟩

theorem Partial.merge_eq (operation : SumOperation) {a b : Partial} {m n : Nat} (ha : a.Within m) (hb : b.Within n)
    (hn : m + n ≤ usizeMax) : Partial.merge operation a b = .ok (a.join b) := by
  rw [Partial.merge, GlobalInt64SumAvg.Partial.merge_eq operation (ha.1.join hb.1) hn, Exec.ok_bind,
    GlobalInt64SumAvg.Partial.merge_eq operation (ha.2.join hb.2) hn, Exec.ok_bind]
  rfl

theorem Partial.observe_eq (operation : SumOperation) {total : Partial} {n : Nat} (h : total.Within n)
    (hn : n + 1 ≤ usizeMax) (row : Bool × Int64) :
    total.observe operation row.1 row.2 = .ok (total.join (.single row)) := by
  obtain ⟨falseGroup, trueGroup, firstSeen⟩ := total
  obtain ⟨group, value⟩ := row
  have hvalue := GlobalInt64SumAvg.Partial.single_within (some value)
  have hobserve {total : GlobalInt64SumAvg.Partial} (htotal : total.Within n) :
      total.observe operation value = .ok (total.join (.single (some value))) :=
    GlobalInt64SumAvg.Partial.merge_eq operation (htotal.join hvalue) hn
  have hseen : some (firstSeen.getD group) = (firstSeen <|> some group) := by cases firstSeen <;> rfl
  cases group with
  | false =>
    simp only [Partial.observe, Partial.group, Bool.false_eq_true, if_false, hobserve h.1, Exec.ok_bind, Partial.setGroup,
      Partial.join, Partial.single, GlobalInt64SumAvg.Partial.join_default, hseen, GlobalInt64SumAvg.Partial.single]
  | true =>
    simp only [Partial.observe, Partial.group, if_true, hobserve h.2, Exec.ok_bind, Partial.setGroup, Partial.join,
      Partial.single, GlobalInt64SumAvg.Partial.join_default, hseen, GlobalInt64SumAvg.Partial.single]

theorem tally_lawful (operation : SumOperation) : (tally operation).Lawful fun rows => rows.length ≤ usizeMax where
  empty_join a := by
    simp only [tally, Partial.join, Partial.default, GlobalInt64SumAvg.Partial.default_join]
    rfl
  join_empty a := by
    obtain ⟨_, _, firstSeen⟩ := a
    simp only [tally, Partial.join, Partial.default, GlobalInt64SumAvg.Partial.join_default]
    cases firstSeen <;> rfl
  join_assoc a b c := by
    simp only [tally, Partial.join, Partial.join_assoc, GroupedBoolCount.firstSeen_assoc]
  good_empty := rfl
  left _ _ hfits := Nat.le_trans (List.length_append ▸ Nat.le_add_right _ _) hfits
  right _ _ hfits := Nat.le_trans (List.length_append ▸ Nat.le_add_left _ _) hfits
  good_left _ _ _ _ := rfl
  good_right _ _ _ _ := rfl
  observe rows row hfits _ := by
    rw [List.length_append] at hfits
    exact Partial.observe_eq operation (tally_within operation rows) hfits row
  merge xs ys hfits _ _ := by
    rw [List.length_append] at hfits
    exact Partial.merge_eq operation (tally_within operation xs) (tally_within operation ys) hfits

end GroupedBoolSumAvg

/-! ## Grouped extremes -/

namespace GroupedBoolExtremum

variable {T : Type}

def Partial.single (row : Bool × T) : Partial T :=
  ⟨if row.1 then none else some row.2, if row.1 then some row.2 else none, some row.1⟩

def Partial.join (choose : T → T → T) (a b : Partial T) : Partial T :=
  ⟨either choose a.falseExtremum b.falseExtremum, either choose a.trueExtremum b.trueExtremum,
    a.firstSeen <|> b.firstSeen⟩

/-- Values by their group, with the first extreme of each. -/
def tally (choose : T → T → T) : Tally (Bool × T) (Partial T) Error where
  empty := .default
  single := .single
  join := .join choose
  good _ := true
  error := .numericOverflow ""
  observe total row := .ok (total.observe choose row.1 row.2)
  merge total part := .ok (total.merge choose part)

theorem Partial.observe_eq (choose : T → T → T) (total : Partial T) (row : Bool × T) :
    total.observe choose row.1 row.2 = total.join choose (.single row) := by
  obtain ⟨falseExtremum, trueExtremum, firstSeen⟩ := total
  obtain ⟨group, value⟩ := row
  cases group <;> cases falseExtremum <;> cases trueExtremum <;> cases firstSeen <;> rfl

theorem Partial.merge_eq (choose : T → T → T) (total : Partial T) {part : Partial T}
    (h : part.firstSeen = none → part = .default) : total.merge choose part = total.join choose part := by
  obtain ⟨falseExtremum, trueExtremum, firstSeen⟩ := part
  obtain ⟨totalFalse, totalTrue, totalSeen⟩ := total
  cases firstSeen with
  | none =>
    obtain ⟨rfl, rfl, _⟩ := Partial.mk.inj (h rfl)
    cases totalFalse <;> cases totalTrue <;> cases totalSeen <;> rfl
  | some group =>
    cases falseExtremum <;> cases trueExtremum <;> cases totalFalse <;> cases totalTrue <;> cases totalSeen <;> rfl

theorem tally_firstSeen (choose : T → T → T) (rows : List (Bool × T)) :
    ((tally choose).exact rows).firstSeen = none → (tally choose).exact rows = .default := by
  induction rows using List.reverseRecOn with
  | nil => exact fun _ => rfl
  | append_singleton rows row ih =>
    rw [Tally.exact_concat]
    intro hnone
    have hseen : (((tally choose).exact rows).firstSeen <|> some row.1) = none := hnone
    cases hfirst : ((tally choose).exact rows).firstSeen <;> rw [hfirst] at hseen <;> cases hseen

theorem tally_lawful {choose : T → T → T} (h : ∀ a b c, choose (choose a b) c = choose a (choose b c)) :
    (tally choose).Lawful fun _ => True where
  empty_join a := by
    simp only [tally, Partial.join, Partial.default, none_either]
    rfl
  join_empty a := by
    obtain ⟨_, _, firstSeen⟩ := a
    simp only [tally, Partial.join, Partial.default, either_none]
    cases firstSeen <;> rfl
  join_assoc a b c := by
    simp only [tally, Partial.join, either_assoc h, GroupedBoolCount.firstSeen_assoc]
  good_empty := rfl
  left _ _ _ := trivial
  right _ _ _ := trivial
  good_left _ _ _ _ := rfl
  good_right _ _ _ _ := rfl
  observe _ row _ _ := congrArg Exec.ok (Partial.observe_eq choose _ row)
  merge _ ys _ _ _ := congrArg Exec.ok (Partial.merge_eq choose _ (tally_firstSeen choose ys))

end GroupedBoolExtremum

/-! ## Rows of a column -/

theorem orPanic_map {α β γ : Type} (o : Option α) (f : α → β) (g : β → Exec Error γ) :
    (orPanic (o.map f) >>= g) = orPanic o >>= fun a => g (f a) := by
  cases o <;> rfl

theorem orPanic_pair {α β γ : Type} (a : Option α) (b : Option β) (f : α × β → Exec Error γ) :
    (orPanic (a.bind fun x => b.map fun y => (x, y)) >>= f) = orPanic a >>= fun x => orPanic b >>= fun y => f (x, y) := by
  cases a <;> cases b <;> rfl

def pairAt {α : Type} (groupValues : List Bool) (values : Nat → Option α) (row : Nat) : Option (Bool × α) :=
  groupValues[row]?.bind fun group => (values row).map fun value => (group, value)

def ofGroup {α : Type} (groupValues : List Bool) (values : Nat → Option α) (group : Bool) (row : Nat) : Option α :=
  if groupValues[row]? = some group then values row else none

def pairOf {α : Type} (group : Bool) (pair : Bool × α) : Option α := if pair.1 = group then some pair.2 else none

theorem pairAt_group {α : Type} (groupValues : List Bool) (values : Nat → Option α) (group : Bool)
    (matchingRows : List Nat) :
    (matchingRows.filterMap (pairAt groupValues values)).filterMap (pairOf group) =
      matchingRows.filterMap (ofGroup groupValues values group) := by
  rw [List.filterMap_filterMap]
  refine List.filterMap_congr fun row _ => ?_
  rw [pairAt, ofGroup]
  cases groupValues[row]? with
  | none => rfl
  | some rowGroup =>
    cases values row with
    | none =>
      dsimp only [Option.map_none, Option.bind_some, Option.bind_none]
      split <;> rfl
    | some value =>
      dsimp only [Option.map_some, Option.bind_some, pairOf]
      simp only [Option.some.injEq]

section
variable {lanes : Lanes} {n : Nat} {matchingRows : List Nat}

theorem Selects.readable {α : Type} {values : List α} (h : Selects values.length matchingRows) :
    ∀ row ∈ matchingRows, values[row]?.isSome := by
  intro row hrow
  rw [List.getElem?_eq_getElem (h.inRange row hrow)]
  rfl

theorem Selects.readable_pair {α : Type} {groupValues : List Bool} {values : Nat → Option α}
    (h : Selects groupValues.length matchingRows) (hvalues : ∀ row ∈ matchingRows, (values row).isSome) :
    ∀ row ∈ matchingRows, (pairAt groupValues values row).isSome := by
  intro row hrow
  obtain ⟨value, hvalue⟩ := Option.isSome_iff_exists.1 (hvalues row hrow)
  rw [pairAt, List.getElem?_eq_getElem (h.inRange row hrow), hvalue]
  rfl

theorem pairAt_head {α : Type} {groupValues : List Bool} {values : Nat → Option α}
    (h : ∀ row ∈ matchingRows, (pairAt groupValues values row).isSome) :
    (matchingRows.filterMap (pairAt groupValues values)).head?.map Prod.fst =
      matchingRows.head?.bind fun row => groupValues[row]? := by
  cases matchingRows with
  | nil => rfl
  | cons row matchingRows =>
    obtain ⟨pair, hpair⟩ := Option.isSome_iff_exists.1 (h row List.mem_cons_self)
    rw [List.filterMap_cons_some hpair]
    obtain ⟨group, hgroup, hvalue⟩ := Option.bind_eq_some_iff.1 hpair
    obtain ⟨value, _, rfl⟩ := Option.map_eq_some_iff.1 hvalue
    exact hgroup.symm

theorem lanes_reading {α P : Type} {tally : Tally α P Error} {fits : List α → Prop} (h : tally.Lawful fits)
    {read : Nat → Option α} (hread : ∀ row ∈ matchingRows, (read row).isSome) (hfits : fits (matchingRows.filterMap read))
    {chunk : List Nat → Exec Error P} (hchunk : chunk = (tally.reading read).scan) :
    runGroupedAggregate lanes matchingRows chunk tally.reduce = chunk matchingRows := by
  rw [hchunk]
  exact runGroupedAggregate_eq (h.reading read) ⟨hread, hfits⟩

theorem Selects.filterMap_length {α : Type} (h : Selects n matchingRows) (read : Nat → Option α) :
    (matchingRows.filterMap read).length ≤ usizeMax :=
  Nat.le_trans (List.length_filterMap_le _ _) h.count

end

/-! ## Each aggregate -/

section
variable {lanes : Lanes} {matchingRows : List Nat}

namespace GlobalInt64SumAvg

theorem scanInt64Chunk_eq (operation : SumOperation) (values : List Int64) :
    scanInt64Chunk operation values = ((tally operation).reading fun row => values[row]?.map some).scan := by
  funext rows
  refine congrArg (fun observe => scanFrom observe Partial.default rows) (funext fun total => funext fun row => ?_)
  exact (orPanic_map values[row]? some ((tally operation).observe total)).symm

theorem reduceInt64_eq (operation : SumOperation) {values : List Int64} (h : Selects values.length matchingRows) :
    reduceInt64 lanes operation values matchingRows = scanInt64Chunk operation values matchingRows :=
  lanes_reading (tally_lawful operation) (fun row hrow => by rw [Option.isSome_map]; exact h.readable row hrow)
    (h.filterMap_length _) (scanInt64Chunk_eq operation values)

theorem reduceNullableInt64_eq (operation : SumOperation) {values : List (Option Int64)}
    (h : Selects values.length matchingRows) :
    reduceNullableInt64 lanes operation values matchingRows = scanNullableInt64Chunk operation values matchingRows :=
  @lanes_reading lanes _ _ _ _ _ (tally_lawful operation) (fun row => values[row]?) h.readable (h.filterMap_length _) _ rfl

theorem tally_exact (operation : SumOperation) (values : List (Option Int64)) :
    (tally operation).exact values = ⟨((values.filterMap id).map Int64.toInt).sum, (values.filterMap id).length⟩ := by
  induction values using List.reverseRecOn with
  | nil => rfl
  | append_singleton values value ih =>
    rw [Tally.exact_concat, ih, List.filterMap_append, List.map_append, List.sum_append, List.length_append]
    cases value with
    | none => rfl
    | some value => exact congrArg₂ Partial.mk (congrArg (_ + ·) (Int.add_zero _).symm) rfl

/-- The exact sum and number of the values of the rows. -/
def total (values : Nat → Option Int64) (matchingRows : List Nat) : Partial :=
  ⟨((matchingRows.filterMap values).map Int64.toInt).sum, (matchingRows.filterMap values).length⟩

/-- **No overflow.** One pass over any number of rows that an index can count has the exact sum. -/
theorem scan_total (operation : SumOperation) {read : Nat → Option (Option Int64)}
    (hread : ∀ row ∈ matchingRows, (read row).isSome) (hcount : matchingRows.length ≤ usizeMax) :
    ((tally operation).reading read).scan matchingRows = .ok (total (fun row => (read row).join) matchingRows) := by
  have hlawful := tally_lawful operation
  have hlength := Nat.le_trans (List.length_filterMap_le read matchingRows) hcount
  rw [Tally.scan_eq (hlawful.reading read) ⟨hread, hlength⟩, Tally.checked_of_good (by rfl),
    Tally.exact_reading hlawful.toMonoidal, tally_exact, List.filterMap_filterMap]
  rfl

end GlobalInt64SumAvg

/-- The number of some rows, as long as a signed counter holds it. -/
def counted (operation : String) (count : Nat) : Exec Error Int :=
  if count < 2 ^ 63 then .ok count else .error (.numericOverflow operation)

theorem scan_counted (operation : String) {read : Nat → Option Bool} (hread : ∀ row ∈ matchingRows, (read row).isSome) :
    ((countTally operation).reading read).scan matchingRows =
      counted operation (matchingRows.countP fun row => read row = some true) := by
  rw [Tally.scan_reading (countTally_lawful operation) hread trivial, countTally_exact, List.countP_filterMap]
  have hcount : (matchingRows.countP fun row => ((read row).map id).getD false) =
      matchingRows.countP fun row => read row = some true :=
    List.countP_congr fun row _ => by cases read row <;> simp
  rw [hcount, Tally.checked, counted]
  simp only [countTally_good]
  norm_cast

theorem nullableInt64CountChunk_scan (values : List (Option Int64)) :
    nullableInt64CountChunk values = ((countTally "COUNT").reading fun row => values[row]?.map Option.isSome).scan := by
  funext rows
  refine congrArg (fun observe => scanFrom observe 0 rows) (funext fun total => funext fun row => ?_)
  exact (orPanic_map values[row]? Option.isSome (countStep "COUNT" total)).symm

theorem reduceGlobalNullableInt64Count_eq {values : List (Option Int64)} (h : Selects values.length matchingRows) :
    reduceGlobalNullableInt64Count lanes values matchingRows = nullableInt64CountChunk values matchingRows :=
  lanes_reading (countTally_lawful "COUNT") (fun row hrow => by rw [Option.isSome_map]; exact h.readable row hrow) trivial
    (nullableInt64CountChunk_scan values)

theorem nullableInt64CountChunk_eq {values : List (Option Int64)} (h : Selects values.length matchingRows) :
    nullableInt64CountChunk values matchingRows =
      counted "COUNT" (matchingRows.countP fun row => values[row]?.join.isSome) := by
  rw [nullableInt64CountChunk_scan, scan_counted "COUNT" fun row hrow => by
    rw [Option.isSome_map]
    exact h.readable row hrow]
  refine congrArg (counted "COUNT") (List.countP_congr fun row _ => ?_)
  cases values[row]? with
  | none => simp
  | some value => simp

theorem reduceGlobalCountIf_eq {values : List Bool} (h : Selects values.length matchingRows) :
    reduceGlobalCountIf lanes values matchingRows = countIfChunk values matchingRows :=
  @lanes_reading lanes _ _ _ _ _ (countTally_lawful "countIf") (fun row => values[row]?) h.readable trivial _ rfl

theorem countIfChunk_eq {values : List Bool} (h : Selects values.length matchingRows) :
    countIfChunk values matchingRows = counted "countIf" (matchingRows.countP fun row => values[row]? = some true) :=
  scan_counted "countIf" h.readable

namespace GlobalScalarExtremum

variable {T E : Type}

theorem scalarChunk_scan (values : List T) (map : T → Option E) (compare : E → E → E) :
    scalarChunk values map compare = ((tally compare).reading fun row => values[row]?.map map).scan := by
  funext rows
  refine congrArg (fun observe => scanFrom observe none rows) (funext fun total => funext fun row => ?_)
  exact (orPanic_map values[row]? map ((tally compare).observe total)).symm

theorem reduceScalar_eq {values : List T} (map : T → Option E) {compare : E → E → E}
    (hassoc : ∀ a b c, compare (compare a b) c = compare a (compare b c)) (h : Selects values.length matchingRows) :
    reduceScalar lanes values map compare matchingRows = scalarChunk values map compare matchingRows := by
  have hreduce : reduceOrdered compare = (tally compare).reduce := by
    funext partials
    cases partials with
    | nil => rfl
    | cons extremum partials => cases extremum <;> rfl
  rw [reduceScalar, hreduce]
  exact lanes_reading (tally_lawful hassoc) (fun row hrow => by rw [Option.isSome_map]; exact h.readable row hrow) trivial
    (scalarChunk_scan values map compare)

theorem tally_exact {K : Type} [LinearOrder K] (key : E → K) (values : List (Option E)) :
    FirstLeast key (values.filterMap id) ((tally (first key)).exact values) := by
  induction values using List.reverseRecOn with
  | nil => rfl
  | append_singleton values value ih =>
    rw [Tally.exact_concat, List.filterMap_append]
    show FirstLeast key _ (reducePartials (first key) _ value)
    rw [reducePartials_eq]
    cases value with
    | none =>
      rw [either_none]
      simpa using ih
    | some value => exact ih.concat value

theorem scalarChunk_least {K : Type} [LinearOrder K] {values : List T} (map : T → Option E) (key : E → K)
    (h : Selects values.length matchingRows) :
    ∃ best, scalarChunk values map (first key) matchingRows = .ok best ∧
      FirstLeast key (matchingRows.filterMap fun row => values[row]?.bind map) best := by
  refine ⟨(tally (first key)).exact (matchingRows.filterMap fun row => values[row]?.map map), ?_, ?_⟩
  · rw [scalarChunk_scan, Tally.scan_reading (tally_lawful (first_assoc key))
      (fun row hrow => by rw [Option.isSome_map]; exact h.readable row hrow) trivial]
    exact Tally.checked_of_good (by rfl)
  · have hleast := tally_exact key (matchingRows.filterMap fun row => values[row]?.map map)
    rw [List.filterMap_filterMap] at hleast
    have hvalues (row : Nat) : (values[row]?.map map).bind id = values[row]?.bind map := by
      cases values[row]? <;> rfl
    simpa only [hvalues] using hleast

end GlobalScalarExtremum

namespace GroupedBoolCount

theorem scan_reading (operation : Operation) (groupValues : List Bool) (counted : Nat → Option Bool) :
    scan operation groupValues counted = ((tally operation).reading (pairAt groupValues counted)).scan := by
  funext rows
  refine congrArg (fun observe => scanFrom observe Partial.default rows) (funext fun total => funext fun row => ?_)
  exact (orPanic_pair groupValues[row]? (counted row) ((tally operation).observe total)).symm

theorem reduceWithChunk_eq (operation : Operation) {groupValues : List Bool} {counted : Nat → Option Bool}
    (h : Selects groupValues.length matchingRows) (hcounted : ∀ row ∈ matchingRows, (counted row).isSome) :
    reduceWithChunk lanes groupValues operation counted matchingRows = scan operation groupValues counted matchingRows := by
  exact lanes_reading (tally_lawful operation) (h.readable_pair hcounted) trivial
    (scan_reading operation groupValues counted)

theorem tally_exact (operation : Operation) (pairs : List (Bool × Bool)) :
    (tally operation).exact pairs =
      ⟨(pairs.filterMap (pairOf false)).length, (pairs.filterMap (pairOf true)).length,
        (pairs.filterMap (pairOf false)).countP id, (pairs.filterMap (pairOf true)).countP id,
        pairs.head?.map Prod.fst⟩ := by
  induction pairs using List.reverseRecOn with
  | nil => rfl
  | append_singleton pairs pair ih =>
    obtain ⟨group, counted⟩ := pair
    rw [Tally.exact_concat, ih]
    simp only [List.filterMap_append, List.length_append, List.countP_append, Nat.cast_add, List.head?_append]
    have hseen : ((pairs.head?.map Prod.fst) <|> some group) = (pairs.head?.or [(group, counted)].head?).map Prod.fst := by
      cases pairs.head? <;> rfl
    rw [← hseen]
    cases group <;> cases counted <;> rfl

/-- The rows of each group, those of them that are counted, and the group of the first row. -/
def total (groupValues : List Bool) (counted : Nat → Option Bool) (matchingRows : List Nat) : Partial :=
  let rows (group : Bool) := matchingRows.filterMap (ofGroup groupValues counted group)
  ⟨(rows false).length, (rows true).length, (rows false).countP id, (rows true).countP id,
    matchingRows.head?.bind fun row => groupValues[row]?⟩

theorem tally_checked (operation : Operation) (total : Partial) :
    (tally operation).checked total = if total.good then .ok total else .error (.numericOverflow operation.name) :=
  rfl

/-- One pass has the exact counts, as long as signed counters hold them. -/
def Counts (operation : Operation) (groupValues : List Bool) (counted : Nat → Option Bool) (matchingRows : List Nat) :
    Prop :=
  scan operation groupValues counted matchingRows =
    if (total groupValues counted matchingRows).good then .ok (total groupValues counted matchingRows)
    else .error (.numericOverflow operation.name)

theorem scan_total (operation : Operation) {groupValues : List Bool} {counted : Nat → Option Bool}
    (h : Selects groupValues.length matchingRows) (hcounted : ∀ row ∈ matchingRows, (counted row).isSome) :
    Counts operation groupValues counted matchingRows := by
  unfold Counts
  have hread := h.readable_pair hcounted
  rw [scan_reading, Tally.scan_reading (tally_lawful operation) hread trivial, tally_exact, pairAt_head hread,
    pairAt_group, pairAt_group, ← total, tally_checked]

end GroupedBoolCount

namespace GroupedBoolSumAvg

theorem scanChunk_eq (operation : SumOperation) (groupValues : List Bool) (sumValues : List Int64) :
    scanChunk operation groupValues sumValues =
      ((tally operation).reading (pairAt groupValues fun row => sumValues[row]?)).scan := by
  funext rows
  refine congrArg (fun observe => scanFrom observe Partial.default rows) (funext fun total => funext fun row => ?_)
  exact (orPanic_pair groupValues[row]? sumValues[row]? ((tally operation).observe total)).symm

theorem reduce_eq (operation : SumOperation) {groupValues : List Bool} {sumValues : List Int64}
    (h : Selects groupValues.length matchingRows) (hvalues : Selects sumValues.length matchingRows) :
    reduce lanes operation groupValues sumValues matchingRows =
      scanChunk operation groupValues sumValues matchingRows :=
  lanes_reading (tally_lawful operation) (h.readable_pair hvalues.readable) (h.filterMap_length _)
    (scanChunk_eq operation groupValues sumValues)

theorem tally_exact (operation : SumOperation) (pairs : List (Bool × Int64)) :
    (tally operation).exact pairs =
      ⟨(GlobalInt64SumAvg.tally operation).exact ((pairs.filterMap (pairOf false)).map some),
        (GlobalInt64SumAvg.tally operation).exact ((pairs.filterMap (pairOf true)).map some),
        pairs.head?.map Prod.fst⟩ := by
  induction pairs using List.reverseRecOn with
  | nil => rfl
  | append_singleton pairs pair ih =>
    obtain ⟨group, value⟩ := pair
    have hseen : ((pairs.head?.map Prod.fst) <|> some group) = (pairs.head?.or [(group, value)].head?).map Prod.fst := by
      cases pairs.head? <;> rfl
    have hmine : [(group, value)].filterMap (pairOf group) = [value] := by cases group <;> rfl
    have hother : [(group, value)].filterMap (pairOf !group) = [] := by cases group <;> rfl
    rw [Tally.exact_concat, ih]
    simp only [List.filterMap_append, List.map_append, List.head?_append, ← hseen]
    cases group with
    | false =>
      rw [hmine, show [(false, value)].filterMap (pairOf true) = [] from hother, List.map_nil, List.append_nil,
        List.map_singleton, Tally.exact_concat]
      exact congrArg (fun other => Partial.mk _ other _) (GlobalInt64SumAvg.Partial.join_default _)
    | true =>
      rw [hmine, show [(true, value)].filterMap (pairOf false) = [] from hother, List.map_nil, List.append_nil,
        List.map_singleton, Tally.exact_concat]
      exact congrArg (fun other => Partial.mk other _ _) (GlobalInt64SumAvg.Partial.join_default _)

/-- The exact sum and number of the values of each group, and the group of the first row. -/
def total (groupValues : List Bool) (values : Nat → Option Int64) (matchingRows : List Nat) : Partial :=
  ⟨GlobalInt64SumAvg.total (ofGroup groupValues values false) matchingRows,
    GlobalInt64SumAvg.total (ofGroup groupValues values true) matchingRows,
    matchingRows.head?.bind fun row => groupValues[row]?⟩

theorem scanChunk_total (operation : SumOperation) {groupValues : List Bool} {sumValues : List Int64}
    (h : Selects groupValues.length matchingRows) (hvalues : Selects sumValues.length matchingRows) :
    scanChunk operation groupValues sumValues matchingRows =
      .ok (total groupValues (fun row => sumValues[row]?) matchingRows) := by
  have hread := h.readable_pair hvalues.readable
  rw [scanChunk_eq, Tally.scan_reading (tally_lawful operation) hread (h.filterMap_length _), Tally.checked_of_good (by rfl),
    tally_exact, pairAt_head hread, pairAt_group, pairAt_group, GlobalInt64SumAvg.tally_exact,
    GlobalInt64SumAvg.tally_exact]
  simp only [List.filterMap_map, Function.comp_def, id_eq, List.filterMap_some]
  rfl

end GroupedBoolSumAvg

namespace GroupedBoolExtremum

variable {T : Type}

theorem scanChunk_eq (choose : T → T → T) (groupValues : List Bool) (values : List T) :
    scanChunk choose groupValues values =
      ((tally choose).reading (pairAt groupValues fun row => values[row]?)).scan := by
  funext rows
  refine congrArg (fun observe => scanFrom observe Partial.default rows) (funext fun total => funext fun row => ?_)
  exact (orPanic_pair groupValues[row]? values[row]? ((tally choose).observe total)).symm

theorem reduceWithChunk_eq {choose : T → T → T} (hassoc : ∀ a b c, choose (choose a b) c = choose a (choose b c))
    {groupValues : List Bool} {values : List T} (h : Selects groupValues.length matchingRows)
    (hvalues : Selects values.length matchingRows) :
    reduceWithChunk lanes choose groupValues values matchingRows = scanChunk choose groupValues values matchingRows := by
  exact lanes_reading (tally_lawful hassoc) (h.readable_pair hvalues.readable) trivial
    (scanChunk_eq choose groupValues values)

theorem tally_least {K : Type} [LinearOrder K] (key : T → K) (pairs : List (Bool × T)) :
    FirstLeast key (pairs.filterMap (pairOf false)) ((tally (first key)).exact pairs).falseExtremum ∧
      FirstLeast key (pairs.filterMap (pairOf true)) ((tally (first key)).exact pairs).trueExtremum ∧
      ((tally (first key)).exact pairs).firstSeen = pairs.head?.map Prod.fst := by
  induction pairs using List.reverseRecOn with
  | nil => exact ⟨rfl, rfl, rfl⟩
  | append_singleton pairs pair ih =>
    obtain ⟨hfalse, htrue, hseen⟩ := ih
    obtain ⟨group, value⟩ := pair
    rw [Tally.exact_concat, List.filterMap_append, List.filterMap_append, List.head?_append]
    refine ⟨?_, ?_, ?_⟩
    · cases group with
      | false => exact hfalse.concat value
      | true =>
        show FirstLeast key (_ ++ []) (either (first key) _ none)
        rw [List.append_nil, either_none]
        exact hfalse
    · cases group with
      | false =>
        show FirstLeast key (_ ++ []) (either (first key) _ none)
        rw [List.append_nil, either_none]
        exact htrue
      | true => exact htrue.concat value
    · show (((tally (first key)).exact pairs).firstSeen <|> some group) = _
      rw [hseen]
      cases pairs.head? <;> rfl

/-- One pass finds the first extreme of each group, and the group of the first row. -/
def Finds {K : Type} [LinearOrder K] (key : T → K) (choose : T → T → T) (groupValues : List Bool) (values : List T)
    (matchingRows : List Nat) : Prop :=
  ∃ falseExtremum trueExtremum, scanChunk choose groupValues values matchingRows =
      .ok ⟨falseExtremum, trueExtremum, matchingRows.head?.bind fun row => groupValues[row]?⟩ ∧
    FirstLeast key (matchingRows.filterMap (ofGroup groupValues (fun row => values[row]?) false)) falseExtremum ∧
    FirstLeast key (matchingRows.filterMap (ofGroup groupValues (fun row => values[row]?) true)) trueExtremum

theorem scanChunk_least {K : Type} [LinearOrder K] (key : T → K) {groupValues : List Bool} {values : List T}
    (h : Selects groupValues.length matchingRows) (hvalues : Selects values.length matchingRows) :
    Finds key (first key) groupValues values matchingRows := by
  have hread := h.readable_pair hvalues.readable
  obtain ⟨hfalse, htrue, hseen⟩ := tally_least key (matchingRows.filterMap (pairAt groupValues fun row => values[row]?))
  rw [pairAt_group] at hfalse htrue
  rw [pairAt_head hread] at hseen
  refine ⟨_, _, ?_, hfalse, htrue⟩
  rw [scanChunk_eq, Tally.scan_reading (tally_lawful (first_assoc key)) hread trivial, Tally.checked_of_good (by rfl),
    ← hseen]

end GroupedBoolExtremum

theorem parts_some (matchingRows : List Nat) {workerCount : Nat} (h : 0 < workerCount) :
    ∃ parts, (List.range workerCount).mapM (parallelAggregatePartition matchingRows workerCount) = some parts ∧
      parts.flatten = matchingRows := by
  refine ⟨_, ?_, flatten_parts matchingRows h⟩
  have hparts {indexes : List Nat} (hindexes : ∀ i ∈ indexes, i < workerCount) :
      indexes.mapM (parallelAggregatePartition matchingRows workerCount) =
        some (indexes.map (part matchingRows workerCount)) := by
    induction indexes with
    | nil => rfl
    | cons i indexes ih =>
      obtain ⟨hi, hindexes⟩ := List.forall_mem_cons.1 hindexes
      rw [List.mapM_cons, parallelAggregatePartition_eq hi, ih hindexes]
      rfl
  exact hparts fun i hi => List.mem_range.1 hi

theorem min_eq_first : (min : Int64 → Int64 → Int64) = first Int64.toInt := by
  funext left right
  rw [int64_min_eq, firstInt64Minimum_eq]

theorem max_eq_first : (max : Int64 → Int64 → Int64) = first fun x => OrderDual.toDual x.toInt := by
  funext left right
  rw [int64_max_eq, firstInt64Maximum_eq]

theorem min_assoc_int64 (a b c : Int64) : min (min a b) c = min a (min b c) := by
  simp only [min_eq_first, first_assoc]

theorem max_assoc_int64 (a b c : Int64) : max (max a b) c = max a (max b c) := by
  simp only [max_eq_first, first_assoc]

/-- **Parallel aggregates** over any selection of the rows of columns agree with one pass, whatever is granted to
them, and one pass has the exact counts and sums, the first extremes and the group of the first row. The parts of the
lanes are the selection, and no sum overflows. -/
theorem parallel_aggregates (lanes : Lanes) {n : Nat} (h : Selects n matchingRows) :
    (∀ workerCount, 0 < workerCount →
      ∃ parts, (List.range workerCount).mapM (parallelAggregatePartition matchingRows workerCount) = some parts ∧
        parts.flatten = matchingRows) ∧
    (∀ values : List Int64, values.length = n →
      (∀ operation,
        GlobalInt64SumAvg.reduceInt64 lanes operation values matchingRows =
          GlobalInt64SumAvg.scanInt64Chunk operation values matchingRows ∧
        GlobalInt64SumAvg.scanInt64Chunk operation values matchingRows =
          .ok (GlobalInt64SumAvg.total (fun row => values[row]?) matchingRows)) ∧
      (GlobalScalarExtremum.minInt64 lanes values matchingRows =
          GlobalScalarExtremum.scalarChunk values some min matchingRows ∧
        ∃ best, GlobalScalarExtremum.scalarChunk values some min matchingRows = .ok best ∧
          FirstLeast Int64.toInt (matchingRows.filterMap fun row => values[row]?) best) ∧
      GlobalScalarExtremum.maxInt64 lanes values matchingRows =
          GlobalScalarExtremum.scalarChunk values some max matchingRows ∧
        ∃ best, GlobalScalarExtremum.scalarChunk values some max matchingRows = .ok best ∧
          FirstLeast (fun value => OrderDual.toDual value.toInt) (matchingRows.filterMap fun row => values[row]?) best) ∧
    (∀ values : List (Option Int64), values.length = n →
      (∀ operation,
        GlobalInt64SumAvg.reduceNullableInt64 lanes operation values matchingRows =
          GlobalInt64SumAvg.scanNullableInt64Chunk operation values matchingRows ∧
        GlobalInt64SumAvg.scanNullableInt64Chunk operation values matchingRows =
          .ok (GlobalInt64SumAvg.total (fun row => values[row]?.join) matchingRows)) ∧
      (reduceGlobalNullableInt64Count lanes values matchingRows = nullableInt64CountChunk values matchingRows ∧
        nullableInt64CountChunk values matchingRows =
          counted "COUNT" (matchingRows.countP fun row => values[row]?.join.isSome)) ∧
      (GlobalScalarExtremum.minNullableInt64 lanes values matchingRows =
          GlobalScalarExtremum.scalarChunk values id min matchingRows ∧
        ∃ best, GlobalScalarExtremum.scalarChunk values id min matchingRows = .ok best ∧
          FirstLeast Int64.toInt (matchingRows.filterMap fun row => values[row]?.join) best) ∧
      GlobalScalarExtremum.maxNullableInt64 lanes values matchingRows =
          GlobalScalarExtremum.scalarChunk values id max matchingRows ∧
        ∃ best, GlobalScalarExtremum.scalarChunk values id max matchingRows = .ok best ∧
          FirstLeast (fun value => OrderDual.toDual value.toInt)
            (matchingRows.filterMap fun row => values[row]?.join) best) ∧
    (∀ values : List Bool, values.length = n →
      reduceGlobalCountIf lanes values matchingRows = countIfChunk values matchingRows ∧
        countIfChunk values matchingRows = counted "countIf" (matchingRows.countP fun row => values[row]? = some true)) ∧
    (∀ groupValues : List Bool, groupValues.length = n →
      (GroupedBoolCount.reduceRows lanes groupValues matchingRows =
          GroupedBoolCount.scan .count groupValues (fun _ => some true) matchingRows ∧
        GroupedBoolCount.Counts .count groupValues (fun _ => some true) matchingRows) ∧
      (∀ values : List (Option Int64), values.length = n →
        GroupedBoolCount.reduceNullableInt64 lanes groupValues values matchingRows =
          GroupedBoolCount.scan .count groupValues (fun row => values[row]?.map Option.isSome) matchingRows ∧
        GroupedBoolCount.Counts .count groupValues (fun row => values[row]?.map Option.isSome) matchingRows) ∧
      (∀ values : List Bool, values.length = n →
        GroupedBoolCount.reduceCountIf lanes groupValues values matchingRows =
          GroupedBoolCount.scan .countIf groupValues (fun row => values[row]?) matchingRows ∧
        GroupedBoolCount.Counts .countIf groupValues (fun row => values[row]?) matchingRows) ∧
      (∀ values : List Int64, values.length = n →
        (∀ operation,
          GroupedBoolSumAvg.reduce lanes operation groupValues values matchingRows =
            GroupedBoolSumAvg.scanChunk operation groupValues values matchingRows ∧
          GroupedBoolSumAvg.scanChunk operation groupValues values matchingRows =
            .ok (GroupedBoolSumAvg.total groupValues (fun row => values[row]?) matchingRows)) ∧
        GroupedBoolExtremum.minInt64 lanes groupValues values matchingRows =
          GroupedBoolExtremum.scanChunk firstInt64Minimum groupValues values matchingRows ∧
        GroupedBoolExtremum.Finds Int64.toInt firstInt64Minimum groupValues values matchingRows) ∧
      (∀ values : List F64, values.length = n →
        GroupedBoolExtremum.minFloat64 lanes groupValues values matchingRows =
          GroupedBoolExtremum.scanChunk firstFloat64Minimum groupValues values matchingRows ∧
        GroupedBoolExtremum.Finds F64.orderKey firstFloat64Minimum groupValues values matchingRows)) := by
  refine ⟨fun workerCount => parts_some matchingRows, ?_, ?_, ?_, ?_⟩
  · intro values hlength
    have hvalues : Selects values.length matchingRows := hlength ▸ h
    have hmin := GlobalScalarExtremum.scalarChunk_least some Int64.toInt hvalues
    have hmax := GlobalScalarExtremum.scalarChunk_least some (fun value : Int64 => OrderDual.toDual value.toInt) hvalues
    rw [← min_eq_first] at hmin
    rw [← max_eq_first] at hmax
    simp only [Option.bind_fun_some] at hmin hmax
    refine ⟨fun operation => ⟨GlobalInt64SumAvg.reduceInt64_eq operation hvalues, ?_⟩,
      ⟨GlobalScalarExtremum.reduceScalar_eq some min_assoc_int64 hvalues, hmin⟩,
      GlobalScalarExtremum.reduceScalar_eq some max_assoc_int64 hvalues, hmax⟩
    rw [GlobalInt64SumAvg.scanInt64Chunk_eq, GlobalInt64SumAvg.scan_total operation
      (fun row hrow => by rw [Option.isSome_map]; exact hvalues.readable row hrow) h.count]
    refine congrArg (fun read => Exec.ok (GlobalInt64SumAvg.total read matchingRows)) (funext fun row => ?_)
    cases values[row]? <;> rfl
  · intro values hlength
    have hvalues : Selects values.length matchingRows := hlength ▸ h
    have hmin := GlobalScalarExtremum.scalarChunk_least id Int64.toInt hvalues
    have hmax := GlobalScalarExtremum.scalarChunk_least id (fun value : Int64 => OrderDual.toDual value.toInt) hvalues
    rw [← min_eq_first] at hmin
    rw [← max_eq_first] at hmax
    exact ⟨fun operation => ⟨GlobalInt64SumAvg.reduceNullableInt64_eq operation hvalues,
        GlobalInt64SumAvg.scan_total operation hvalues.readable h.count⟩,
      ⟨reduceGlobalNullableInt64Count_eq hvalues, nullableInt64CountChunk_eq hvalues⟩,
      ⟨GlobalScalarExtremum.reduceScalar_eq id min_assoc_int64 hvalues, hmin⟩,
      GlobalScalarExtremum.reduceScalar_eq id max_assoc_int64 hvalues, hmax⟩
  · intro values hlength
    have hvalues : Selects values.length matchingRows := hlength ▸ h
    exact ⟨reduceGlobalCountIf_eq hvalues, countIfChunk_eq hvalues⟩
  · intro groupValues hgroups
    have hgroups : Selects groupValues.length matchingRows := hgroups ▸ h
    refine ⟨⟨GroupedBoolCount.reduceWithChunk_eq .count hgroups fun _ _ => rfl,
      GroupedBoolCount.scan_total .count hgroups fun _ _ => rfl⟩, ?_, ?_, ?_, ?_⟩
    · intro values hlength
      have hvalues : Selects values.length matchingRows := hlength ▸ h
      have hpresent : ∀ row ∈ matchingRows, (values[row]?.map Option.isSome).isSome := by
        intro row hrow
        rw [Option.isSome_map]
        exact hvalues.readable row hrow
      exact ⟨GroupedBoolCount.reduceWithChunk_eq .count hgroups hpresent,
        GroupedBoolCount.scan_total .count hgroups hpresent⟩
    · intro values hlength
      have hvalues : Selects values.length matchingRows := hlength ▸ h
      exact ⟨GroupedBoolCount.reduceWithChunk_eq .countIf hgroups hvalues.readable,
        GroupedBoolCount.scan_total .countIf hgroups hvalues.readable⟩
    · intro values hlength
      have hvalues : Selects values.length matchingRows := hlength ▸ h
      refine ⟨fun operation => ⟨GroupedBoolSumAvg.reduce_eq operation hgroups hvalues,
        GroupedBoolSumAvg.scanChunk_total operation hgroups hvalues⟩, ?_⟩
      rw [GroupedBoolExtremum.minInt64, firstInt64Minimum_eq]
      exact ⟨GroupedBoolExtremum.reduceWithChunk_eq (first_assoc Int64.toInt) hgroups hvalues,
        GroupedBoolExtremum.scanChunk_least Int64.toInt hgroups hvalues⟩
    · intro values hlength
      have hvalues : Selects values.length matchingRows := hlength ▸ h
      rw [GroupedBoolExtremum.minFloat64, firstFloat64Minimum_eq]
      exact ⟨GroupedBoolExtremum.reduceWithChunk_eq (first_assoc F64.orderKey) hgroups hvalues,
        GroupedBoolExtremum.scanChunk_least F64.orderKey hgroups hvalues⟩

end

/-- Two helpers, both of which start and survive. -/
def sampleLanes : Lanes := ⟨some 2, fun _ => true, fun _ => true⟩

theorem sampleLanes_parallel :
    tryParallel sampleLanes [2, 0, 0, 1] (GlobalInt64SumAvg.scanInt64Chunk .sum [5, -7, 11])
      (GlobalInt64SumAvg.reduceOrdered .sum) 2 = .ok (some (.ok ⟨14, 4⟩)) := by
  decide +kernel

/-- The lanes' own results are merged, and the merge is the pass. -/
theorem parallel_aggregates_sample :
    (∃ result, tryParallel sampleLanes [2, 0, 0, 1] (GlobalInt64SumAvg.scanInt64Chunk .sum [5, -7, 11])
        (GlobalInt64SumAvg.reduceOrdered .sum) 2 = .ok (some result) ∧
      GlobalInt64SumAvg.reduceInt64 sampleLanes .sum [5, -7, 11] [2, 0, 0, 1] = result) ∧
    GlobalInt64SumAvg.reduceInt64 sampleLanes .sum [5, -7, 11] [2, 0, 0, 1] =
      .ok (GlobalInt64SumAvg.total (fun row => [(5 : Int64), -7, 11][row]?) [2, 0, 0, 1]) := by
  have hrows : Selects 3 [2, 0, 0, 1] := ⟨by decide, by decide⟩
  have hvalues := (parallel_aggregates sampleLanes hrows).2.1 [5, -7, 11] rfl
  refine ⟨⟨_, sampleLanes_parallel, ?_⟩, (hvalues.1 .sum).1.trans (hvalues.1 .sum).2⟩
  rw [GlobalInt64SumAvg.reduceInt64, runGroupedAggregate]
  dsimp only [sampleLanes]
  rw [← sampleLanes, sampleLanes_parallel]
  rfl

end RustHouse.Batch
