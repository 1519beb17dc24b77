import Mathlib.Data.List.Infix
import RustHouse.Kleene
import RustHouse.Predicate
import RustHouse.TableSound

/-!
# Predicates mean what three-valued logic says

`evaluate_kleene`: a row satisfies a compiled predicate exactly when the
predicate as it is written is true of the row. What is unknown of a row is not
true of it, and neither is its negation.
-/

namespace RustHouse.Batch

open Exec Words

/-! ## Meaning -/

/-- What a comparison says of two values; of NULL it says nothing. -/
def ComparisonOperator.truth (operator : ComparisonOperator) (left right : Value) : Kleene :=
  (left.exactCmp right).elim .unknown fun comparison => .ofBool (operator.accepts comparison)

/-- A text matches a pattern, in which `%` stands for any text and every other character for itself. -/
def likeMatches : List Char → List Char → Bool
  | [], s => s.isEmpty
  | c :: pattern, s =>
    if c = '%' then s.tails.any (likeMatches pattern)
    else match s with
      | [] => false
      | d :: s => c = d && likeMatches pattern s

def Table.cell (t : Table) (row : Nat) (column : String) : Option Value :=
  match t.columnIndex column with
  | .ok index => t.valueAt index row
  | _ => none

def Operand.cell (t : Table) (row : Nat) : Operand → Option Value
  | column name | sharedColumn name => t.cell row name
  | literal value => some value

def Value.likeTruth (pattern : String) : Value → Kleene
  | string s => .ofBool (likeMatches pattern.toList s.toList)
  | _ => .unknown

/-- **The meaning of a predicate** for a row. -/
def Condition.truth (t : Table) (row : Nat) : Condition → Kleene
  | comparison left operator right =>
    .ofOption (left.cell t row) fun left => .ofOption (right.cell t row) fun right => operator.truth left right
  | isNull column negated => .ofOption (t.cell row column) fun value => .ofBool (value.isNull != negated)
  | inList column literals negated =>
    .signed negated (.ofOption (t.cell row column) fun value =>
      .any (fun literal => ComparisonOperator.equal.truth value literal) literals)
  | between column lower upper negated =>
    .signed negated (.ofOption (t.cell row column) fun value =>
      (ComparisonOperator.greaterOrEqual.truth value lower).and (ComparisonOperator.lessOrEqual.truth value upper))
  | like column pattern negated => .signed negated (.ofOption (t.cell row column) (Value.likeTruth pattern))
  | not condition => (condition.truth t row).not
  | and left right => (left.truth t row).and (right.truth t row)
  | or left right => (left.truth t row).or (right.truth t row)

def Value.textTruth (test : String → Bool) : Value → Kleene
  | string s => .ofBool (test s)
  | _ => .unknown

/-- The meaning of a predicate in the form of the parser. -/
def Predicate.truth (t : Table) (row : Nat) : Predicate → Kleene
  | comparison left operator right =>
    .ofOption (left.cell t row) fun left => .ofOption (right.cell t row) fun right => operator.truth left right
  | isNull column => .ofOption (t.cell row column) fun value => .ofBool value.isNull
  | isNotNull column => .ofOption (t.cell row column) fun value => .ofBool !value.isNull
  | likePrefix column start => .ofOption (t.cell row column) (Value.textTruth fun s => startsWith s start)
  | likeSuffix column ending => .ofOption (t.cell row column) (Value.textTruth fun s => endsWith s ending)
  | likeContains column substring => .ofOption (t.cell row column) (Value.textTruth fun s => containsString s substring)
  | not predicate => (predicate.truth t row).not
  | and left right => (left.truth t row).and (right.truth t row)
  | or left right => (left.truth t row).or (right.truth t row)

/-! ## Lowering -/

section
variable {t : Table} {row : Nat}

theorem truth_negateIf (negated : Bool) (predicate : Predicate) :
    (negateIf negated predicate).truth t row = .signed negated (predicate.truth t row) := by
  cases negated <;> rfl

theorem lowerInPredicate_truth {column : String} {literals : List Value} {predicate : Predicate}
    (h : lowerInPredicate column literals = some predicate) :
    predicate.truth t row = .ofOption (t.cell row column) fun value =>
      .any (fun literal => ComparisonOperator.equal.truth value literal) literals := by
  induction literals using lowerInPredicate.induct generalizing predicate with
  | case1 => simp [lowerInPredicate] at h
  | case2 literal =>
    simp only [lowerInPredicate, Option.some.injEq] at h
    subst h
    simp only [Predicate.truth, Operand.cell, Kleene.any]
    cases t.cell row column with
    | none => rfl
    | some value => cases h : ComparisonOperator.equal.truth value literal <;> simp [Kleene.ofOption, h, Kleene.or]
  | case3 first second rest ihLeft ihRight =>
    rw [lowerInPredicate] at h
    obtain ⟨left, hleft, h⟩ := Option.bind_eq_some_iff.1 h
    obtain ⟨right, hright, h⟩ := Option.bind_eq_some_iff.1 h
    obtain rfl := Option.some.inj h
    rw [Predicate.truth, ihLeft hleft, ihRight hright, ← Kleene.ofOption_or]
    congr 1
    funext value
    rw [← Kleene.any_append, List.take_append_drop]

/-! ## Patterns -/

theorem likeMatches_char {c : Char} (hc : c ≠ '%') (d : Char) (pattern s : List Char) :
    likeMatches (c :: pattern) (d :: s) = (decide (c = d) && likeMatches pattern s) := by
  conv_lhs => unfold likeMatches
  exact if_neg hc

theorem likeMatches_char_nil {c : Char} (hc : c ≠ '%') (pattern : List Char) :
    likeMatches (c :: pattern) [] = false := by
  unfold likeMatches
  exact if_neg hc

/-- Without a wildcard a pattern matches itself only, before whatever follows. -/
theorem likeMatches_append {literal pattern s : List Char} (h : '%' ∉ literal) :
    likeMatches (literal ++ pattern) s = true ↔ ∃ rest, s = literal ++ rest ∧ likeMatches pattern rest = true := by
  induction literal generalizing s with
  | nil => simp
  | cons c literal ih =>
    rw [List.mem_cons, not_or] at h
    obtain ⟨hc, hliteral⟩ := h
    have hne : c ≠ '%' := fun hwild => hc hwild.symm
    rw [List.cons_append]
    cases s with
    | nil => simp [likeMatches_char_nil hne]
    | cons d s =>
      simp only [likeMatches_char hne, Bool.and_eq_true, decide_eq_true_eq, ih hliteral, List.cons_append, List.cons.injEq]
      constructor
      · rintro ⟨rfl, rest, rfl, hrest⟩
        exact ⟨rest, ⟨rfl, rfl⟩, hrest⟩
      · rintro ⟨rest, ⟨rfl, rfl⟩, hrest⟩
        exact ⟨rfl, rest, rfl, hrest⟩

theorem likeMatches_literal {literal s : List Char} (h : '%' ∉ literal) :
    likeMatches literal s = true ↔ s = literal := by
  have happend : likeMatches (literal ++ []) s = true ↔ _ := likeMatches_append h
  rw [List.append_nil] at happend
  rw [happend]
  simp [likeMatches]

theorem likeMatches_wild_eq (pattern s : List Char) :
    likeMatches ('%' :: pattern) s = s.tails.any (likeMatches pattern) := by
  unfold likeMatches
  exact if_pos rfl

theorem likeMatches_wild {pattern s : List Char} :
    likeMatches ('%' :: pattern) s = true ↔ ∃ before rest, s = before ++ rest ∧ likeMatches pattern rest = true := by
  rw [likeMatches_wild_eq, List.any_eq_true]
  simp only [List.mem_tails]
  constructor
  · rintro ⟨rest, ⟨before, rfl⟩, hrest⟩
    exact ⟨before, rest, rfl, hrest⟩
  · rintro ⟨before, rest, rfl, hrest⟩
    exact ⟨rest, List.suffix_append before rest, hrest⟩

theorem containsString_iff {s substring : String} :
    containsString s substring = true ↔ ∃ before after, s.toList = before ++ (substring.toList ++ after) := by
  rw [containsString, List.any_eq_true]
  simp only [List.mem_tails, List.isPrefixOf_iff_prefix]
  constructor
  · rintro ⟨tail, ⟨before, hbefore⟩, after, rfl⟩
    exact ⟨before, after, hbefore.symm⟩
  · rintro ⟨before, after, h⟩
    exact ⟨substring.toList ++ after, ⟨before, h.symm⟩, List.prefix_append _ _⟩

theorem count_wildcard_zero {s : List Char} (h : s.count '%' = 0) : '%' ∉ s := List.count_eq_zero.1 h

theorem getLast?_eq_some_dropLast {s : List Char} {c : Char} (h : s.getLast? = some c) : s = s.dropLast ++ [c] := by
  obtain ⟨start, rfl⟩ := List.getLast?_eq_some_iff.1 h
  rw [List.dropLast_concat]

theorem lowerLikePattern_truth {column pattern : String} {predicate : Predicate}
    (h : lowerLikePattern column pattern = some predicate) :
    predicate.truth t row = .ofOption (t.cell row column) (Value.likeTruth pattern) := by
  have htest : ∀ test : String → Bool, (∀ s : String, test s = likeMatches pattern.toList s.toList) →
      Value.textTruth test = Value.likeTruth pattern := by
    intro test heq
    funext value
    cases value <;> simp [Value.textTruth, Value.likeTruth, heq]
  simp only [lowerLikePattern] at h
  split at h
  · rename_i hcount hend
    obtain rfl := Option.some.inj h
    have hsplit := getLast?_eq_some_dropLast (of_decide_eq_true hend)
    have hliteral : '%' ∉ pattern.toList.dropLast := by
      rw [hsplit, List.count_append, List.count_singleton_self] at hcount
      exact count_wildcard_zero (Nat.succ.inj hcount)
    rw [Predicate.truth, htest]
    intro s
    rw [Bool.eq_iff_iff, startsWith, List.isPrefixOf_iff_prefix, String.toList_ofList, hsplit, likeMatches_append hliteral,
      List.dropLast_concat]
    constructor
    · rintro ⟨rest, hrest⟩
      exact ⟨rest, hrest.symm, likeMatches_wild.2 ⟨rest, [], (List.append_nil _).symm, rfl⟩⟩
    · rintro ⟨rest, hrest, _⟩
      exact ⟨rest, hrest.symm⟩
  · rename_i hcount hstart _
    obtain rfl := Option.some.inj h
    obtain ⟨ending, hsplit⟩ := List.head?_eq_some_iff.1 (of_decide_eq_true hstart)
    have hliteral : '%' ∉ ending := by
      rw [hsplit, List.count_cons_self] at hcount
      exact count_wildcard_zero (Nat.succ.inj hcount)
    rw [Predicate.truth, htest]
    intro s
    rw [Bool.eq_iff_iff, endsWith, List.isSuffixOf_iff_suffix, String.toList_ofList, hsplit, List.tail_cons, likeMatches_wild]
    constructor
    · rintro ⟨before, hbefore⟩
      exact ⟨before, ending, hbefore.symm, (likeMatches_literal hliteral).2 rfl⟩
    · rintro ⟨before, rest, hs, hrest⟩
      obtain rfl := (likeMatches_literal hliteral).1 hrest
      exact ⟨before, hs.symm⟩
  · rename_i hcount hstart hend
    obtain rfl := Option.some.inj h
    obtain ⟨tail, hsplit⟩ := List.head?_eq_some_iff.1 (of_decide_eq_true hstart)
    have hlast := of_decide_eq_true hend
    rw [hsplit, List.count_cons_self] at hcount
    obtain ⟨middle, rfl⟩ : ∃ middle, tail = middle ++ ['%'] := by
      cases tail with
      | nil => cases hcount
      | cons c tail =>
        rw [hsplit, List.getLast?_cons_cons] at hlast
        exact ⟨_, getLast?_eq_some_dropLast hlast⟩
    have hliteral : '%' ∉ middle := by
      rw [List.count_append, List.count_singleton_self] at hcount
      exact count_wildcard_zero (Nat.succ.inj (Nat.succ.inj hcount))
    have hmiddle : pattern.toList.dropLast.tail = middle := by
      rw [hsplit, ← List.cons_append, List.dropLast_concat, List.tail_cons]
    rw [Predicate.truth, htest]
    intro s
    rw [Bool.eq_iff_iff, containsString_iff, String.toList_ofList, hmiddle, hsplit, likeMatches_wild]
    constructor
    · rintro ⟨before, after, hs⟩
      refine ⟨before, middle ++ after, hs, (likeMatches_append hliteral).2 ⟨after, rfl, ?_⟩⟩
      exact likeMatches_wild.2 ⟨after, [], (List.append_nil _).symm, rfl⟩
    · rintro ⟨before, rest, hs, hrest⟩
      obtain ⟨after, rfl, _⟩ := (likeMatches_append hliteral).1 hrest
      exact ⟨before, after, hs⟩
  · cases h

theorem lower_truth {condition : Condition} {predicate : Predicate} (h : condition.lower = some predicate) :
    predicate.truth t row = condition.truth t row := by
  induction condition generalizing predicate with
  | comparison left operator right => obtain rfl := Option.some.inj h; rfl
  | isNull column negated =>
    obtain rfl := Option.some.inj h
    cases negated
    · simp [Predicate.truth, Condition.truth]
    · simp [Predicate.truth, Condition.truth]
  | inList column literals negated =>
    obtain ⟨predicate, hlower, rfl⟩ := Option.map_eq_some_iff.1 h
    rw [truth_negateIf, lowerInPredicate_truth hlower]
    rfl
  | between column lower upper negated =>
    obtain rfl := Option.some.inj h
    rw [truth_negateIf, Condition.truth, Kleene.ofOption_and]
    rfl
  | like column pattern negated =>
    obtain ⟨predicate, hlower, rfl⟩ := Option.map_eq_some_iff.1 h
    rw [truth_negateIf, lowerLikePattern_truth hlower]
    rfl
  | not condition ih =>
    obtain ⟨predicate, hlower, rfl⟩ := Option.map_eq_some_iff.1 h
    rw [Predicate.truth, ih hlower, Condition.truth]
  | and left right ihLeft ihRight =>
    obtain ⟨left, hleft, h⟩ := Option.bind_eq_some_iff.1 h
    obtain ⟨right, hright, rfl⟩ := Option.map_eq_some_iff.1 h
    rw [Predicate.truth, ihLeft hleft, ihRight hright, Condition.truth]
  | or left right ihLeft ihRight =>
    obtain ⟨left, hleft, h⟩ := Option.bind_eq_some_iff.1 h
    obtain ⟨right, hright, rfl⟩ := Option.map_eq_some_iff.1 h
    rw [Predicate.truth, ihLeft hleft, ihRight hright, Condition.truth]

/-! ## Compilation -/

theorem invertComparison_accepts (operator : ComparisonOperator) (comparison : Ordering) :
    (invertComparison operator).accepts comparison = !operator.accepts comparison := by
  cases operator <;> cases comparison <;> rfl

section
variable {declared : List Declared}

theorem column_value (column : Column) (h : row < column.len) : ∃ value, column.value row = some value := by
  cases column <;> exact ⟨_, by rw [Column.value, List.getElem?_eq_getElem h]; rfl⟩

theorem valueAt_of_declared (h : Table.Consistent declared t) (hrow : row < t.rowCount) {i : Nat} {d : Declared}
    (hd : declared[i]? = some d) : ∃ value, t.valueAt i row = some value := by
  obtain ⟨column, hcolumn, _, hlen⟩ := h.column_of_declared hd
  obtain ⟨value, hvalue⟩ := column_value column (hlen ▸ hrow)
  exact ⟨value, by rw [Table.valueAt, hcolumn]; exact hvalue⟩

theorem cell_of_columnIndex (h : Table.Consistent declared t) (hrow : row < t.rowCount) {name : String} {i : Nat}
    (hi : t.columnIndex name = .ok i) : ∃ value, t.valueAt i row = some value ∧ t.cell row name = some value := by
  obtain ⟨_, d, hd⟩ := Table.columnIndex_eq_ok h hi
  obtain ⟨value, hvalue⟩ := valueAt_of_declared h hrow hd
  exact ⟨value, hvalue, by rw [Table.cell, hi]; exact hvalue⟩

theorem compileColumn_spec (h : Table.Consistent declared t) (hrow : row < t.rowCount) {name : String}
    {operand : CompiledOperand} (hc : compileColumn t name = .ok operand) :
    ∃ value, operand.value t row = some value ∧ t.cell row name = some value := by
  obtain ⟨i, hi, hc⟩ := Exec.bind_eq_ok.1 hc
  obtain ⟨_, _, hc⟩ := Exec.bind_eq_ok.1 hc
  obtain rfl := Exec.ok.inj hc
  exact cell_of_columnIndex h hrow hi

theorem compileOperand_spec (h : Table.Consistent declared t) (hrow : row < t.rowCount) {operand : Operand}
    {compiled : CompiledOperand} (hc : compileOperand t operand = .ok compiled) :
    ∃ value, compiled.value t row = some value ∧ operand.cell t row = some value := by
  cases operand with
  | column name => exact compileColumn_spec h hrow hc
  | sharedColumn name => exact compileColumn_spec h hrow hc
  | literal value =>
    obtain ⟨_, _, hc⟩ := Exec.bind_eq_ok.1 hc
    obtain rfl := Exec.ok.inj hc
    exact ⟨value, rfl, rfl⟩

theorem compileLikeColumn_spec (h : Table.Consistent declared t) (hrow : row < t.rowCount) {name : String} {i : Nat}
    (hc : compileLikeColumn t name = .ok i) :
    ∃ s, stringAt t i row = some s ∧ t.cell row name = some (.string s) := by
  obtain ⟨i', hi, hc⟩ := Exec.bind_eq_ok.1 hc
  obtain ⟨field, hfield, hc⟩ := Exec.bind_eq_ok.1 hc
  obtain ⟨_, htype, hc⟩ := Exec.bind_eq_ok.1 hc
  obtain rfl := Exec.ok.inj hc
  rw [rejectIf_eq_ok, not_not] at htype
  obtain ⟨_, d, hd⟩ := Table.columnIndex_eq_ok h hi
  obtain ⟨column, hcolumn, hkind, hlen⟩ := h.column_of_declared hd
  rw [orPanic_eq_ok, h.schema_getElem?, hd] at hfield
  obtain rfl := Option.some.inj hfield
  have hstring : column.dataType = .string := (congrArg Prod.fst hkind).trans htype
  cases column with
  | string values =>
    have hlt : row < values.length := Nat.lt_of_lt_of_eq hrow hlen.symm
    refine ⟨values[row], ?_, ?_⟩
    · rw [stringAt, hcolumn]
      exact List.getElem?_eq_getElem hlt
    · rw [Table.cell, hi]
      simp only [Table.valueAt, hcolumn, Option.bind_some, Column.value, List.getElem?_eq_getElem hlt, Option.map_some]
  | _ => cases hstring

theorem evaluate_and {left right : CompiledPredicate} {a b : Bool} (hleft : left.evaluate t row = some a)
    (hright : right.evaluate t row = some b) : (left.and right).evaluate t row = some (a && b) := by
  rw [CompiledPredicate.evaluate, hleft]
  cases a
  · rfl
  · exact hright

theorem evaluate_or {left right : CompiledPredicate} {a b : Bool} (hleft : left.evaluate t row = some a)
    (hright : right.evaluate t row = some b) : (left.or right).evaluate t row = some (a || b) := by
  rw [CompiledPredicate.evaluate, hleft]
  cases a
  · exact hright
  · rfl

theorem textTest_spec {cell : Option Value} {s : String} (hs : cell = some (.string s)) (test : String → Bool)
    (negated : Bool) : (Kleene.signed negated (.ofOption cell (Value.textTruth test))).isTrue = (test s != negated) := by
  subst hs
  exact Kleene.isTrue_signed_ofBool negated (test s)

/-- **Compilation** turns a predicate, or its negation, into a test for what is true. -/
theorem compile_evaluate (h : Table.Consistent declared t) (hrow : row < t.rowCount) {negated : Bool}
    {predicate : Predicate} {compiled : CompiledPredicate}
    (hc : compilePredicateWithPolarity t negated predicate = .ok compiled) :
    compiled.evaluate t row = some (Kleene.signed negated (predicate.truth t row)).isTrue := by
  induction predicate generalizing negated compiled with
  | comparison left operator right =>
    obtain ⟨left', hleft, hc⟩ := Exec.bind_eq_ok.1 hc
    obtain ⟨right', hright, hc⟩ := Exec.bind_eq_ok.1 hc
    obtain ⟨_, _, hc⟩ := Exec.bind_eq_ok.1 hc
    obtain rfl := Exec.ok.inj hc
    obtain ⟨a, ha, hcella⟩ := compileOperand_spec h hrow hleft
    obtain ⟨b, hb, hcellb⟩ := compileOperand_spec h hrow hright
    simp only [CompiledPredicate.evaluate, ha, hb, Predicate.truth, hcella, hcellb, sqlCmp_eq_exactCmp, Kleene.ofOption,
      Option.elim_some, ComparisonOperator.truth, Option.bind_eq_bind, Option.bind_some, Option.some.injEq]
    cases a.exactCmp b with
    | none => exact (Kleene.isTrue_signed_unknown negated).symm
    | some comparison =>
      rw [Option.elim_some, Option.elim_some, Kleene.isTrue_signed_ofBool]
      cases negated with
      | false => exact (Bool.bne_false _).symm
      | true => exact (invertComparison_accepts operator comparison).trans (Bool.bne_true _).symm
  | isNull column =>
    obtain ⟨i, hi, hc⟩ := Exec.bind_eq_ok.1 hc
    obtain rfl := Exec.ok.inj hc
    obtain ⟨value, hvalue, hcell⟩ := cell_of_columnIndex h hrow hi
    simp only [CompiledPredicate.evaluate, hvalue, Predicate.truth, hcell, Kleene.ofOption, Option.elim_some,
      Option.bind_eq_bind, Option.bind_some, Kleene.isTrue_signed_ofBool]
    cases value.isNull <;> cases negated <;> rfl
  | isNotNull column =>
    obtain ⟨i, hi, hc⟩ := Exec.bind_eq_ok.1 hc
    obtain rfl := Exec.ok.inj hc
    obtain ⟨value, hvalue, hcell⟩ := cell_of_columnIndex h hrow hi
    simp only [CompiledPredicate.evaluate, hvalue, Predicate.truth, hcell, Kleene.ofOption, Option.elim_some,
      Option.bind_eq_bind, Option.bind_some, Kleene.isTrue_signed_ofBool]
    cases value.isNull <;> cases negated <;> rfl
  | likePrefix column start =>
    obtain ⟨i, hi, hc⟩ := Exec.bind_eq_ok.1 hc
    obtain rfl := Exec.ok.inj hc
    obtain ⟨s, hs, hcell⟩ := compileLikeColumn_spec h hrow hi
    rw [Predicate.truth, textTest_spec hcell, CompiledPredicate.evaluate, hs]
    rfl
  | likeSuffix column ending =>
    obtain ⟨i, hi, hc⟩ := Exec.bind_eq_ok.1 hc
    obtain rfl := Exec.ok.inj hc
    obtain ⟨s, hs, hcell⟩ := compileLikeColumn_spec h hrow hi
    rw [Predicate.truth, textTest_spec hcell, CompiledPredicate.evaluate, hs]
    rfl
  | likeContains column substring =>
    obtain ⟨i, hi, hc⟩ := Exec.bind_eq_ok.1 hc
    obtain rfl := Exec.ok.inj hc
    obtain ⟨s, hs, hcell⟩ := compileLikeColumn_spec h hrow hi
    rw [Predicate.truth, textTest_spec hcell, CompiledPredicate.evaluate, hs]
    rfl
  | not predicate ih =>
    rw [Predicate.truth, Kleene.signed_not]
    exact ih hc
  | and left right ihLeft ihRight =>
    obtain ⟨left', hleft, hc⟩ := Exec.bind_eq_ok.1 hc
    obtain ⟨right', hright, hc⟩ := Exec.bind_eq_ok.1 hc
    obtain rfl := Exec.ok.inj hc
    rw [Predicate.truth, Kleene.signed_and]
    cases negated with
    | false => exact (evaluate_and (ihLeft hleft) (ihRight hright)).trans (congrArg some (Kleene.isTrue_and _ _).symm)
    | true => exact (evaluate_or (ihLeft hleft) (ihRight hright)).trans (congrArg some (Kleene.isTrue_or _ _).symm)
  | or left right ihLeft ihRight =>
    obtain ⟨left', hleft, hc⟩ := Exec.bind_eq_ok.1 hc
    obtain ⟨right', hright, hc⟩ := Exec.bind_eq_ok.1 hc
    obtain rfl := Exec.ok.inj hc
    rw [Predicate.truth, Kleene.signed_or]
    cases negated with
    | false => exact (evaluate_or (ihLeft hleft) (ihRight hright)).trans (congrArg some (Kleene.isTrue_or _ _).symm)
    | true => exact (evaluate_and (ihLeft hleft) (ihRight hright)).trans (congrArg some (Kleene.isTrue_and _ _).symm)

end

end

/-- **WHERE is three-valued.** For every reachable table, every predicate that compiles and every row, the
compiled predicate evaluates, and to true exactly when the predicate as it is written is true of the row. -/
theorem evaluate_kleene {declared : List Declared} {t : Table} (h : Table.Reachable declared t) {condition : Condition}
    {predicate : Predicate} (hlower : condition.lower = some predicate) {compiled : CompiledPredicate}
    (hcompile : compilePredicate t predicate = .ok compiled) {row : Nat} (hrow : row < t.rowCount) :
    ∃ result, compiled.evaluate t row = some result ∧ (result = true ↔ condition.truth t row = .true) := by
  refine ⟨_, compile_evaluate (Table.reachable_consistent h) hrow hcompile, ?_⟩
  rw [Kleene.isTrue_iff, ← lower_truth hlower]
  rfl

/-- A column with a number and a NULL. -/
def nullableSample : Table :=
  ⟨"readings", [⟨"level", .int64⟩], [.nullableInt64 [some 3, none]], 2, 18, .default, 0, none, none⟩

theorem evaluate_kleene_sample :
    ∃ result, (CompiledPredicate.or (.comparison (.column 0 .int64) .less (.literal (.int64 1)))
        (.comparison (.column 0 .int64) .greater (.literal (.int64 2)))).evaluate nullableSample 1 = some result ∧
      (result = true ↔ (Condition.between "LEVEL" (.int64 1) (.int64 2) true).truth nullableSample 1 = .true) := by
  have hnew : Table.withNullableInt64Values "readings" "level" [some 3, none] .default = .ok nullableSample := by
    decide +kernel
  exact evaluate_kleene (.withNullableInt64Values hnew) rfl
    (by decide +kernel : compilePredicate nullableSample (negateIf true (lowerBetween "LEVEL" (.int64 1) (.int64 2))) = _)
    (by decide)

end RustHouse.Batch
