import RustHouse.UnionJoinSound

/-!
# The order of values is coherent

The order merges the numerical equality of zeros with the total order of the
other bit patterns, and is that of three keys: the variant, a place within it,
and a text. Equality is an equivalence that hashing respects, and SQL comparison
of finite values is this order within a type and that of the exact numbers
between the numeric types.
-/

namespace RustHouse.Batch

open Std (OrientedCmp ReflCmp TransCmp)

namespace Value

/-! ## The order of three keys -/

/-- Where a value stands among those of its variant, but for texts. -/
def place : Value → Int
  | null dataType => dataType.index
  | int64 value => value.toInt
  | float64 value => value.orderKey
  | bool value => if value then 1 else 0
  | string _ => 0

def text : Value → String
  | string value => value
  | _ => ""

/-- The order by variants, then by places, then by texts. -/
def keyCmp : Value → Value → Ordering :=
  compareLex (compareOn variantIndex) (compareLex (compareOn place) (compareOn text))

theorem keyCmp_of_variants {left right : Value} (h : left.variantIndex ≠ right.variantIndex) :
    keyCmp left right = compare left.variantIndex right.variantIndex := by
  have hne : compare left.variantIndex right.variantIndex ≠ .eq := fun heq => h (compare_eq_iff_eq.1 heq)
  show (compare left.variantIndex right.variantIndex).then _ = _
  cases hcompare : compare left.variantIndex right.variantIndex with
  | eq => exact absurd hcompare hne
  | lt => rfl
  | gt => rfl

theorem cmp_variants {left right : Value} (h : left.variantIndex ≠ right.variantIndex) :
    left.cmp right = compare left.variantIndex right.variantIndex := by
  cases left <;> cases right <;> first | rfl | exact absurd rfl h

theorem keyCmp_of_places {left right : Value} (hvariant : left.variantIndex = right.variantIndex)
    (htext : left.text = right.text) : keyCmp left right = compare left.place right.place := by
  show (compare left.variantIndex right.variantIndex).then
    ((compare left.place right.place).then (compare left.text right.text)) = _
  rw [hvariant, htext, compare_eq_iff_eq.2 rfl, Std.compare_eq_iff_eq.2 (rfl : right.text = right.text)]
  exact Ordering.then_eq

/-- **The order of values** is that of their keys. -/
theorem cmp_eq_keyCmp : cmp = keyCmp := by
  funext left right
  by_cases hvariant : left.variantIndex = right.variantIndex
  · cases left with
    | null leftType =>
      cases right with
      | null rightType =>
        rw [@keyCmp_of_places (null leftType) (null rightType) rfl rfl]
        cases leftType <;> cases rightType <;> rfl
      | _ => cases hvariant
    | int64 leftValue =>
      cases right with
      | int64 rightValue => exact (@keyCmp_of_places (int64 leftValue) (int64 rightValue) rfl rfl).symm
      | _ => cases hvariant
    | float64 leftValue =>
      cases right with
      | float64 rightValue =>
        exact (F64.floatCmp_eq _ _).trans (@keyCmp_of_places (float64 leftValue) (float64 rightValue) rfl rfl).symm
      | _ => cases hvariant
    | bool leftValue =>
      cases right with
      | bool rightValue =>
        rw [@keyCmp_of_places (bool leftValue) (bool rightValue) rfl rfl]
        cases leftValue <;> cases rightValue <;> rfl
      | _ => cases hvariant
    | string leftValue =>
      cases right with
      | string rightValue => rfl
      | _ => cases hvariant
  · rw [cmp_variants hvariant, keyCmp_of_variants hvariant]

instance : TransCmp cmp := by
  rw [cmp_eq_keyCmp]
  unfold keyCmp
  infer_instance

/-! ## Equality -/

theorem eq_equivalence : Equivalence fun left right : Value => left.eq right = true := by
  refine ⟨fun value => ?_, fun {left right} h => ?_, fun {first second third} h h' => ?_⟩
  · rw [eq_iff]
  · rw [eq_iff] at h ⊢
    exact h.symm
  · rw [eq_iff] at h h' ⊢
    exact h.trans h'

/-! ## SQL comparison -/

/-- Not NULL, and neither infinite nor not a number. -/
def IsFinite : Value → Prop
  | null _ => False
  | float64 value => value.isFinite = true
  | _ => True

end Value

namespace F64

theorem isFinite_iff {x : F64} : x.isFinite = true ↔ Binary64.exponentBits x.bits.toNat ≠ 2047 := by
  have hexponent : ((x.bits >>> 52) &&& 0x7ff).toNat = Binary64.exponentBits x.bits.toNat := by
    rw [UInt64.toNat_and, UInt64.toNat_shiftRight, Binary64.exponentBits]
    show (x.bits.toNat >>> 52) &&& (2 ^ 11 - 1) = _
    rw [Nat.and_two_pow_sub_one_eq_mod, Nat.shiftRight_eq_div_pow]
  rw [isFinite, bne_iff_ne, ne_eq, ne_eq, ← UInt64.toNat_inj, hexponent]
  rfl

theorem isNaN_of_isFinite {x : F64} (h : x.isFinite = true) : x.isNaN = false :=
  decide_eq_false fun hnan => isFinite_iff.1 h hnan.1

theorem mod_lt_of_magnitude_lt {left right : Nat} (h : Binary64.magnitude left < Binary64.magnitude right) :
    left % 2 ^ 63 < right % 2 ^ 63 := by
  by_contra hle
  rcases Nat.lt_or_eq_of_le (Nat.le_of_not_lt hle) with hlt | heq
  · exact absurd (Binary64.magnitude_lt hlt) (Nat.lt_asymm h)
  · exact absurd (Binary64.magnitude_inj.2 heq) (Nat.ne_of_gt h)

theorem totalKey_lt {x y : F64} (h : Binary64.units x.bits.toNat < Binary64.units y.bits.toNat) :
    x.totalKey < y.totalKey := by
  have hx := x.bits.toNat_lt
  have hy := y.bits.toNat_lt
  have hpositive := @mod_lt_of_magnitude_lt x.bits.toNat y.bits.toNat
  have hnegative := @mod_lt_of_magnitude_lt y.bits.toNat x.bits.toNat
  unfold Binary64.units Binary64.signBit at h
  unfold totalKey
  split at h <;> split at h <;> split <;> split <;> omega

/-- Numbers that are ordered at all are ordered as the values that hold them. -/
theorem partialCmp_eq_floatCmp {x y : F64} (hx : x.isNaN = false) (hy : y.isNaN = false) :
    x.partialCmp y = some (x.floatCmp y) := by
  have hunits := partialCmp_eq hx hy
  rw [floatCmp]
  rcases lt_trichotomy (Binary64.units x.bits.toNat) (Binary64.units y.bits.toNat) with hlt | heq | hgt
  · rw [compare_lt_iff_lt.2 hlt] at hunits
    rw [hunits, if_neg (by decide), compare_lt_iff_lt.2 (totalKey_lt hlt)]
  · rw [compare_eq_iff_eq.2 heq] at hunits
    rw [hunits, if_pos rfl]
  · rw [compare_gt_iff_gt.2 hgt] at hunits
    rw [hunits, if_neg (by decide), compare_gt_iff_gt.2 (totalKey_lt hgt)]

end F64

namespace Value

/-- **Within a type** finite values compare in SQL as they are ordered. -/
theorem sqlCmp_eq_cmp {left right : Value} (hleft : left.IsFinite) (hright : right.IsFinite)
    (htype : left.dataType = right.dataType) : left.sqlCmp right = some (left.cmp right) := by
  cases left with
  | null leftType => exact hleft.elim
  | int64 leftValue =>
    cases right with
    | null rightType => exact hright.elim
    | int64 rightValue => rfl
    | _ => cases htype
  | float64 leftValue =>
    cases right with
    | null rightType => exact hright.elim
    | float64 rightValue => exact F64.partialCmp_eq_floatCmp (F64.isNaN_of_isFinite hleft) (F64.isNaN_of_isFinite hright)
    | _ => cases htype
  | bool leftValue =>
    cases right with
    | null rightType => exact hright.elim
    | bool rightValue => rfl
    | _ => cases htype
  | string leftValue =>
    cases right with
    | null rightType => exact hright.elim
    | string rightValue => rfl
    | _ => cases htype

/-- **Between the numeric types** finite values compare as their exact values. -/
theorem sqlCmp_of_exact {left right : Value} {a b : ℚ} (hleft : left.exact = some a) (hright : right.exact = some b) :
    left.sqlCmp right = some (compare a b) := by
  rw [sqlCmp_eq_exactCmp]
  have hcmp : (left.exact.bind fun a => right.exact.map fun b => compare a b) = some (compare a b) := by
    rw [hleft, hright]
    rfl
  cases left with
  | int64 leftValue => cases right <;> exact hcmp
  | float64 leftValue =>
    cases right with
    | null rightType => cases hright
    | _ => exact hcmp
  | _ => cases hleft

theorem exact_of_isFinite {value : Value} (hfinite : value.IsFinite)
    (hnumeric : value.dataType = .int64 ∨ value.dataType = .float64) : ∃ a, value.exact = some a := by
  cases value with
  | null dataType => exact hfinite.elim
  | int64 value => exact ⟨_, rfl⟩
  | float64 value => exact ⟨_, if_neg (by rw [F64.isNaN_of_isFinite hfinite]; exact Bool.false_ne_true)⟩
  | bool value => simp [dataType] at hnumeric
  | string value => simp [dataType] at hnumeric

theorem sqlCmp_cases {left right : Value} {order : Ordering} (h : left.sqlCmp right = some order) :
    (∃ a b, left.exact = some a ∧ right.exact = some b ∧ order = compare a b) ∨
      left.exact = none ∧ right.exact = none ∧ left.IsFinite ∧ right.IsFinite ∧ left.dataType = right.dataType ∧
        order = left.cmp right := by
  rw [sqlCmp_eq_exactCmp] at h
  have hnumbers : (left.exact.bind fun a => right.exact.map fun b => compare a b) = some order →
      ∃ a b, left.exact = some a ∧ right.exact = some b ∧ order = compare a b := by
    intro h
    obtain ⟨a, ha, h⟩ := Option.bind_eq_some_iff.1 h
    obtain ⟨b, hb, h⟩ := Option.map_eq_some_iff.1 h
    exact ⟨a, b, ha, hb, h.symm⟩
  cases left with
  | null leftType => cases h
  | int64 leftValue => cases right <;> exact .inl (hnumbers h)
  | float64 leftValue =>
    cases right with
    | null rightType => cases h
    | _ => exact .inl (hnumbers h)
  | bool leftValue =>
    cases right with
    | bool rightValue => exact .inr ⟨rfl, rfl, trivial, trivial, rfl, (Option.some.inj h).symm⟩
    | _ => cases h
  | string leftValue =>
    cases right with
    | string rightValue => exact .inr ⟨rfl, rfl, trivial, trivial, rfl, (Option.some.inj h).symm⟩
    | _ => cases h

theorem trans_of_orders {α : Type} {cmp : α → α → Ordering} [TransCmp cmp] {a b c : α} :
    (cmp a b = cmp b c → cmp a c = cmp a b) ∧ ((cmp a b).isLE → (cmp b c).isLE → (cmp a c).isLE) := by
  refine ⟨fun h => ?_, TransCmp.isLE_trans⟩
  cases hab : cmp a b with
  | lt => exact TransCmp.lt_trans hab (h ▸ hab)
  | eq => exact TransCmp.eq_trans hab (h ▸ hab)
  | gt => exact TransCmp.gt_trans hab (h ▸ hab)

/-- **SQL comparison is transitive**, also from one numeric type to the other and back. -/
theorem sqlCmp_trans {first second third : Value} {order order' : Ordering} (h : first.sqlCmp second = some order)
    (h' : second.sqlCmp third = some order') :
    ∃ order'', first.sqlCmp third = some order'' ∧ (order = order' → order'' = order) ∧
      (order.isLE → order'.isLE → order''.isLE) := by
  rcases sqlCmp_cases h with ⟨a, b, hfirst, hsecond, rfl⟩ | ⟨_, hnone, hfirst, _, htype, rfl⟩
  · rcases sqlCmp_cases h' with ⟨b', c, hsecond', hthird, rfl⟩ | ⟨hnone, _⟩
    · obtain rfl := Option.some.inj (hsecond.symm.trans hsecond')
      exact ⟨_, sqlCmp_of_exact hfirst hthird, trans_of_orders⟩
    · rw [hnone] at hsecond
      cases hsecond
  · rcases sqlCmp_cases h' with ⟨_, _, hsecond, _⟩ | ⟨_, _, _, hthird, htype', rfl⟩
    · rw [hnone] at hsecond
      cases hsecond
    · exact ⟨_, sqlCmp_eq_cmp hfirst hthird (htype.trans htype'), trans_of_orders⟩

/-- **Order, equality, hash and SQL comparison are coherent.** -/
theorem coherent :
    ((∀ a : Value, a.cmp a = .eq) ∧ (∀ a b : Value, a.cmp b = (b.cmp a).swap) ∧
      (∀ a b : Value, (a.cmp b).isLE → (b.cmp a).isLE → a.eq b = true) ∧
      (∀ a b c : Value, (a.cmp b).isLE → (b.cmp c).isLE → (a.cmp c).isLE) ∧
      ∀ a b : Value, (a.cmp b).isLE ∨ (b.cmp a).isLE) ∧
    (Equivalence fun a b : Value => a.eq b = true) ∧
    (∀ a b : Value, a.eq b = true → a.hashBytes = b.hashBytes) ∧
    (∀ a b : Value, a.IsFinite → b.IsFinite → a.dataType = b.dataType → a.sqlCmp b = some (a.cmp b)) ∧
    (∀ a b : Value, a.IsFinite → b.IsFinite → (a.dataType = .int64 ∨ a.dataType = .float64) →
      (b.dataType = .int64 ∨ b.dataType = .float64) →
      ∃ p q, a.exact = some p ∧ b.exact = some q ∧ a.sqlCmp b = some (compare p q)) ∧
    ∀ (a b c : Value) (order order' : Ordering), a.sqlCmp b = some order → b.sqlCmp c = some order' →
      ∃ order'', a.sqlCmp c = some order'' ∧ (order = order' → order'' = order) ∧
        (order.isLE → order'.isLE → order''.isLE) := by
  refine ⟨⟨fun a => ReflCmp.compare_self, fun a b => OrientedCmp.eq_swap, fun a b hab hba => ?_,
    fun a b c => TransCmp.isLE_trans, fun a b => ?_⟩, eq_equivalence, hashBytes_of_eq, fun a b => sqlCmp_eq_cmp, ?_,
    fun a b c order order' => sqlCmp_trans⟩
  · exact decide_eq_true (OrientedCmp.isLE_antisymm hab hba)
  · have hswap : b.cmp a = (a.cmp b).swap := OrientedCmp.eq_swap
    rw [hswap]
    cases a.cmp b <;> simp
  · intro a b ha hb hnumericA hnumericB
    obtain ⟨p, hp⟩ := exact_of_isFinite ha hnumericA
    obtain ⟨q, hq⟩ := exact_of_isFinite hb hnumericB
    exact ⟨p, q, hp, hq, sqlCmp_of_exact hp hq⟩

end Value

end RustHouse.Batch
