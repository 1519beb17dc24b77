import Mathlib.Tactic.SplitIfs
import RustHouse.WalReplay

/-!
# The two sides of the write-ahead log agree

Every payload the writer emits is read back by the replay side, its length is
the one the replay side derives from its content, and `log_cases` says all a
writer call can do.
-/

namespace RustHouse

open Checked Words

/-! ## Fields -/

theorem readArray_eq {input a x b : Bytes} {n o : Nat} (h : input = a ++ (x ++ b)) (ha : a.length = o)
    (hx : x.length = n) : readArray n input o = x := by
  subst h ha hx
  simp [readArray]

section
variable (sequence : Nat) (field : String) (rest : Bytes)

open PayloadReader

theorem byte_cons (b : UInt8) : byte sequence field (b :: rest) = .ok (b, rest) := rfl

theorem usize_u64Bytes (v : UInt64) : usize sequence field (u64Bytes v ++ rest) = .ok (v, rest) := by
  simp [usize, takeBytes_append' rest (length_u64Bytes v)]

theorem usize_sizeBytes {n : Nat} (h : n ≤ usizeMax) :
    usize sequence field (sizeBytes n ++ rest) = .ok (UInt64.ofNat n, rest) := by
  have hn : sizeBytes n = u64Bytes (UInt64.ofNat n) := by
    rw [u64Bytes_eq_sizeBytes, toNat_ofNat_size h]
  rw [hn, usize_u64Bytes]

theorem i64_i64Bytes (v : Int64) : i64 sequence field (i64Bytes v ++ rest) = .ok (v, rest) := by
  simp [i64, takeBytes_append' rest (length_i64Bytes v)]

theorem nullableI64_push (v : Option Int64) :
    nullableI64 sequence field (pushNullableI64 v ++ rest) = .ok (v, rest) := by
  cases v <;> simp [nullableI64, pushNullableI64, byte, i64_i64Bytes]

theorem string_pushBytes {s : String} (h : (utf8 s).length ≤ usizeMax) :
    string sequence field (pushBytes (utf8 s) ++ rest) = .ok (s, rest) := by
  simp [string, pushBytes, usize_sizeBytes _ _ _ h, toNat_ofNat_size h]

theorem value_pushValue {nullable : Bool} {v : Option Int64} {bytes : Bytes}
    (h : pushValue nullable v = some bytes) : value nullable sequence field (bytes ++ rest) = .ok (v, rest) := by
  cases nullable with
  | true =>
    simp only [pushValue, if_true, Option.some.injEq] at h
    subst h
    simp [value, nullableI64_push]
  | false =>
    cases v with
    | none => simp [pushValue] at h
    | some v =>
      simp [pushValue] at h
      subst h
      simp [value, i64_i64Bytes]

end

def valueBytes (nullable : Bool) : Nat := if nullable then 9 else 8

theorem length_pushValue {nullable : Bool} {v : Option Int64} {bytes : Bytes}
    (h : pushValue nullable v = some bytes) : bytes.length = valueBytes nullable := by
  cases nullable with
  | true => simp [pushValue] at h; subst h; simp [pushNullableI64, valueBytes]
  | false =>
    cases v with
    | none => simp [pushValue] at h
    | some v => simp [pushValue] at h; subst h; simp [valueBytes]

theorem length_pushReplacement {nullable : Bool} {r : Nat × Option Int64} {bytes : Bytes}
    (h : pushReplacement nullable r = some bytes) : bytes.length = 8 + valueBytes nullable := by
  unfold pushReplacement at h
  obtain ⟨value, hv, h⟩ := Option.bind_eq_some_iff.1 h
  simp at h; subst h
  simp [length_pushValue hv]

/-! ## Repeated items -/

section
variable {α : Type} {enc : α → Option Bytes}

theorem mapM_cons_eq_some {x : α} {xs : List α} {out : List Bytes} (h : (x :: xs).mapM enc = some out) :
    ∃ b bs, enc x = some b ∧ xs.mapM enc = some bs ∧ out = b :: bs := by
  rw [List.mapM_cons] at h
  obtain ⟨b, hb, h⟩ := Option.bind_eq_some_iff.1 h
  obtain ⟨bs, hbs, h⟩ := Option.bind_eq_some_iff.1 h
  exact ⟨b, bs, hb, hbs, by simpa using h.symm⟩

theorem length_flatten_mapM {w : Nat} (hw : ∀ x b, enc x = some b → b.length = w) :
    ∀ {xs : List α} {bs : List Bytes}, xs.mapM enc = some bs → bs.flatten.length = xs.length * w
  | [], bs, h => by simp at h; subst h; simp
  | x :: xs, out, h => by
    obtain ⟨b, bs, hb, hbs, rfl⟩ := mapM_cons_eq_some h
    rw [List.flatten_cons, List.length_append, length_flatten_mapM hw hbs, hw x b hb, List.length_cons,
      Nat.succ_mul, Nat.add_comm]

theorem items_flatten (read : PayloadReader α) (hread : ∀ x b, enc x = some b → ∀ rest, read (b ++ rest) = .ok (x, rest)) :
    ∀ {n : Nat} {xs : List α} {bs : List Bytes} (hn : xs.length = n) (rest : Bytes), xs.mapM enc = some bs →
      PayloadReader.items read n (bs.flatten ++ rest) = .ok (⟨xs, hn⟩, rest)
  | 0, [], bs, hn, rest, h => by simp at h; subst h; rfl
  | n + 1, x :: xs, out, hn, rest, h => by
    obtain ⟨b, bs, hb, hbs, rfl⟩ := mapM_cons_eq_some h
    rw [List.flatten_cons, List.append_assoc, PayloadReader.items, hread x b hb]
    simp only [ok_bind]
    rw [items_flatten read hread (Nat.succ.inj hn) rest hbs]
    rfl

end

/-! ## Bootstrap records -/

/-- What the callers of the writer promise of a bootstrap state. -/
structure Int64WalBootstrap.WellFormed (bootstrap : Int64WalBootstrap) : Prop where
  workerCap : bootstrap.workerCap ≠ 0
  columnCap : 1 ≤ bootstrap.tableLimits.2.1
  rowCap : bootstrap.values.length ≤ bootstrap.tableLimits.1.toNat
  cellCap : bootstrap.values.length ≤ bootstrap.tableLimits.2.2.toNat

theorem bootstrapPayloadLen_eq {t c rows n : Nat} {nullable : Bool}
    (h : bootstrapPayloadLen t c rows nullable = some n) :
    n = 161 + t + c + rows * valueBytes nullable ∧ n ≤ usizeMax := by
  unfold bootstrapPayloadLen at h
  simp only [Option.bind_eq_bind, Option.bind_eq_some_iff, checkedAdd_eq_some, checkedMul_eq_some] at h
  obtain ⟨_, ⟨_, rfl⟩, _, ⟨_, rfl⟩, _, ⟨_, rfl⟩, _, ⟨_, rfl⟩, _, ⟨_, rfl⟩, _, ⟨_, rfl⟩, _, ⟨_, rfl⟩, hle, rfl⟩ := h
  exact ⟨rfl, hle⟩

theorem bootstrapPayloadLen_of_le {t c rows : Nat} {nullable : Bool}
    (h : 161 + t + c + rows * valueBytes nullable ≤ usizeMax) :
    bootstrapPayloadLen t c rows nullable = some (161 + t + c + rows * valueBytes nullable) := by
  have hsmall : 161 ≤ usizeMax := by decide
  unfold bootstrapPayloadLen
  simp only [Option.bind_eq_bind]
  rw [checkedAdd_of_le (by omega), Option.bind_some, checkedAdd_of_le (by omega), Option.bind_some,
    checkedAdd_of_le (by omega), Option.bind_some, checkedAdd_of_le (by omega), Option.bind_some,
    checkedAdd_of_le (by omega), Option.bind_some, checkedAdd_of_le (by omega), Option.bind_some, ← valueBytes,
    checkedMul_of_le (by omega), Option.bind_some, checkedAdd_of_le h]

theorem length_flatten_map_u64Bytes (l : List UInt64) : (l.map u64Bytes).flatten.length = 8 * l.length := by
  induction l with
  | nil => rfl
  | cons x l ih => simp [ih]; omega

theorem appendPayload_eq {nullable : Bool} {values : List (Option Int64)} {payload : Bytes}
    (h : appendPayload nullable values = some payload) :
    ∃ items, values.mapM (pushValue nullable) = some items ∧ payload = sizeBytes values.length ++ items.flatten ∧
      items.flatten.length = values.length * valueBytes nullable := by
  unfold appendPayload at h
  obtain ⟨items, hitems, h⟩ := Option.bind_eq_some_iff.1 h
  exact ⟨items, hitems, (Option.some.inj h).symm, length_flatten_mapM (fun _ _ => length_pushValue) hitems⟩

theorem replacePayload_eq {nullable : Bool} {replacements : List (Nat × Option Int64)} {payload : Bytes}
    (h : replacePayload nullable replacements = some payload) :
    ∃ items, replacements.mapM (pushReplacement nullable) = some items ∧
      payload = sizeBytes replacements.length ++ items.flatten ∧
      items.flatten.length = replacements.length * (8 + valueBytes nullable) := by
  unfold replacePayload at h
  obtain ⟨items, hitems, h⟩ := Option.bind_eq_some_iff.1 h
  exact ⟨items, hitems, (Option.some.inj h).symm, length_flatten_mapM (fun _ _ => length_pushReplacement) hitems⟩

theorem encodeBootstrap_eq {bootstrap : Int64WalBootstrap} {payload : Bytes} (h : encodeBootstrap bootstrap = some payload) :
    ∃ items, bootstrap.values.mapM (pushValue bootstrap.nullable) = some items ∧
      payload = pushBytes (utf8 bootstrap.tableName) ++ (pushBytes (utf8 bootstrap.columnName) ++
        ((if bootstrap.nullable then 1 else 0) :: (limitsBytes bootstrap.tableLimits ++
        (limitsBytes bootstrap.databaseTableLimits ++ ((bootstrap.queryLimits.toList.map u64Bytes).flatten ++
        (u64Bytes bootstrap.workerCap ++ (sizeBytes bootstrap.values.length ++ items.flatten))))))) ∧
      payload.length = 161 + (utf8 bootstrap.tableName).length + (utf8 bootstrap.columnName).length +
        bootstrap.values.length * valueBytes bootstrap.nullable ∧ payload.length ≤ usizeMax := by
  unfold encodeBootstrap at h
  obtain ⟨capacity, hcap, h⟩ := Option.bind_eq_some_iff.1 h
  obtain ⟨rows, hrows, h⟩ := Option.bind_eq_some_iff.1 h
  obtain ⟨hlen, hmax⟩ := bootstrapPayloadLen_eq hcap
  obtain ⟨items, hitems, rfl, hflat⟩ := appendPayload_eq hrows
  obtain rfl := Option.some.inj h
  have hquery : (bootstrap.queryLimits.toList.map u64Bytes).flatten.length = 80 := by
    rw [length_flatten_map_u64Bytes, bootstrap.queryLimits.toList_length]; rfl
  have hpayload := hlen
  refine ⟨items, hitems, by simp, ?_, ?_⟩ <;>
    · simp only [List.length_append, List.length_cons, List.length_nil, pushBytes, limitsBytes, length_sizeBytes,
        length_u64Bytes, hquery, hflat]
      omega

theorem items_u64Bytes (sequence : Nat) (field : String) {n : Nat} (v : List.Vector UInt64 n) (rest : Bytes) :
    PayloadReader.items (PayloadReader.usize sequence field) n ((v.toList.map u64Bytes).flatten ++ rest) =
      .ok (v, rest) := by
  have hmap : v.toList.mapM (fun x => some (u64Bytes x)) = some (v.toList.map u64Bytes) :=
    List.mapM_pure
  rw [items_flatten (PayloadReader.usize sequence field) _ v.toList_length rest hmap]
  · cases v; rfl
  · intro x b hb rest
    obtain rfl := Option.some.inj hb
    exact usize_u64Bytes sequence field rest x

/-- **Bootstrap round trip.** -/
theorem decodeBootstrap_encode {bootstrap : Int64WalBootstrap} {payload : Bytes} (hwf : bootstrap.WellFormed)
    (h : encodeBootstrap bootstrap = some payload) (sequence : Nat) :
    decodeBootstrap payload sequence = .ok bootstrap := by
  obtain ⟨items, hitems, hpayload, hlen, hmax⟩ := encodeBootstrap_eq h
  have hflat := length_flatten_mapM (fun _ _ => length_pushValue) hitems
  have hrows : bootstrap.values.length ≤ usizeMax := by
    have : 8 ≤ valueBytes bootstrap.nullable := by unfold valueBytes; split <;> omega
    have := Nat.mul_le_mul_left bootstrap.values.length this
    omega
  have hvalues := items_flatten (PayloadReader.value bootstrap.nullable sequence "row value")
    (fun x b hb rest => value_pushValue sequence "row value" rest hb) (toNat_ofNat_size hrows).symm [] hitems
  rw [List.append_nil] at hvalues
  have hflag : ¬ ((if bootstrap.nullable then 1 else 0 : UInt8) > 1) := by split <;> decide
  have hnullable : ((if bootstrap.nullable then 1 else 0 : UInt8) == 1) = bootstrap.nullable := by
    cases bootstrap.nullable <;> rfl
  have hcaps : ¬ (bootstrap.tableLimits.2.1 < 1 ∨ bootstrap.tableLimits.2.2 < UInt64.ofNat bootstrap.values.length ∨
      bootstrap.tableLimits.1 < UInt64.ofNat bootstrap.values.length) := by
    have hcol := UInt64.le_iff_toNat_le.1 hwf.columnCap
    simp only [UInt64.lt_iff_toNat_lt, toNat_ofNat_size hrows, not_or, Nat.not_lt]
    exact ⟨hcol, hwf.cellCap, hwf.rowCap⟩
  have hbytes : checkedMul bootstrap.values.length (valueBytes bootstrap.nullable) = some items.flatten.length := by
    rw [hflat]; exact checkedMul_of_le (by omega)
  rw [hpayload, decodeBootstrap, string_pushBytes _ _ _ (by omega)]
  simp only [ok_bind]
  rw [string_pushBytes _ _ _ (by omega)]
  simp only [ok_bind, byte_cons, limitsBytes, List.append_assoc, usize_u64Bytes, items_u64Bytes,
    failIf_of_not hflag, failIf_of_not hwf.workerCap, usize_sizeBytes _ _ _ hrows, failIf_of_not hcaps, hnullable,
    toNat_ofNat_size hrows]
  rw [← valueBytes, hbytes, okOr_some]
  simp only [ok_bind, failIf_of_not (not_not_intro (rfl : items.flatten.length = items.flatten.length)), hvalues,
    PayloadReader.finish, failIf_of_not (not_not_intro (rfl : ([] : Bytes) = []))]
  rfl

/-! ## Mutation records -/

def WalMutation.payloadLen (nullable : Bool) : WalMutation → Nat
  | append values => 8 + values.length * valueBytes nullable
  | truncate => 0
  | replace replacements => 8 + replacements.length * (8 + valueBytes nullable)

theorem length_payload {m : WalMutation} {nullable : Bool} {payload : Bytes} (h : m.payload nullable = some payload) :
    payload.length = m.payloadLen nullable := by
  cases m with
  | append values =>
    obtain ⟨items, -, rfl, hflat⟩ := appendPayload_eq h
    simp [hflat, WalMutation.payloadLen]
  | truncate => obtain rfl := Option.some.inj h; rfl
  | replace replacements =>
    obtain ⟨items, -, rfl, hflat⟩ := replacePayload_eq h
    simp [hflat, WalMutation.payloadLen]

theorem valueBytes_pos (nullable : Bool) : 8 ≤ valueBytes nullable := by unfold valueBytes; split <;> omega

theorem count_le {n w k : Nat} (hw : 8 ≤ w) (h : k + n * w ≤ usizeMax) : n ≤ usizeMax ∧ n * w ≤ usizeMax := by
  have := Nat.mul_le_mul_left n hw
  omega

theorem applyAppendedRows_items {bootstrap : Int64WalBootstrap} {nullable : Bool} {values : List (Option Int64)}
    {items : List Bytes} (hitems : values.mapM (pushValue nullable) = some items)
    (hmax : values.length ≤ usizeMax ∧ values.length * valueBytes nullable ≤ usizeMax)
    (hadm : (WalMutation.append values).Admissible bootstrap.tableLimits bootstrap.values.length) (sequence : Nat) :
    applyAppendedRows bootstrap nullable (valueBytes nullable) (UInt64.ofNat values.length).toNat items.flatten sequence =
      .ok { bootstrap with values := bootstrap.values ++ values } := by
  have hflat := length_flatten_mapM (fun _ _ => length_pushValue) hitems
  have hread := items_flatten (PayloadReader.value nullable sequence "append value")
    (fun x b hb rest => value_pushValue sequence "append value" rest hb) rfl [] hitems
  rw [List.append_nil] at hread
  have hcap : ¬ (bootstrap.values.length + values.length > bootstrap.tableLimits.1.toNat ∨
      bootstrap.values.length + values.length > bootstrap.tableLimits.2.2.toNat) := by
    unfold WalMutation.Admissible at hadm; omega
  have hnew : bootstrap.values.length + values.length ≤ usizeMax := by
    have := bootstrap.tableLimits.1.toNat_lt
    unfold WalMutation.Admissible at hadm; unfold usizeMax; omega
  rw [toNat_ofNat_size hmax.1, applyAppendedRows, checkedMul_of_le hmax.2, checkedAdd_of_le hnew]
  simp only [okOr_some, ok_bind, failIf_of_not (not_not_intro hflat), failIf_of_not hcap, hread,
    PayloadReader.finish, failIf_of_not (not_not_intro (rfl : ([] : Bytes) = []))]
  rfl

theorem readReplacements_items (nullable : Bool) (sequence rows : Nat) (hrows : rows ≤ usizeMax) (rest : Bytes) :
    ∀ {replacements : List (Nat × Option Int64)} {items : List Bytes} (previous : Option Nat),
      replacements.mapM (pushReplacement nullable) = some items → replacements.Pairwise (·.1 < ·.1) →
      (∀ r ∈ replacements, r.1 < rows) → (∀ p ∈ previous, ∀ r ∈ replacements, p < r.1) →
      readReplacements nullable sequence rows replacements.length previous (items.flatten ++ rest) =
        .ok (replacements, rest)
  | [], items, previous, h, _, _, _ => by simp at h; subst h; rfl
  | (row, v) :: replacements, out, previous, h, hsorted, hlt, hprev => by
    obtain ⟨b, items, hb, hitems, rfl⟩ := mapM_cons_eq_some h
    obtain ⟨value, hv, hb⟩ := Option.bind_eq_some_iff.1 hb
    obtain rfl := Option.some.inj hb
    obtain ⟨hfirst, hsorted⟩ := List.pairwise_cons.1 hsorted
    have hrow : row < rows := hlt (row, v) List.mem_cons_self
    have hselect : ¬ ((UInt64.ofNat row).toNat ≥ rows ∨ previous.any ((UInt64.ofNat row).toNat ≤ ·)) := by
      rw [toNat_ofNat_size (by omega)]
      rintro (h | h)
      · omega
      · cases previous with
        | none => simp at h
        | some p =>
          have := hprev p rfl (row, v) List.mem_cons_self
          simp at h; omega
    have ih := readReplacements_items nullable sequence rows hrows rest (some row) hitems hsorted
      (fun r hr => hlt r (List.mem_cons_of_mem _ hr)) (fun p hp r hr => by
        obtain rfl := Option.some.inj hp
        exact hfirst r hr)
    rw [List.flatten_cons, List.append_assoc, List.append_assoc, List.length_cons, readReplacements,
      usize_sizeBytes _ _ _ (by omega)]
    simp only [ok_bind]
    rw [value_pushValue _ _ _ hv]
    simp only [ok_bind, failIf_of_not hselect]
    rw [toNat_ofNat_size (by omega), ih]
    rfl

theorem lookup_eq_none_of_lt (row : Nat) {replacements : List (Nat × Option Int64)}
    (h : ∀ r ∈ replacements, row < r.1) : replacements.lookup row = none := by
  rw [List.lookup_eq_none_iff]
  intro r hr
  have := h r hr
  simp; omega

theorem foldl_set_eq_replaceRows : ∀ (replacements : List (Nat × Option Int64)) (values : List (Option Int64)),
    replacements.Pairwise (·.1 < ·.1) →
    replacements.foldl (fun values (row, value) => values.set row value) values =
      WalMutation.replaceRows values replacements
  | [], values, _ => by
    apply List.ext_getElem?
    intro i
    simp [WalMutation.replaceRows]
  | (row, v) :: replacements, values, hsorted => by
    obtain ⟨hfirst, hsorted⟩ := List.pairwise_cons.1 hsorted
    rw [List.foldl_cons, foldl_set_eq_replaceRows replacements _ hsorted]
    apply List.ext_getElem?
    intro i
    simp only [WalMutation.replaceRows, List.getElem?_mapIdx, List.getElem?_set, List.lookup_cons]
    by_cases hi : i = row
    · subst hi
      have hnone := lookup_eq_none_of_lt i hfirst
      by_cases hlen : i < values.length
      · simp [hlen, hnone]
      · simp [hlen]
    · have hne : ¬ row = i := fun h => hi h.symm
      have hbeq : (i == row) = false := beq_false_of_ne hi
      simp [hbeq, hne]

theorem applyReplacements_items {bootstrap : Int64WalBootstrap} {nullable : Bool} (kindField : String)
    {replacements : List (Nat × Option Int64)} {payload : Bytes} (hnull : bootstrap.nullable = nullable)
    (h : replacePayload nullable replacements = some payload) (hmax : payload.length ≤ usizeMax)
    (hrows : bootstrap.values.length ≤ usizeMax)
    (hadm : (WalMutation.replace replacements).Admissible bootstrap.tableLimits bootstrap.values.length) (sequence : Nat) :
    applyReplacements nullable kindField (8 + valueBytes nullable) (some bootstrap) payload sequence =
      .ok { bootstrap with values := WalMutation.replaceRows bootstrap.values replacements } := by
  obtain ⟨items, hitems, rfl, hflat⟩ := replacePayload_eq h
  obtain ⟨hsorted, hlt⟩ := hadm
  rw [List.length_append, length_sizeBytes, hflat] at hmax
  obtain ⟨hcount, hbytes⟩ := count_le (by have := valueBytes_pos nullable; omega) hmax
  have hread := readReplacements_items nullable sequence _ hrows [] none hitems hsorted hlt (by simp)
  rw [List.append_nil] at hread
  rw [applyReplacements, requireBootstrap, okOr_some]
  simp only [ok_bind, failIf_of_not (not_not_intro hnull), usize_sizeBytes _ _ _ hcount, toNat_ofNat_size hcount,
    checkedMul_of_le hbytes, okOr_some, failIf_of_not (not_not_intro hflat), hread, PayloadReader.finish,
    failIf_of_not (not_not_intro (rfl : ([] : Bytes) = [])), foldl_set_eq_replaceRows _ _ hsorted]

section
variable (sequence : Nat) (payload : Bytes) (bootstrap : Option Int64WalBootstrap)

theorem applyRecord_append :
    applyRecord appendKind sequence payload bootstrap = applyAppend bootstrap payload sequence := rfl

theorem applyRecord_nullableAppend :
    applyRecord nullableAppendKind sequence payload bootstrap = applyNullableAppend bootstrap payload sequence := rfl

theorem applyRecord_truncate :
    applyRecord truncateKind sequence payload bootstrap = applyTruncate bootstrap payload sequence := rfl

theorem applyRecord_replace :
    applyRecord replaceKind sequence payload bootstrap = applyReplace bootstrap payload sequence := rfl

theorem applyRecord_nullableReplace :
    applyRecord nullableReplaceKind sequence payload bootstrap = applyNullableReplace bootstrap payload sequence := rfl

end

/-- **Mutation round trip.** A logged mutation is applied as it was made. -/
theorem applyRecord_payload (bootstrap : Int64WalBootstrap) {m : WalMutation} {payload : Bytes}
    (h : m.payload bootstrap.nullable = some payload) (hmax : payload.length ≤ usizeMax)
    (hrows : bootstrap.values.length ≤ usizeMax)
    (hadm : m.Admissible bootstrap.tableLimits bootstrap.values.length) (sequence : Nat) :
    applyRecord (m.kind bootstrap.nullable) sequence payload (some bootstrap) =
      .ok { bootstrap with values := m.applyTo bootstrap.values } := by
  cases m with
  | append values =>
    obtain ⟨items, hitems, rfl, hflat⟩ := appendPayload_eq h
    rw [List.length_append, length_sizeBytes, hflat] at hmax
    have hcount := count_le (valueBytes_pos _) hmax
    have happly := applyAppendedRows_items hitems hcount hadm sequence
    cases hn : bootstrap.nullable with
    | true =>
      rw [hn] at happly
      simp only [WalMutation.kind, if_true, applyRecord_nullableAppend, applyNullableAppend, requireBootstrap,
        okOr_some, ok_bind, failIf_of_not (not_not_intro hn), usize_sizeBytes _ _ _ hcount.1]
      exact happly
    | false =>
      rw [hn] at happly
      have hplain : ¬ bootstrap.nullable = true := by simp [hn]
      simp only [WalMutation.kind, Bool.false_eq_true, if_false, applyRecord_append, applyAppend, requireBootstrap,
        okOr_some, ok_bind, failIf_of_not hplain, usize_sizeBytes _ _ _ hcount.1]
      exact happly
  | truncate =>
    obtain rfl := Option.some.inj h
    rw [WalMutation.kind, applyRecord_truncate, applyTruncate, failIf_of_not (not_not_intro rfl)]
    rfl
  | replace replacements =>
    cases hn : bootstrap.nullable with
    | true =>
      rw [WalMutation.kind, if_pos rfl, applyRecord_nullableReplace]
      have happly := applyReplacements_items "nullable replacement kind" hn (hn ▸ h) hmax hrows hadm sequence
      rw [hn] at happly
      exact happly
    | false =>
      rw [WalMutation.kind, if_neg Bool.false_ne_true, applyRecord_replace]
      have happly := applyReplacements_items "non-nullable replacement kind" hn (hn ▸ h) hmax hrows hadm sequence
      rw [hn] at happly
      exact happly

/-! ## Payload lengths derived from their content -/

theorem readUsizeAt_eq {input a b : Bytes} {n o : Nat} (h : input = a ++ (sizeBytes n ++ b)) (ha : a.length = o)
    (hn : n ≤ usizeMax) (ho : o + 8 ≤ usizeMax) : readUsizeAt input o = some n := by
  subst h ha
  have hslice := slice_append a (sizeBytes n) b
  rw [length_sizeBytes, List.append_assoc] at hslice
  simp [readUsizeAt, checkedAdd_of_le ho, hslice, ofLeBytes_sizeBytes hn]

theorem readUsizeAt_prefix {p q : Bytes} {o n : Nat} (hp : p <+: q) (h : readUsizeAt p o = some n) :
    readUsizeAt q o = some n := by
  unfold readUsizeAt at h ⊢
  obtain ⟨stop, hstop, h⟩ := Option.bind_eq_some_iff.1 h
  obtain ⟨bytes, hbytes, h⟩ := Option.bind_eq_some_iff.1 h
  exact Option.bind_eq_some_iff.2 ⟨stop, hstop, Option.bind_eq_some_iff.2 ⟨bytes, slice_of_prefix hp hbytes, h⟩⟩

theorem encodedCountedPayloadLen_prefix {p q : Bytes} {w n : Nat} (hp : p <+: q)
    (h : encodedCountedPayloadLen p w = some n) : encodedCountedPayloadLen q w = some n := by
  unfold encodedCountedPayloadLen at h ⊢
  obtain ⟨count, hcount, h⟩ := Option.bind_eq_some_iff.1 h
  exact Option.bind_eq_some_iff.2 ⟨count, readUsizeAt_prefix hp hcount, h⟩

theorem encodedBootstrapPayloadLen_prefix {p q : Bytes} {n : Nat} (hp : p <+: q)
    (h : encodedBootstrapPayloadLen p = some n) : encodedBootstrapPayloadLen q = some n := by
  unfold encodedBootstrapPayloadLen at h ⊢
  simp only [Option.bind_eq_bind, Option.bind_eq_some_iff] at h ⊢
  obtain ⟨t, ht, o, ho, c, hc, cs, hcs, ce, hce, ls, hls, ro, hro, flag, hflag, rows, hrows, rest⟩ := h
  have hflag' : q[ce]? = some flag := by
    obtain ⟨s, rfl⟩ := hp
    obtain ⟨hlt, -⟩ := List.getElem?_eq_some_iff.1 hflag
    rw [List.getElem?_append_left hlt, hflag]
  exact ⟨t, readUsizeAt_prefix hp ht, o, ho, c, readUsizeAt_prefix hp hc, cs, hcs, ce, hce, ls, hls, ro, hro, flag,
    hflag', rows, readUsizeAt_prefix hp hrows, rest⟩

theorem encodedPayloadLen_prefix {kind : UInt8} {p q : Bytes} {n : Nat} (hp : p <+: q)
    (h : encodedPayloadLen kind p = some n) : encodedPayloadLen kind q = some n := by
  unfold encodedPayloadLen at h ⊢
  split_ifs at h ⊢
  · exact encodedBootstrapPayloadLen_prefix hp h
  · exact encodedCountedPayloadLen_prefix hp h
  · exact encodedCountedPayloadLen_prefix hp h
  · exact h
  · exact encodedCountedPayloadLen_prefix hp h
  · exact encodedCountedPayloadLen_prefix hp h

theorem encodedCountedPayloadLen_items (tail : Bytes) {n w : Nat} {flat : Bytes} (hflat : flat.length = n * w)
    (hn : n ≤ usizeMax) (hmax : 8 + n * w ≤ usizeMax) :
    encodedCountedPayloadLen (sizeBytes n ++ flat ++ tail) w = some (sizeBytes n ++ flat).length := by
  have hread : readUsizeAt (sizeBytes n ++ flat ++ tail) 0 = some n :=
    readUsizeAt_eq (a := []) (b := flat ++ tail) (by simp) rfl hn (by unfold usizeMax; omega)
  have hmul : checkedMul n w = some (n * w) := checkedMul_of_le (by omega)
  rw [encodedCountedPayloadLen, hread]
  simp only [Option.bind_eq_bind, Option.bind_some, hmul]
  rw [checkedAdd_of_le hmax, List.length_append, length_sizeBytes, hflat]

theorem encodedPayloadLen_payload {m : WalMutation} {nullable : Bool} {payload : Bytes}
    (h : m.payload nullable = some payload) (hmax : payload.length ≤ usizeMax) (tail : Bytes) :
    encodedPayloadLen (m.kind nullable) (payload ++ tail) = some payload.length := by
  cases m with
  | append values =>
    obtain ⟨items, -, rfl, hflat⟩ := appendPayload_eq h
    rw [List.length_append, length_sizeBytes, hflat] at hmax
    have hlen := encodedCountedPayloadLen_items tail hflat (count_le (valueBytes_pos _) hmax).1 hmax
    cases nullable <;> exact hlen
  | truncate => obtain rfl := Option.some.inj h; rfl
  | replace replacements =>
    obtain ⟨items, -, rfl, hflat⟩ := replacePayload_eq h
    rw [List.length_append, length_sizeBytes, hflat] at hmax
    have hcount := (count_le (by have := valueBytes_pos nullable; omega) hmax).1
    have hlen := encodedCountedPayloadLen_items tail hflat hcount hmax
    cases nullable <;> exact hlen

theorem encodedPayloadLen_bootstrap {bootstrap : Int64WalBootstrap} {payload : Bytes}
    (h : encodeBootstrap bootstrap = some payload) (tail : Bytes) :
    encodedPayloadLen bootstrapKind (payload ++ tail) = some payload.length := by
  obtain ⟨items, hitems, hpayload, hlen, hmax⟩ := encodeBootstrap_eq h
  have hrows := (count_le (k := 161) (valueBytes_pos bootstrap.nullable) (by omega) :
    bootstrap.values.length ≤ usizeMax ∧ bootstrap.values.length * valueBytes bootstrap.nullable ≤ usizeMax)
  have hquery : (bootstrap.queryLimits.toList.map u64Bytes).flatten.length = 80 := by
    rw [length_flatten_map_u64Bytes, bootstrap.queryLimits.toList_length]; rfl
  generalize hT : utf8 bootstrap.tableName = t at *
  generalize hC : utf8 bootstrap.columnName = c at *
  have htable : readUsizeAt (payload ++ tail) 0 = some t.length :=
    readUsizeAt_eq (a := []) (by rw [hpayload, pushBytes]; simp only [List.append_assoc, List.nil_append]; rfl) rfl
      (by omega) (by unfold usizeMax; omega)
  have hcolumn : readUsizeAt (payload ++ tail) (8 + t.length) = some c.length :=
    readUsizeAt_eq (a := pushBytes t) (by rw [hpayload, pushBytes]; simp only [pushBytes, List.append_assoc]; rfl)
      (by simp [pushBytes]) (by omega) (by omega)
  have hflag : (payload ++ tail)[8 + t.length + 8 + c.length]? = some (if bootstrap.nullable then 1 else 0) :=
    getElem?_of_eq (a := pushBytes t ++ pushBytes c)
      (by rw [hpayload]; simp only [List.append_assoc, List.cons_append]; rfl) (by simp [pushBytes]; omega)
  have hrowCount : readUsizeAt (payload ++ tail) (8 + t.length + 8 + c.length + 1 + 17 * 8) =
      some bootstrap.values.length :=
    readUsizeAt_eq
      (a := pushBytes t ++ (pushBytes c ++ ((if bootstrap.nullable then 1 else 0) :: (limitsBytes bootstrap.tableLimits ++
        (limitsBytes bootstrap.databaseTableLimits ++ ((bootstrap.queryLimits.toList.map u64Bytes).flatten ++
        u64Bytes bootstrap.workerCap))))))
      (by rw [hpayload]; simp only [List.append_assoc, List.cons_append]; rfl)
      (by simp [pushBytes, limitsBytes, hquery]; omega) hrows.1 (by omega)
  have hwidth : encodedValueBytes (if bootstrap.nullable then 1 else 0) = some (valueBytes bootstrap.nullable) := by
    cases bootstrap.nullable <;> rfl
  show encodedBootstrapPayloadLen (payload ++ tail) = some payload.length
  unfold encodedBootstrapPayloadLen
  simp only [Option.bind_eq_bind, htable, Option.bind_some]
  rw [checkedAdd_of_le (by omega)]
  simp only [Option.bind_some, hcolumn]
  rw [checkedAdd_of_le (by omega), Option.bind_some, checkedAdd_of_le (by omega), Option.bind_some,
    checkedAdd_of_le (by omega), Option.bind_some, checkedAdd_of_le (by omega)]
  simp only [Option.bind_some, hflag, hrowCount, hwidth]
  rw [checkedAdd_of_le (by omega), Option.bind_some, checkedMul_of_le hrows.2, Option.bind_some,
    checkedAdd_of_le (by omega), hlen]
  congr 1; omega

end RustHouse
