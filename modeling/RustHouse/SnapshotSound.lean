import RustHouse.Snapshot

/-!
# Snapshot codecs are canonical

What each encoder writes, in one equation, and that each decoder accepts
exactly that: decoding undoes encoding, and whatever decodes is the encoding
of its value.
-/

namespace RustHouse

open Checked Exec Words

theorem tryU64_eq_some {n m : Nat} : tryU64 n = some m ↔ n ≤ usizeMax ∧ m = n := by
  unfold tryU64
  split <;> simp_all [eq_comm]

theorem u64OrMax_of_le {n : Nat} (h : n ≤ usizeMax) : u64OrMax n = n := by
  rw [u64OrMax, tryU64, if_pos h]; rfl

theorem ByteSpan.length_le (s : ByteSpan) : s.val.length ≤ usizeMax := by
  have := s.property
  unfold isizeMax at this; unfold usizeMax; omega

theorem drop_add_of_eq {v xs rest : Bytes} {offset len : Nat} (h : v.drop offset = xs ++ rest) (hlen : xs.length = len) :
    v.drop (offset + len) = rest := by
  rw [← List.drop_drop, h, ← hlen, List.drop_left]

theorem drop_eq_take_append (v : Bytes) (offset len : Nat) :
    v.drop offset = (v.drop offset).take len ++ v.drop (offset + len) := by
  rw [← List.drop_drop, List.take_append_drop]

theorem drop_eq_field {v xs rest : Bytes} {offset len : Nat} (h : v.drop offset = xs ++ rest) (hlen : xs.length = len) :
    v.drop offset = xs ++ v.drop (offset + len) := by
  rw [drop_add_of_eq h hlen, h]

theorem field_le {v xs : Bytes} {offset len : Nat} (h : v.drop offset = xs ++ v.drop (offset + len))
    (hlen : xs.length = len) (hoffset : offset ≤ v.length) : offset + len ≤ v.length := by
  have := congrArg List.length h
  rw [List.length_append, List.length_drop, List.length_drop] at this; omega

/-! ## The envelope -/

def envelopeBytes (payload : Bytes) : Bytes :=
  snapshotMagic ++ (u16Bytes snapshotVersion ++ (sizeBytes payload.length ++ (u32Bytes (crc32 payload) ++ payload)))

theorem length_envelopeBytes (payload : Bytes) : (envelopeBytes payload).length = snapshotHeaderLen + payload.length := by
  have : snapshotMagic.length = 8 := rfl
  simp [envelopeBytes, snapshotHeaderLen, this]; omega

namespace SnapshotCodec

variable {codec : SnapshotCodec} {payload envelope : ByteSpan}

theorem encode_eq_ok : codec.encode payload = .ok envelope ↔
    payload.val.length ≤ codec.maxPayloadLen.toNat ∧ envelope.val = envelopeBytes payload.val := by
  have hlen := ByteSpan.length_le payload
  simp only [encode, Exec.bind_eq_ok, rejectIf_eq_ok, getOr_eq_ok, checkedAdd_eq_some, ByteSpan.collect_eq_ok,
    u64OrMax_of_le hlen, List.append_assoc]
  constructor
  · rintro ⟨_, hmax, _, _, henvelope⟩
    exact ⟨by omega, henvelope⟩
  · rintro ⟨hmax, henvelope⟩
    have hfits := envelope.property
    have htotal := length_envelopeBytes payload.val
    rw [← henvelope] at htotal
    unfold isizeMax at hfits
    unfold snapshotHeaderLen at htotal
    refine ⟨(), ?_, _, ⟨?_, rfl⟩, henvelope⟩ <;> unfold usizeMax <;> try unfold snapshotHeaderLen
    all_goals omega

theorem decode_eq_ok : codec.decode envelope = .ok payload ↔
    payload.val.length ≤ codec.maxPayloadLen.toNat ∧ envelope.val = envelopeBytes payload.val := by
  simp only [decode, Exec.bind_eq_ok, rejectIf_eq_ok, getOr_eq_ok, checkedAdd_eq_some, ByteSpan.readArray_eq_ok,
    ByteSpan.range_eq_ok, Exec.ok.injEq, not_not, Nat.not_lt]
  constructor
  · rintro ⟨_, _, _, ⟨_, hmagicLen, hmagic⟩, _, rfl, version, ⟨_, hversionLen, hversion⟩, _, hsupported,
      declared, ⟨_, hdeclaredLen, hdeclared⟩, _, hmax, _, ⟨_, rfl⟩, _, hge, _, hle,
      checksum, ⟨_, hchecksumLen, hchecksum⟩, p, ⟨_, _, hpayload⟩, _, hcrc, rfl⟩
    have hlen : envelope.val.length = snapshotHeaderLen + ofLeBytes declared := Nat.le_antisymm hle hge
    have hrest : p.val = envelope.val.drop snapshotHeaderLen := by
      rw [hpayload, List.take_of_length_le (by rw [List.length_drop]; omega)]
    have hcount : p.val.length = ofLeBytes declared := by
      rw [hrest, List.length_drop]; omega
    refine ⟨by omega, ?_⟩
    rw [List.drop_zero] at hmagic
    rw [envelopeBytes, hcount, sizeBytes_ofLeBytes hdeclaredLen, hcrc, u32Bytes_u32OfBytes hchecksumLen,
      hrest, ← hsupported, u16Bytes_u16OfBytes hversionLen]
    calc envelope.val = snapshotMagic ++ envelope.val.drop versionOffset := hmagic
      _ = snapshotMagic ++ (version ++ envelope.val.drop lengthOffset) := by rw [hversion]; rfl
      _ = snapshotMagic ++ (version ++ (declared ++ envelope.val.drop checksumOffset)) := by rw [hdeclared]; rfl
      _ = _ := by rw [hchecksum]; rfl
  · rintro ⟨hmax, h⟩
    have hlen := length_envelopeBytes payload.val
    have hfits := ByteSpan.length_le envelope
    rw [← h] at hlen
    have hcount : ofLeBytes (sizeBytes payload.val.length) = payload.val.length :=
      ofLeBytes_sizeBytes (ByteSpan.length_le payload)
    have hmagic : snapshotMagic.length = 8 := rfl
    have d₀ : envelope.val.drop 0 = _ := h
    have d₈ := drop_add_of_eq d₀ hmagic
    have d₁₀ := drop_add_of_eq d₈ (length_u16Bytes _)
    have d₁₈ := drop_add_of_eq d₁₀ (length_sizeBytes _)
    have d₂₂ : envelope.val.drop 22 = payload.val := drop_add_of_eq d₁₈ (length_u32Bytes _)
    have hheader : 22 ≤ envelope.val.length := by unfold snapshotHeaderLen at hlen; omega
    refine ⟨(), hheader, snapshotMagic, ⟨Nat.le_trans (by decide) hheader, hmagic, drop_eq_field d₀ hmagic⟩, (), rfl,
      u16Bytes snapshotVersion, ⟨Nat.le_trans (by decide) hheader, rfl, drop_eq_field d₈ (length_u16Bytes _)⟩, (),
      u16OfBytes_u16Bytes _, sizeBytes payload.val.length,
      ⟨Nat.le_trans (by decide) hheader, length_sizeBytes _, drop_eq_field d₁₀ (length_sizeBytes _)⟩, (), ?_⟩
    rw [hcount]
    refine ⟨hmax, _, ⟨by omega, rfl⟩, (), by omega, (), by omega, u32Bytes (crc32 payload.val),
      ⟨hheader, length_u32Bytes _, drop_eq_field d₁₈ (length_u32Bytes _)⟩, payload, ⟨by omega, by omega, ?_⟩, (),
      (u32OfBytes_u32Bytes _).symm, rfl⟩
    rw [Nat.add_sub_cancel_left]
    show payload.val = (envelope.val.drop 22).take payload.val.length
    rw [d₂₂, List.take_length]

theorem canonical (codec : SnapshotCodec) : Canonical codec.encode codec.decode := fun _ _ =>
  encode_eq_ok.trans decode_eq_ok.symm

end SnapshotCodec

/-! ## Tagged rows -/

@[simp] theorem length_pushOptionalValue (value : Option Int64) :
    (pushOptionalValue value).length = optionalValueLen value := by
  cases value <;> simp [pushOptionalValue, optionalValueLen]

theorem optionalValueLen_pos (value : Option Int64) : 0 < optionalValueLen value := by
  cases value <;> simp [optionalValueLen]

theorem length_le_flatMap : ∀ rows : List (Option Int64), rows.length ≤ (rows.flatMap pushOptionalValue).length
  | [] => Nat.le_refl _
  | value :: rows => by
    have := length_le_flatMap rows
    have := optionalValueLen_pos value
    rw [List.flatMap_cons, List.length_append, length_pushOptionalValue, List.length_cons]; omega

theorem optionalRowsLen_eq_some : ∀ {rows : List (Option Int64)} {start len : Nat}, start ≤ usizeMax →
    (optionalRowsLen start rows = some len ↔
      len = start + (rows.flatMap pushOptionalValue).length ∧ len ≤ usizeMax)
  | [], start, len, h => by
    simp [optionalRowsLen, eq_comm]; omega
  | value :: rows, start, len, h => by
    rw [optionalRowsLen, List.foldlM_cons, List.flatMap_cons, List.length_append, length_pushOptionalValue]
    by_cases hfits : start + optionalValueLen value ≤ usizeMax
    · rw [checkedAdd_of_le hfits]
      have := @optionalRowsLen_eq_some rows _ len hfits
      rw [optionalRowsLen] at this
      simp only [Option.bind_eq_bind, Option.bind_some, this]; omega
    · rw [checkedAdd, if_neg hfits]
      simp only [Option.bind_eq_bind, Option.bind_none]
      constructor
      · intro h; cases h
      · rintro ⟨rfl, hle⟩; omega

section
variable {ε : Type} {errors : TaggedRowErrors ε} {payload : ByteSpan} {allowed : Prop}
  (hnull : ∀ i, errors.null i = .ok () ↔ allowed)
include hnull

theorem validateTaggedRow_eq_ok {offset i next : Nat} : validateTaggedRow errors payload offset i = .ok next ↔
    ∃ value, (value = none → allowed) ∧ next = offset + optionalValueLen value ∧
      payload.val.drop offset = pushOptionalValue value ++ payload.val.drop next := by
  have hfits := payload.property
  unfold isizeMax at hfits
  simp only [validateTaggedRow, Exec.bind_eq_ok, getOr_eq_ok, ByteSpan.getElem?_eq_some]
  constructor
  · rintro ⟨tag, htag, h⟩
    have hlt : offset < payload.val.length := by
      have := congrArg List.length htag
      rw [List.length_cons, List.length_drop] at this; omega
    rw [saturatingAdd_of_le (show offset + 1 ≤ usizeMax by unfold usizeMax; omega)] at h
    split at h
    · rename_i hnone
      obtain ⟨_, hallowed, h⟩ := Exec.bind_eq_ok.1 h
      obtain rfl := Exec.ok.inj h
      exact ⟨none, fun _ => (hnull i).1 hallowed, rfl, by rw [htag, hnone]; rfl⟩
    split at h
    · rename_i _ hsome
      rw [saturatingAdd_of_le (show offset + 1 + 8 ≤ usizeMax by unfold usizeMax; omega)] at h
      obtain ⟨_, hlen, h⟩ := Exec.bind_eq_ok.1 h
      obtain rfl := Exec.ok.inj h
      have hlen := rejectIf_eq_ok.1 hlen
      have hfield : ((payload.val.drop (offset + 1)).take 8).length = 8 := by
        rw [List.length_take, List.length_drop]; omega
      refine ⟨some (i64OfBytes ((payload.val.drop (offset + 1)).take 8)), fun hnone => absurd hnone (Option.some_ne_none _),
        rfl, ?_⟩
      rw [htag, hsome, pushOptionalValue, i64Bytes_i64OfBytes hfield, List.cons_append]
      exact congrArg _ (drop_eq_take_append payload.val (offset + 1) 8)
    · cases h
  · rintro ⟨value, hallowed, rfl, hdrop⟩
    have hlen := congrArg List.length hdrop
    have hpos := optionalValueLen_pos value
    rw [List.length_append, length_pushOptionalValue, List.length_drop, List.length_drop] at hlen
    cases value with
    | none =>
      refine ⟨nullableI64NullTag, hdrop, ?_⟩
      have hend : saturatingAdd offset 1 = offset + 1 := saturatingAdd_of_le (by unfold usizeMax; omega)
      rw [if_pos rfl, (hnull i).2 (hallowed rfl), Exec.ok_bind, hend]; rfl
    | some value =>
      rw [optionalValueLen] at hlen hpos ⊢
      refine ⟨nullableI64ValueTag, ?_, ?_⟩
      · exact @drop_eq_field _ [nullableI64ValueTag] _ offset 1 hdrop rfl
      have hend : saturatingAdd offset 1 = offset + 1 := saturatingAdd_of_le (by unfold usizeMax; omega)
      have hvalue : saturatingAdd (offset + 1) 8 = offset + 1 + 8 := saturatingAdd_of_le (by unfold usizeMax; omega)
      rw [if_neg (by decide), if_pos rfl, hend, hvalue, rejectIf_of_not (by omega), Exec.ok_bind]

theorem validateTaggedRowsFrom_eq_ok : ∀ {n offset i stop : Nat}, offset ≤ payload.val.length →
    (validateTaggedRowsFrom errors payload offset i n = .ok stop ↔
      ∃ rows : List (Option Int64), rows.length = n ∧ (none ∈ rows → allowed) ∧
        stop = offset + (rows.flatMap pushOptionalValue).length ∧
        payload.val.drop offset = rows.flatMap pushOptionalValue ++ payload.val.drop stop)
  | 0, offset, i, stop, h => by
    rw [validateTaggedRowsFrom, Exec.ok.injEq]
    constructor
    · rintro rfl; exact ⟨[], rfl, nofun, rfl, rfl⟩
    · rintro ⟨rows, hrows, -, rfl, -⟩
      rw [List.length_eq_zero_iff.1 hrows]; rfl
  | n + 1, offset, i, stop, h => by
    rw [validateTaggedRowsFrom, Exec.bind_eq_ok]
    constructor
    · rintro ⟨next, hrow, hrest⟩
      obtain ⟨value, hvalue, rfl, hdrop⟩ := (validateTaggedRow_eq_ok hnull).1 hrow
      have hle := field_le hdrop (length_pushOptionalValue value) h
      obtain ⟨rows, rfl, hallowed, rfl, hrows⟩ := (validateTaggedRowsFrom_eq_ok hle).1 hrest
      refine ⟨value :: rows, rfl, ?_, ?_, ?_⟩
      · rintro (_ | ⟨_, hmem⟩)
        · exact hvalue rfl
        · exact hallowed hmem
      · rw [List.flatMap_cons, List.length_append, length_pushOptionalValue, Nat.add_assoc]
      · rw [hdrop, hrows, List.flatMap_cons, List.append_assoc]
    · rintro ⟨rows, hrows, hallowed, rfl, hdrop⟩
      obtain ⟨value, rows, rfl⟩ := List.exists_cons_of_length_eq_add_one hrows
      rw [List.flatMap_cons, List.append_assoc] at hdrop
      have hfirst := drop_eq_field hdrop (length_pushOptionalValue value)
      have hrest := drop_add_of_eq hdrop (length_pushOptionalValue value)
      refine ⟨offset + optionalValueLen value, (validateTaggedRow_eq_ok hnull).2 ⟨value, ?_, rfl, hfirst⟩, ?_⟩
      · rintro rfl; exact hallowed List.mem_cons_self
      · refine (validateTaggedRowsFrom_eq_ok (field_le hfirst (length_pushOptionalValue value) h)).2
          ⟨rows, Nat.succ.inj hrows, fun hmem => hallowed (List.mem_cons_of_mem _ hmem), ?_, hrest⟩
        rw [List.flatMap_cons, List.length_append, length_pushOptionalValue, Nat.add_assoc]

theorem validateTaggedRows_eq_ok {n offset : Nat} (h : offset ≤ payload.val.length) :
    validateTaggedRows errors payload offset n = .ok () ↔
      ∃ rows : List (Option Int64), rows.length = n ∧ (none ∈ rows → allowed) ∧
        payload.val.drop offset = rows.flatMap pushOptionalValue := by
  simp only [validateTaggedRows, Exec.bind_eq_ok, validateTaggedRowsFrom_eq_ok hnull h, rejectIf_eq_ok, Nat.not_lt]
  constructor
  · rintro ⟨stop, ⟨rows, hrows, hallowed, -, hdrop⟩, hstop⟩
    rw [List.drop_eq_nil_of_le hstop, List.append_nil] at hdrop
    exact ⟨rows, hrows, hallowed, hdrop⟩
  · rintro ⟨rows, hrows, hallowed, hdrop⟩
    have hlen := congrArg List.length hdrop
    rw [List.length_drop] at hlen
    refine ⟨_, ⟨rows, hrows, hallowed, rfl, ?_⟩, by omega⟩
    rw [hdrop, List.drop_eq_nil_of_le (by omega), List.append_nil]

end

theorem readTaggedRows_rows {ε : Type} {payload : ByteSpan} : ∀ (rows : List (Option Int64)) (rest : Bytes) {offset : Nat},
    payload.val.drop offset = rows.flatMap pushOptionalValue ++ rest →
      (readTaggedRows payload offset rows.length : Exec ε _) = .ok rows
  | [], _, _, _ => rfl
  | none :: rows, rest, offset, h => by
    rw [List.flatMap_cons, List.append_assoc] at h
    have hrest := drop_add_of_eq h (length_pushOptionalValue none)
    have htag : payload.val[offset]? = some nullableI64NullTag :=
      ByteSpan.getElem?_eq_some.2 (drop_eq_field h (length_pushOptionalValue none))
    have ih : (readTaggedRows payload (offset + 1) rows.length : Exec ε _) = .ok rows := readTaggedRows_rows rows rest hrest
    rw [List.length_cons, readTaggedRows, htag, orPanic_some, Exec.ok_bind, if_pos rfl, ih]
    rfl
  | some value :: rows, rest, offset, h => by
    rw [List.flatMap_cons, List.append_assoc] at h
    have hrest := drop_add_of_eq h (length_pushOptionalValue (some value))
    have htail : payload.val.drop (offset + 1) = i64Bytes value ++ (rows.flatMap pushOptionalValue ++ rest) :=
      @drop_add_of_eq _ [nullableI64ValueTag] _ offset 1 h rfl
    have htag : payload.val[offset]? = some nullableI64ValueTag :=
      ByteSpan.getElem?_eq_some.2 (h.trans (congrArg _ htail.symm))
    have hvalue := drop_eq_field htail (length_i64Bytes value)
    have hread : (payload.readArray 8 (offset + 1) : Exec ε Bytes) = .ok (i64Bytes value) := by
      refine ByteSpan.readArray_eq_ok.2 ⟨field_le hvalue (length_i64Bytes value) ?_, length_i64Bytes value, hvalue⟩
      have := congrArg List.length htail
      rw [List.length_drop, List.length_append, length_i64Bytes] at this; omega
    have ih : (readTaggedRows payload (offset + 1 + 8) rows.length : Exec ε _) = .ok rows :=
      readTaggedRows_rows rows rest hrest
    rw [List.length_cons, readTaggedRows, htag, orPanic_some, Exec.ok_bind, if_neg (by decide), hread, Exec.ok_bind,
      i64OfBytes_i64Bytes, ih]
    rfl

/-! ## Plain rows -/

def nullableRowsBytes (rows : List (Option Int64)) : Bytes := sizeBytes rows.length ++ rows.flatMap pushOptionalValue

namespace NullableI64PayloadCodec

variable {codec : NullableI64PayloadCodec} {rows : List (Option Int64)} {payload : ByteSpan}

theorem encode_eq_ok : codec.encode rows = .ok payload ↔
    rows.length ≤ codec.maxRows.toNat ∧ payload.val.length ≤ codec.maxPayloadLen.toNat ∧
      payload.val = nullableRowsBytes rows := by
  have hheader : nullableI64PayloadHeaderLen ≤ usizeMax := by decide
  have hlength : (nullableRowsBytes rows).length = nullableI64PayloadHeaderLen + (rows.flatMap pushOptionalValue).length := by
    rw [nullableRowsBytes, List.length_append, length_sizeBytes]; rfl
  simp only [encode, Exec.bind_eq_ok, getOr_eq_ok, rejectIf_eq_ok, tryU64_eq_some, optionalRowsLen_eq_some hheader,
    ByteSpan.collect_eq_ok, Nat.not_lt]
  constructor
  · rintro ⟨_, ⟨_, rfl⟩, _, hrows, _, ⟨rfl, -⟩, _, hmax, hpayload⟩
    refine ⟨hrows, ?_, hpayload⟩
    rw [hpayload, ← nullableRowsBytes, hlength]; exact hmax
  · rintro ⟨hrows, hmax, hpayload⟩
    have hfits := ByteSpan.length_le payload
    have hcap := codec.maxRows.toNat_lt
    rw [hpayload, hlength] at hmax hfits
    exact ⟨rows.length, ⟨by unfold usizeMax; omega, rfl⟩, (), hrows, _, ⟨rfl, hfits⟩, (), hmax, hpayload⟩

theorem decode_eq_ok : codec.decode payload = .ok rows ↔
    rows.length ≤ codec.maxRows.toNat ∧ payload.val.length ≤ codec.maxPayloadLen.toNat ∧
      payload.val = nullableRowsBytes rows := by
  simp only [decode, Exec.bind_eq_ok, getOr_eq_ok, rejectIf_eq_ok, checkedAdd_eq_some, ByteSpan.readArray_eq_ok, Nat.not_lt]
  constructor
  · rintro ⟨_, hmax, _, hheader, count, ⟨_, hcountLen, hcount⟩, _, hrows, _, ⟨_, rfl⟩, _, _, _, _, _, hvalid, hread⟩
    obtain ⟨rows', hlen, -, hdrop⟩ := (validateTaggedRows_eq_ok (fun _ => (iff_true_intro rfl)) hheader).1 hvalid
    rw [← hlen, readTaggedRows_rows rows' [] (by rw [hdrop, List.append_nil])] at hread
    obtain rfl := Exec.ok.inj hread
    refine ⟨by omega, hmax, ?_⟩
    rw [nullableRowsBytes, hlen, sizeBytes_ofLeBytes hcountLen, ← hdrop]
    exact hcount
  · rintro ⟨hrows, hmax, hpayload⟩
    have hfits := ByteSpan.length_le payload
    have hcap := codec.maxRows.toNat_lt
    have d₀ : payload.val.drop 0 = _ := hpayload
    have d₈ : payload.val.drop nullableI64PayloadHeaderLen = _ := drop_add_of_eq d₀ (length_sizeBytes _)
    have hheader : nullableI64PayloadHeaderLen ≤ payload.val.length :=
      field_le (drop_eq_field d₀ (length_sizeBytes _)) (length_sizeBytes _) (Nat.zero_le _)
    have hminimum : nullableI64PayloadHeaderLen + rows.length ≤ payload.val.length := by
      have := length_le_flatMap rows
      have hlen := congrArg List.length d₈
      rw [List.length_drop] at hlen; omega
    refine ⟨(), hmax, (), hheader, sizeBytes rows.length,
      ⟨hheader, length_sizeBytes _, drop_eq_field d₀ (length_sizeBytes _)⟩, (), ?_⟩
    rw [ofLeBytes_sizeBytes (by unfold usizeMax; omega)]
    exact ⟨hrows, _, ⟨Nat.le_trans hminimum hfits, rfl⟩, (), Nat.le_trans hminimum hmax, (), hminimum, (),
      (validateTaggedRows_eq_ok (fun _ => iff_true_intro rfl) hheader).2 ⟨rows, rfl, fun _ => trivial, d₈⟩,
      readTaggedRows_rows rows [] (by rw [d₈, List.append_nil])⟩

theorem canonical (codec : NullableI64PayloadCodec) : Canonical codec.encode codec.decode := fun _ _ =>
  encode_eq_ok.trans decode_eq_ok.symm

end NullableI64PayloadCodec

/-! ## Tables with their schema -/

def schemaBytes (name : String) (nullable : Bool) : Bytes :=
  int64TablePayloadMagic ++ (u16Bytes int64TablePayloadVersion ++ ([int64TableInt64Tag] ++
    ([if nullable then int64TableNullableTag else int64TableNotNullTag] ++ (sizeBytes (utf8 name).length ++ utf8 name))))

def int64TableBytes (table : Int64Table) : Bytes :=
  schemaBytes table.schema.column.name table.schema.column.nullable ++
    (u64Bytes table.rowCap ++ (sizeBytes table.values.length ++ table.values.flatMap pushOptionalValue))

theorem length_schemaBytes (name : String) (nullable : Bool) :
    (schemaBytes name nullable).length = int64TablePayloadNameOffset + (utf8 name).length := by
  have hmagic : int64TablePayloadMagic.length = 8 := rfl
  have hoffset : int64TablePayloadNameOffset = 20 := rfl
  simp [schemaBytes, hmagic, hoffset]; omega

theorem length_int64TableBytes (table : Int64Table) : (int64TableBytes table).length =
    int64TablePayloadFixedLen + (utf8 table.schema.column.name).length +
      (table.values.flatMap pushOptionalValue).length := by
  have hoffset : int64TablePayloadNameOffset = 20 := rfl
  have hfixed : int64TablePayloadFixedLen = 36 := rfl
  rw [int64TableBytes, List.length_append, length_schemaBytes, List.length_append, List.length_append, length_u64Bytes,
    length_sizeBytes]; omega

namespace Int64TablePayloadCodec

variable {codec : Int64TablePayloadCodec} {table : Int64Table} {payload : ByteSpan}

structure Fits (codec : Int64TablePayloadCodec) (table : Int64Table) (payload : ByteSpan) : Prop where
  nameLen : (utf8 table.schema.column.name).length ≤ codec.maxNameLen.toNat
  rowCap : table.rowCap ≤ codec.maxRows
  rows : table.values.length ≤ codec.maxRows.toNat
  payloadLen : payload.val.length ≤ codec.maxPayloadLen.toNat

theorem validateMetadata_eq_ok {name : String} {rowCap : UInt64} {rowCount : Nat} {metadata : Nat × Nat × Nat} :
    codec.validateMetadata name rowCap rowCount = .ok metadata ↔
      (utf8 name).length ≤ codec.maxNameLen.toNat ∧ rowCap ≤ codec.maxRows ∧ rowCount ≤ codec.maxRows.toNat ∧
        metadata = ((utf8 name).length, rowCap.toNat, rowCount) := by
  have hname := codec.maxNameLen.toNat_lt
  have hrows := codec.maxRows.toNat_lt
  simp only [validateMetadata, Exec.bind_eq_ok, rejectIf_eq_ok, Nat.not_lt, UInt64.not_lt, Exec.ok.injEq]
  constructor
  · rintro ⟨_, h₁, _, h₂, _, h₃, rfl⟩
    rw [u64OrMax_of_le (by unfold usizeMax; omega), u64OrMax_of_le (by unfold usizeMax; omega)]
    exact ⟨h₁, h₂, h₃, rfl⟩
  · rintro ⟨h₁, h₂, h₃, rfl⟩
    rw [u64OrMax_of_le (by unfold usizeMax; omega), u64OrMax_of_le (by unfold usizeMax; omega)]
    exact ⟨(), h₁, (), h₂, (), h₃, rfl⟩

theorem encode_eq_ok : codec.encode table = .ok payload ↔
    Fits codec table payload ∧ payload.val = int64TableBytes table := by
  have hlength := length_int64TableBytes table
  have hfits := ByteSpan.length_le payload
  simp only [encode, encodeOptionalValues, encodePrefix, Exec.bind_eq_ok, validateMetadata_eq_ok, getOr_eq_ok,
    rejectIf_eq_ok, ByteSpan.collect_eq_ok, Nat.not_lt, Exec.ok.injEq, Option.bind_eq_some_iff, checkedAdd_eq_some,
    optionalRowsLen_eq_some (Nat.zero_le usizeMax), Nat.zero_add]
  constructor
  · rintro ⟨_, ⟨hname, hcap, hrows, rfl⟩, _, ⟨_, ⟨_, ⟨rfl, _⟩, _, ⟨_, rfl⟩, _, rfl⟩, _, hmax, rfl⟩, hpayload⟩
    have hbytes : payload.val = int64TableBytes table := by
      rw [hpayload, int64TableBytes, schemaBytes, u64Bytes_eq_sizeBytes]; simp only [List.append_assoc]
    exact ⟨⟨hname, hcap, hrows, by rw [hbytes, hlength]; exact hmax⟩, hbytes⟩
  · rintro ⟨⟨hname, hcap, hrows, hmax⟩, hbytes⟩
    rw [hbytes, hlength] at hmax hfits
    refine ⟨_, ⟨hname, hcap, hrows, rfl⟩, _, ⟨_, ⟨_, ⟨rfl, by omega⟩, _, ⟨by omega, rfl⟩, hfits, rfl⟩, (), hmax, rfl⟩, ?_⟩
    rw [hbytes, int64TableBytes, schemaBytes, u64Bytes_eq_sizeBytes]; simp only [List.append_assoc]

theorem decodeSchema_eq_ok {name : String} {nullable : Bool} {nameEnd : Nat} :
    codec.decodeSchema payload = .ok (name, nullable, nameEnd) ↔
      payload.val.length ≤ codec.maxPayloadLen.toNat ∧ (utf8 name).length ≤ codec.maxNameLen.toNat ∧
        nameEnd = int64TablePayloadNameOffset + (utf8 name).length ∧
        payload.val = schemaBytes name nullable ++ payload.val.drop nameEnd := by
  simp only [decodeSchema, Exec.bind_eq_ok, rejectIf_eq_ok, getOr_eq_ok, orPanic_eq_ok, checkedAdd_eq_some,
    ByteSpan.readArray_eq_ok, ByteSpan.getElem?_eq_some, ByteSpan.range_eq_ok, Nat.not_lt, not_not, Exec.ok.injEq,
    Prod.mk.injEq]
  constructor
  · rintro ⟨_, hmax, _, hheader, _, ⟨_, _, hmagic⟩, _, rfl, version, ⟨_, hversionLen, hversion⟩, _, hsupported, _, htype,
      _, rfl, tag, htag, _, hknown, nameLen, ⟨_, hnameLen, hnameField⟩, _, hname, _, ⟨_, rfl⟩, _, hend,
      nameBytes, ⟨_, _, hbytes⟩, name, hutf8, rfl, rfl, rfl⟩
    have hname' := utf8_of_fromUtf8 hutf8
    rw [Nat.add_sub_cancel_left, ← hname'] at hbytes
    have hcount : (utf8 name).length = ofLeBytes nameLen := by
      rw [hbytes, List.length_take, List.length_drop]; omega
    have hflag : tag = if decide (tag = int64TableNullableTag) then int64TableNullableTag else int64TableNotNullTag := by
      by_cases h : tag = int64TableNullableTag
      · simp [h]
      · have : tag = int64TableNotNullTag := Classical.byContradiction fun h' => hknown ⟨h', h⟩
        simp [this]
    refine ⟨hmax, by omega, by rw [hcount], ?_⟩
    rw [List.drop_zero] at hmagic
    rw [schemaBytes, hcount, sizeBytes_ofLeBytes hnameLen, ← hflag, ← hsupported, u16Bytes_u16OfBytes hversionLen]
    simp only [List.append_assoc]
    have hrest : payload.val.drop int64TablePayloadNameOffset =
        utf8 name ++ payload.val.drop (int64TablePayloadNameOffset + ofLeBytes nameLen) := by
      rw [hbytes, ← List.drop_drop, List.take_append_drop]
    have hfields := htag.trans (congrArg (List.cons tag) (hnameField.trans (congrArg (nameLen ++ ·) hrest)))
    have hversioned := hversion.trans (congrArg (version ++ ·) (htype.trans (congrArg (List.cons int64TableInt64Tag) hfields)))
    exact hmagic.trans (congrArg (int64TablePayloadMagic ++ ·) hversioned)
  · rintro ⟨hmax, hname, rfl, h⟩
    have hfits := ByteSpan.length_le payload
    have hmagic : int64TablePayloadMagic.length = 8 := rfl
    have hend : int64TablePayloadNameOffset + (utf8 name).length ≤ payload.val.length := by
      have := congrArg List.length h
      rw [List.length_append, length_schemaBytes] at this; omega
    have hheader : int64TablePayloadNameOffset ≤ payload.val.length := by omega
    rw [schemaBytes] at h
    simp only [List.append_assoc] at h
    have d₀ : payload.val.drop 0 = _ := h
    have d₈ := drop_add_of_eq d₀ hmagic
    have d₁₀ := drop_add_of_eq d₈ (length_u16Bytes _)
    have d₁₁ := drop_add_of_eq d₁₀ (List.length_singleton (a := int64TableInt64Tag))
    have d₁₂ := drop_add_of_eq d₁₁ List.length_singleton
    have d₂₀ : payload.val.drop int64TablePayloadNameOffset = _ := drop_add_of_eq d₁₂ (length_sizeBytes _)
    have hlen : ofLeBytes (sizeBytes (utf8 name).length) = (utf8 name).length :=
      ofLeBytes_sizeBytes (by unfold usizeMax; have := codec.maxNameLen.toNat_lt; omega)
    refine ⟨(), hmax, (), hheader, int64TablePayloadMagic,
      ⟨Nat.le_trans (by decide) hheader, hmagic, drop_eq_field d₀ hmagic⟩, (), rfl, u16Bytes int64TablePayloadVersion,
      ⟨Nat.le_trans (by decide) hheader, rfl, drop_eq_field d₈ (length_u16Bytes _)⟩, (), u16OfBytes_u16Bytes _,
      int64TableInt64Tag, drop_eq_field d₁₀ List.length_singleton, (), rfl, _, drop_eq_field d₁₁ List.length_singleton, (), ?_,
      sizeBytes (utf8 name).length,
      ⟨Nat.le_trans (by decide) hheader, length_sizeBytes _, drop_eq_field d₁₂ (length_sizeBytes _)⟩, (), ?_⟩
    · cases nullable <;> decide
    rw [hlen]
    refine ⟨hname, _, ⟨Nat.le_trans hend hfits, rfl⟩, (), hend, ⟨utf8 name, ?_⟩, ⟨Nat.le_add_right _ _, hend, ?_⟩, name,
      fromUtf8_utf8 name, rfl, ?_, rfl⟩
    · exact Nat.le_trans (by omega) payload.property
    · rw [Nat.add_sub_cancel_left, d₂₀, List.take_left]
    · cases nullable <;> decide

theorem decode_eq_ok : codec.decode payload = .ok table ↔
    Fits codec table payload ∧ payload.val = int64TableBytes table := by
  simp only [decode, Exec.bind_eq_ok, Prod.exists, decodeSchema_eq_ok, getOr_eq_ok, rejectIf_eq_ok, checkedAdd_eq_some,
    ByteSpan.readArray_eq_ok, Nat.not_lt, UInt64.not_lt]
  constructor
  · rintro ⟨name, nullable, nameEnd, ⟨hmax, hname, rfl, h⟩, _, ⟨_, rfl⟩, _, _, _, hoffset, cap, ⟨_, hcapLen, hcap⟩, _, hcapMax,
      count, ⟨_, hcountLen, hcount⟩, _, hrowsMax, _, hrowsCap, _, ⟨_, rfl⟩, _, _, _, _, _, hvalid, rows', hread, htable⟩
    obtain ⟨rows, hlen, hallowed, hdrop⟩ :=
      (validateTaggedRows_eq_ok (fun _ => rejectIf_eq_ok.trans not_not) hoffset).1 hvalid
    rw [← hlen, readTaggedRows_rows rows [] (by rw [hdrop, List.append_nil])] at hread
    obtain rfl := Exec.ok.inj hread
    have hvalidate : (Int64Table.new (Schema.int64 name nullable) (u64OfBytes cap)).validateAppend rows = .ok () := by
      refine Int64Table.validateAppend_eq_ok.2 ⟨?_, fun hnullable hmem => ?_⟩
      · exact Nat.le_trans (Nat.zero_add _ ▸ hlen ▸ Nat.le_refl _) hrowsCap
      · exact absurd (hallowed hmem) (Bool.eq_false_iff.1 hnullable)
    obtain ⟨built, hbuilt, hschema, hrowCap, hvalues⟩ := Int64Table.appendBatch_of_ok hvalidate
    rw [hbuilt] at htable
    obtain rfl := Exec.ok.inj htable
    replace hschema : built.schema = Schema.int64 name nullable := hschema
    replace hrowCap : built.rowCap = u64OfBytes cap := hrowCap
    replace hvalues : built.values = rows := hvalues
    refine ⟨⟨by rw [hschema]; exact hname, by rw [hrowCap]; exact hcapMax, by rw [hvalues, hlen]; exact hrowsMax, hmax⟩, ?_⟩
    rw [int64TableBytes, hschema, hrowCap, hvalues, u64Bytes_u64OfBytes hcapLen, hlen, sizeBytes_ofLeBytes hcountLen, ← hdrop]
    exact h.trans (congrArg (schemaBytes name nullable ++ ·) (hcap.trans (congrArg (cap ++ ·) hcount)))
  · rintro ⟨⟨hname, hcap, hrows, hmax⟩, h⟩
    have hfits := ByteSpan.length_le payload
    have hlength := length_int64TableBytes table
    have hschema := length_schemaBytes table.schema.column.name table.schema.column.nullable
    have hflat := length_le_flatMap table.values
    have hfixed : int64TablePayloadFixedLen = int64TablePayloadNameOffset + 2 * 8 := rfl
    rw [← h] at hlength
    have d₀ : payload.val.drop 0 = _ := h
    have dcap := drop_add_of_eq d₀ hschema
    rw [Nat.zero_add] at dcap
    have dcount := drop_add_of_eq dcap (length_u64Bytes _)
    have drows := drop_add_of_eq dcount (length_sizeBytes _)
    have hcount : ofLeBytes (sizeBytes table.values.length) = table.values.length :=
      ofLeBytes_sizeBytes (by unfold usizeMax; have := codec.maxRows.toNat_lt; omega)
    have hminimum : int64TablePayloadNameOffset + (utf8 table.schema.column.name).length + 2 * 8 + table.values.length ≤
        payload.val.length := by omega
    refine ⟨table.schema.column.name, table.schema.column.nullable, _, ⟨hmax, hname, rfl, ?_⟩, _, ⟨by omega, rfl⟩,
      (), by omega, (), by omega, u64Bytes table.rowCap,
      ⟨by omega, length_u64Bytes _, drop_eq_field dcap (length_u64Bytes _)⟩, (), by rwa [u64OfBytes_u64Bytes],
      sizeBytes table.values.length, ⟨by omega, length_sizeBytes _, drop_eq_field dcount (length_sizeBytes _)⟩, (), ?_⟩
    · rw [dcap]; exact h
    rw [hcount, u64OfBytes_u64Bytes]
    refine ⟨hrows, (), table.withinCap, _, ⟨by omega, rfl⟩, (), by omega, (), by omega, (),
      (validateTaggedRows_eq_ok (fun _ => rejectIf_eq_ok.trans not_not) (by omega)).2 ⟨table.values, rfl, ?_, drows⟩,
      table.values, readTaggedRows_rows table.values [] (by rw [← List.append_nil (table.values.flatMap _)] at drows; exact drows), ?_⟩
    · intro hmem
      by_contra hnullable
      exact table.nullsAllowed (Bool.eq_false_iff.2 hnullable) hmem
    · obtain ⟨built, hbuilt, hschema, hrowCap, hvalues⟩ :=
        @Int64Table.appendBatch_of_ok (Int64Table.new table.schema table.rowCap) table.values
          (Int64Table.validateAppend_eq_ok.2 ⟨by simpa [Int64Table.new] using table.withinCap, table.nullsAllowed⟩)
      have heq : built = table := Int64Table.ext hschema hvalues hrowCap
      rw [show Schema.int64 table.schema.column.name table.schema.column.nullable = table.schema from rfl, hbuilt, heq]

theorem canonical (codec : Int64TablePayloadCodec) : Canonical codec.encode codec.decode := fun _ _ =>
  encode_eq_ok.trans decode_eq_ok.symm

end Int64TablePayloadCodec

/-! ## Snapshots -/

/-- **Snapshots are canonical.** Under any limits, the payloads wrapped in an envelope decode to what
was encoded, and a byte string that decodes is the encoding of the value it decodes to. -/
theorem snapshots_canonical (rowCodec : NullableI64PayloadCodec) (tableCodec : Int64TablePayloadCodec)
    (snapshotCodec : SnapshotCodec) :
    Canonical (andThen rowCodec.encode snapshotCodec.encode) (andThen snapshotCodec.decode rowCodec.decode) ∧
      Canonical (andThen tableCodec.encode snapshotCodec.encode) (andThen snapshotCodec.decode tableCodec.decode) :=
  ⟨rowCodec.canonical.andThen snapshotCodec.canonical, tableCodec.canonical.andThen snapshotCodec.canonical⟩

example : (NullableI64PayloadCodec.mk 4 64).decode ⟨sizeBytes 2 ++ [0, 1] ++ i64Bytes 7, by decide⟩ =
    .ok [none, some 7] := by decide +kernel

end RustHouse
