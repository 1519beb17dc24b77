import RustHouse.RunLength
import RustHouse.SnapshotRle
import RustHouse.SnapshotSound

/-!
# The run-length snapshot payload is lossless and shortest

The encoder writes the maximal runs of its rows. The decoder accepts exactly
the payloads whose runs are nonempty and add up to the declared row count, and
its second pass never leaves what the first pass validated.
-/

namespace RustHouse

open Checked Exec Words
open RunLength (runs runsFrom expand)

/-! ## The encoder's two passes -/

def runBytes : Option Int64 × Nat → Bytes
  | (none, runLength) => nullableI64RleNullRunTag :: sizeBytes runLength
  | (some value, runLength) => nullableI64RleValueRunTag :: (sizeBytes runLength ++ i64Bytes value)

def runLen (value : Option Int64) : Nat := nullableI64RleRunHeaderLen + value.isSome.toNat * 8

def valueRuns (rs : List (Option Int64 × Nat)) : Nat := (rs.map fun r => r.1.isSome.toNat).sum

@[simp] theorem length_runBytes : ∀ r : Option Int64 × Nat, (runBytes r).length = runLen r.1
  | (none, _) => by simp [runBytes, runLen, nullableI64RleRunHeaderLen]
  | (some _, _) => by simp [runBytes, runLen, nullableI64RleRunHeaderLen]

theorem length_flatMap_runBytes : ∀ rs : List (Option Int64 × Nat),
    (rs.flatMap runBytes).length = rs.length * nullableI64RleRunHeaderLen + valueRuns rs * 8
  | [] => rfl
  | r :: rs => by
    rw [List.flatMap_cons, List.length_append, length_runBytes, length_flatMap_runBytes rs, valueRuns, valueRuns,
      List.map_cons, List.sum_cons, List.length_cons, runLen]
    ring

theorem countRunsFrom_eq (n : Nat) : ∀ (previous : Option Int64) (runCount valueRunCount : Nat) (rows : List (Option Int64)),
    countRunsFrom previous (runCount + 1) (valueRunCount + previous.isSome.toNat) rows =
      (runCount + (runsFrom previous n rows).length, valueRunCount + valueRuns (runsFrom previous n rows))
  | previous, runCount, valueRunCount, [] => rfl
  | previous, runCount, valueRunCount, value :: rows => by
    rw [countRunsFrom, RunLength.runsFrom]
    by_cases h : value = previous
    · subst h
      rw [if_neg (not_not_intro rfl), if_pos rfl, countRunsFrom_eq (n + 1)]
    · rw [if_pos h, if_neg h, countRunsFrom_eq 1, valueRuns, valueRuns, List.map_cons, List.sum_cons, List.length_cons]
      simp only [Prod.mk.injEq]; omega

theorem countRuns_eq : ∀ rows : List (Option Int64), countRuns rows = ((runs rows).length, valueRuns (runs rows))
  | [] => rfl
  | first :: rows => by
    have := countRunsFrom_eq 1 first 0 0 rows
    rw [Nat.zero_add, Nat.zero_add, Nat.zero_add, Nat.zero_add] at this
    exact this

theorem appendNullableI64RleRun_eq (payload : Bytes) (value : Option Int64) (maxRows : Nat) {runLength : Nat}
    (h : runLength ≤ usizeMax) :
    appendNullableI64RleRun payload value runLength maxRows = .ok (payload ++ runBytes (value, runLength)) := by
  rw [appendNullableI64RleRun, tryU64, if_pos h, getOr_some, Exec.ok_bind]
  cases value <;> simp [runBytes]

theorem appendRunsFrom_eq (maxRows : Nat) : ∀ (payload : Bytes) (value : Option Int64) (runLength : Nat)
    (rows : List (Option Int64)), runLength + rows.length ≤ usizeMax →
      appendRunsFrom maxRows payload value runLength rows = .ok (payload ++ (runsFrom value runLength rows).flatMap runBytes)
  | payload, value, runLength, [], h => by
    have h : runLength ≤ usizeMax := h
    rw [appendRunsFrom, appendNullableI64RleRun_eq _ _ _ h, RunLength.runsFrom]
    simp
  | payload, value, runLength, next :: rows, h => by
    rw [List.length_cons] at h
    rw [appendRunsFrom, RunLength.runsFrom]
    split
    · exact appendRunsFrom_eq maxRows payload value (runLength + 1) rows (by omega)
    · rw [appendNullableI64RleRun_eq _ _ _ (by omega), Exec.ok_bind, appendRunsFrom_eq maxRows _ next 1 rows (by omega),
        List.flatMap_cons, List.append_assoc]

theorem appendRuns_eq (maxRows : Nat) (payload : Bytes) : ∀ {rows : List (Option Int64)}, rows.length ≤ usizeMax →
    appendRuns maxRows payload rows = .ok (payload ++ (runs rows).flatMap runBytes)
  | [], _ => by simp [appendRuns, RunLength.runs]
  | value :: rows, h => appendRunsFrom_eq maxRows payload value 1 rows (by rw [List.length_cons] at h; omega)

def rleBytes (rowCount : Nat) (rs : List (Option Int64 × Nat)) : Bytes :=
  nullableI64RlePayloadMagic ++ (u16Bytes nullableI64RlePayloadVersion ++ (sizeBytes rowCount ++
    (sizeBytes rs.length ++ rs.flatMap runBytes)))

theorem length_rleBytes (rowCount : Nat) (rs : List (Option Int64 × Nat)) : (rleBytes rowCount rs).length =
    nullableI64RlePayloadHeaderLen + (rs.length * nullableI64RleRunHeaderLen + valueRuns rs * 8) := by
  have hmagic : nullableI64RlePayloadMagic.length = 8 := rfl
  have hheader : nullableI64RlePayloadHeaderLen = 26 := rfl
  rw [rleBytes, List.length_append, List.length_append, List.length_append, List.length_append, length_u16Bytes,
    length_sizeBytes, length_sizeBytes, length_flatMap_runBytes, hmagic, hheader]; omega

namespace NullableI64RlePayloadCodec

variable {codec : NullableI64RlePayloadCodec}

/-- The limits on runs, and on the payload that holds them. -/
structure Fits (codec : NullableI64RlePayloadCodec) (rs : List (Option Int64 × Nat)) : Prop where
  rows : (expand rs).length ≤ codec.maxRows.toNat
  runs : rs.length ≤ codec.maxRuns.toNat
  payloadLen : (rleBytes (expand rs).length rs).length ≤ codec.maxPayloadLen.toNat

theorem encode_eq_ok {rows : List (Option Int64)} {payload : ByteSpan} : codec.encode rows = .ok payload ↔
    Fits codec (runs rows) ∧ payload.val = rleBytes rows.length (runs rows) := by
  have hrowsMax := codec.maxRows.toNat_lt
  have hrunsMax := codec.maxRuns.toNat_lt
  have hlength := length_rleBytes rows.length (runs rows)
  simp only [encode, encodeRows, Exec.bind_eq_ok, getOr_eq_ok, rejectIf_eq_ok, Nat.not_lt, countRuns_eq, tryU64_eq_some,
    Option.bind_eq_some_iff, checkedMul_eq_some, checkedAdd_eq_some, ByteSpan.collect_eq_ok]
  constructor
  · rintro ⟨_, ⟨hfits, rfl⟩, _, hrows, _, ⟨_, rfl⟩, _, hruns, _, ⟨_, ⟨_, rfl⟩, _, ⟨_, ⟨_, rfl⟩, _, rfl⟩, _, rfl⟩,
      _, hmax, _, happend, rfl⟩
    rw [appendRuns_eq _ _ hfits] at happend
    have hpayload : payload.val = rleBytes rows.length (runs rows) := by
      rw [← Exec.ok.inj happend, rleBytes]; simp only [List.append_assoc]
    refine ⟨⟨by rwa [RunLength.expand_runs], hruns, ?_⟩, hpayload⟩
    rw [RunLength.expand_runs, hlength]; exact hmax
  · rintro ⟨⟨hrows, hruns, hmax⟩, hpayload⟩
    have hfits := ByteSpan.length_le payload
    rw [RunLength.expand_runs] at hrows hmax
    rw [hpayload, hlength] at hfits
    rw [hlength] at hmax
    have hrowCount : rows.length ≤ usizeMax := by unfold usizeMax; omega
    have hrunCount : (runs rows).length ≤ usizeMax := by unfold usizeMax; omega
    refine ⟨_, ⟨hrowCount, rfl⟩, (), hrows, _, ⟨hrunCount, rfl⟩, (), hruns, _, ⟨_, ⟨by omega, rfl⟩, _, ⟨_, ⟨by omega, rfl⟩,
      by omega, rfl⟩, hfits, rfl⟩, (), hmax, _, appendRuns_eq _ _ hrowCount, ?_⟩
    rw [hpayload, rleBytes]; simp only [List.append_assoc]

end NullableI64RlePayloadCodec

/-! ## The decoder's two passes -/

section
variable {payload : ByteSpan}

theorem validateRleRun_eq_ok {offset i decoded next total : Nat} :
    validateRleRun payload offset i decoded = .ok (total, next) ↔
      ∃ r : Option Int64 × Nat, 0 < r.2 ∧ total = decoded + r.2 ∧ total ≤ usizeMax ∧ next = offset + runLen r.1 ∧
        payload.val.drop offset = runBytes r ++ payload.val.drop next := by
  have hfits := payload.property
  unfold isizeMax at hfits
  simp only [validateRleRun, Exec.bind_eq_ok, getOr_eq_ok, rejectIf_eq_ok, checkedAdd_eq_some, ByteSpan.getElem?_eq_some,
    ByteSpan.readArray_eq_ok, Exec.ok.injEq, Prod.mk.injEq, Nat.not_lt]
  constructor
  · rintro ⟨tag, htag, _, hknown, _, hlen, runLength, ⟨_, hrunLen, hrun⟩, _, hpos, stop, hstop, _, ⟨htotal, rfl⟩, rfl, rfl⟩
    have hlt : offset < payload.val.length := by
      have := congrArg List.length htag
      rw [List.length_cons, List.length_drop] at this; omega
    have htagEnd : saturatingAdd offset 1 = offset + 1 := saturatingAdd_of_le (by unfold usizeMax; omega)
    have hrunEnd : saturatingAdd (offset + 1) 8 = offset + 1 + 8 := saturatingAdd_of_le (by unfold usizeMax; omega)
    rw [htagEnd] at hrun hlen hstop
    rw [hrunEnd] at hlen hstop
    have hsize : sizeBytes (ofLeBytes runLength) = runLength := sizeBytes_ofLeBytes hrunLen
    unfold rleRunEnd at hstop
    split at hstop
    · rename_i hsome
      obtain ⟨_, hvalueEnd, hstop⟩ := Exec.bind_eq_ok.1 hstop
      rw [saturatingAdd_of_le (show offset + 1 + 8 + 8 ≤ usizeMax by unfold usizeMax; omega)] at hvalueEnd hstop
      obtain rfl := Exec.ok.inj hstop
      have hvalueEnd := rejectIf_eq_ok.1 hvalueEnd
      have hfield : ((payload.val.drop (offset + 1 + 8)).take 8).length = 8 := by
        rw [List.length_take, List.length_drop]; omega
      refine ⟨(some (i64OfBytes ((payload.val.drop (offset + 1 + 8)).take 8)), ofLeBytes runLength), by simp only; omega, rfl,
        htotal, rfl, ?_⟩
      have hvalue := drop_eq_take_append payload.val (offset + 1 + 8) 8
      rw [runBytes, hsize, i64Bytes_i64OfBytes hfield, List.cons_append, List.append_assoc, ← hvalue, ← hrun, ← hsome, ← htag]
    · rename_i hnone
      obtain rfl := Exec.ok.inj hstop
      have htagNull : tag = nullableI64RleNullRunTag := Classical.byContradiction fun h => hknown ⟨h, hnone⟩
      refine ⟨(none, ofLeBytes runLength), by simp only; omega, rfl, htotal, rfl, ?_⟩
      rw [runBytes, hsize, List.cons_append, ← hrun, ← htagNull, ← htag]
  · rintro ⟨⟨value, n⟩, hpos, rfl, htotal, rfl, hdrop⟩
    have hn : n ≤ usizeMax := by simp only at htotal; omega
    have hlen := congrArg List.length hdrop
    rw [List.length_append, length_runBytes, List.length_drop, List.length_drop, runLen, nullableI64RleRunHeaderLen] at hlen
    have htagEnd : saturatingAdd offset 1 = offset + 1 := saturatingAdd_of_le (by unfold usizeMax; omega)
    have hrunEnd : saturatingAdd (offset + 1) 8 = offset + 1 + 8 := saturatingAdd_of_le (by unfold usizeMax; omega)
    have hcount : ofLeBytes (sizeBytes n) = n := ofLeBytes_sizeBytes hn
    rw [htagEnd, hrunEnd]
    cases value with
    | none =>
      simp only [Option.isSome_none, Bool.toNat_false, Nat.zero_mul, Nat.add_zero] at hlen
      have d₁ := @drop_add_of_eq _ [nullableI64RleNullRunTag] _ offset 1 hdrop rfl
      refine ⟨nullableI64RleNullRunTag, @drop_eq_field _ [nullableI64RleNullRunTag] _ offset 1 hdrop rfl, (), by decide, (),
        by omega, sizeBytes n, ⟨by omega, length_sizeBytes n, drop_eq_field d₁ (length_sizeBytes n)⟩, (), ?_⟩
      rw [hcount]
      exact ⟨Nat.ne_of_gt hpos, offset + 1 + 8, rfl, _, ⟨htotal, rfl⟩, rfl, rfl⟩
    | some value =>
      simp only [Option.isSome_some, Bool.toNat_true, Nat.one_mul] at hlen
      rw [runBytes, List.cons_append, List.append_assoc] at hdrop
      have d₁ := @drop_add_of_eq _ [nullableI64RleValueRunTag] _ offset 1 hdrop rfl
      refine ⟨nullableI64RleValueRunTag, @drop_eq_field _ [nullableI64RleValueRunTag] _ offset 1 hdrop rfl, (), by decide, (),
        by omega, sizeBytes n, ⟨by omega, length_sizeBytes n, drop_eq_field d₁ (length_sizeBytes n)⟩, (), ?_⟩
      rw [hcount]
      refine ⟨Nat.ne_of_gt hpos, offset + 1 + 8 + 8, ?_, _, ⟨htotal, rfl⟩, rfl, rfl⟩
      rw [rleRunEnd, if_pos rfl, saturatingAdd_of_le (show offset + 1 + 8 + 8 ≤ usizeMax by unfold usizeMax; omega)]
      simp only [rejectIf_of_not (show ¬ payload.val.length < offset + 1 + 8 + 8 by omega), Exec.ok_bind]

theorem validateRleRunsFrom_eq_ok : ∀ {n offset i decoded total stop : Nat}, offset ≤ payload.val.length → decoded ≤ usizeMax →
    (validateRleRunsFrom payload offset i decoded n = .ok (total, stop) ↔
      ∃ rs : List (Option Int64 × Nat), rs.length = n ∧ (∀ r ∈ rs, 0 < r.2) ∧ total = decoded + (expand rs).length ∧
        total ≤ usizeMax ∧ stop = offset + (rs.flatMap runBytes).length ∧
        payload.val.drop offset = rs.flatMap runBytes ++ payload.val.drop stop)
  | 0, offset, i, decoded, total, stop, h, hdecoded => by
    rw [validateRleRunsFrom, Exec.ok.injEq, Prod.mk.injEq]
    constructor
    · rintro ⟨rfl, rfl⟩; exact ⟨[], rfl, nofun, rfl, hdecoded, rfl, rfl⟩
    · rintro ⟨rs, hrs, -, rfl, -, rfl, -⟩
      rw [List.length_eq_zero_iff.1 hrs]; exact ⟨rfl, rfl⟩
  | n + 1, offset, i, decoded, total, stop, h, hdecoded => by
    simp only [validateRleRunsFrom, Exec.bind_eq_ok, Prod.exists, validateRleRun_eq_ok]
    constructor
    · rintro ⟨_, _, ⟨value, runLength, hpos, rfl, hfits, rfl, hdrop⟩, hrest⟩
      have hle := field_le hdrop (length_runBytes (value, runLength)) h
      obtain ⟨rs, rfl, hall, rfl, htotal, rfl, hrs⟩ := (validateRleRunsFrom_eq_ok hle hfits).1 hrest
      refine ⟨(value, runLength) :: rs, rfl, ?_, ?_, htotal, ?_, ?_⟩
      · intro r' hr'
        rcases List.mem_cons.1 hr' with rfl | hr'
        · exact hpos
        · exact hall r' hr'
      · rw [RunLength.expand_cons, List.length_append, List.length_replicate, Nat.add_assoc]
      · rw [List.flatMap_cons, List.length_append, length_runBytes, Nat.add_assoc]
      · rw [hdrop, hrs, List.flatMap_cons, List.append_assoc]
    · rintro ⟨rs, hrs, hall, rfl, htotal, rfl, hdrop⟩
      obtain ⟨⟨value, runLength⟩, rs, rfl⟩ := List.exists_cons_of_length_eq_add_one hrs
      rw [List.flatMap_cons, List.append_assoc] at hdrop
      rw [RunLength.expand_cons, List.length_append, List.length_replicate] at htotal ⊢
      have hfirst := drop_eq_field hdrop (length_runBytes _)
      have hrest := drop_add_of_eq hdrop (length_runBytes _)
      rw [List.length_append, length_runBytes] at hrest
      rw [List.flatMap_cons, List.length_append, length_runBytes]
      refine ⟨_, _, ⟨value, runLength, hall _ List.mem_cons_self, rfl, by omega, rfl, hfirst⟩, ?_⟩
      exact (validateRleRunsFrom_eq_ok (field_le hfirst (length_runBytes _) h) (by omega)).2
        ⟨rs, Nat.succ.inj hrs, fun r' hr' => hall r' (List.mem_cons_of_mem _ hr'), (Nat.add_assoc _ _ _).symm, by omega,
          (Nat.add_assoc _ _ _).symm, hrest⟩

theorem readRleRun_eq (r : Option Int64 × Nat) {offset : Nat} {rest : Bytes} (hr : r.2 ≤ usizeMax)
    (h : payload.val.drop offset = runBytes r ++ rest) :
    readRleRun payload offset = .ok (r.1, r.2, offset + runLen r.1) := by
  have hfits := payload.property
  unfold isizeMax at hfits
  have hlen := congrArg List.length h
  rw [List.length_append, length_runBytes, List.length_drop, runLen, nullableI64RleRunHeaderLen] at hlen
  have hcount : ofLeBytes (sizeBytes r.2) = r.2 := ofLeBytes_sizeBytes hr
  have h₁ : checkedAdd offset 1 = some (offset + 1) := checkedAdd_of_le (by unfold usizeMax; omega)
  have h₂ : checkedAdd (offset + 1) 8 = some (offset + 1 + 8) := checkedAdd_of_le (by unfold usizeMax; omega)
  obtain ⟨value, runLength⟩ := r
  cases value with
  | none =>
    simp only [Option.isSome_none, Bool.toNat_false, Nat.zero_mul, Nat.add_zero] at hlen
    have d₁ := @drop_add_of_eq _ [nullableI64RleNullRunTag] _ offset 1 h rfl
    have htag := ByteSpan.getElem?_eq_some.2 (@drop_eq_field _ [nullableI64RleNullRunTag] _ offset 1 h rfl)
    have hread : (payload.readArray 8 (offset + 1) : Exec NullableI64RlePayloadError Bytes) = .ok (sizeBytes runLength) :=
      ByteSpan.readArray_eq_ok.2 ⟨by omega, length_sizeBytes _, drop_eq_field d₁ (length_sizeBytes _)⟩
    rw [readRleRun, htag, h₁]
    simp only [orPanic_some, Exec.ok_bind, hread, h₂, hcount]
    rfl
  | some value =>
    simp only [Option.isSome_some, Bool.toNat_true, Nat.one_mul] at hlen
    rw [runBytes, List.cons_append, List.append_assoc] at h
    have h₃ : checkedAdd (offset + 1 + 8) 8 = some (offset + 1 + 8 + 8) := checkedAdd_of_le (by unfold usizeMax; omega)
    have d₁ := @drop_add_of_eq _ [nullableI64RleValueRunTag] _ offset 1 h rfl
    have d₉ := drop_add_of_eq d₁ (length_sizeBytes _)
    have htag := ByteSpan.getElem?_eq_some.2 (@drop_eq_field _ [nullableI64RleValueRunTag] _ offset 1 h rfl)
    have hread : (payload.readArray 8 (offset + 1) : Exec NullableI64RlePayloadError Bytes) = .ok (sizeBytes runLength) :=
      ByteSpan.readArray_eq_ok.2 ⟨by omega, length_sizeBytes _, drop_eq_field d₁ (length_sizeBytes _)⟩
    have hvalue : (payload.readArray 8 (offset + 1 + 8) : Exec NullableI64RlePayloadError Bytes) = .ok (i64Bytes value) :=
      ByteSpan.readArray_eq_ok.2 ⟨by omega, length_i64Bytes _, drop_eq_field d₉ (length_i64Bytes _)⟩
    rw [readRleRun, htag, h₁]
    simp only [orPanic_some, Exec.ok_bind, hread, h₂, hvalue, h₃, hcount, i64OfBytes_i64Bytes]
    rfl

theorem expandRleRuns_eq : ∀ (rs : List (Option Int64 × Nat)) {offset : Nat} {rows : List (Option Int64)} {rest : Bytes},
    payload.val.drop offset = rs.flatMap runBytes ++ rest → rows.length + (expand rs).length ≤ usizeMax →
      expandRleRuns payload offset rows rs.length = .ok (rows ++ expand rs)
  | [], _, rows, _, _, _ => by rw [RunLength.expand_nil, List.append_nil]; rfl
  | r :: rs, offset, rows, rest, h, hfits => by
    rw [List.flatMap_cons, List.append_assoc] at h
    rw [RunLength.expand_cons, List.length_append, List.length_replicate] at hfits
    have hrest := drop_add_of_eq h (length_runBytes r)
    have hlen : (rows ++ List.replicate r.2 r.1).length + (expand rs).length ≤ usizeMax := by
      rw [List.length_append, List.length_replicate]; omega
    rw [List.length_cons, expandRleRuns, readRleRun_eq r (by omega) h]
    simp only [Exec.ok_bind, checkedAdd_of_le (show rows.length + r.2 ≤ usizeMax by omega), orPanic_some,
      Nat.add_sub_cancel_left]
    rw [expandRleRuns_eq rs hrest hlen, RunLength.expand_cons, List.append_assoc]

end

namespace NullableI64RlePayloadCodec

variable {codec : NullableI64RlePayloadCodec} {payload : ByteSpan}

/-- The first pass accepts the nonempty runs that add up to the declared row count. -/
theorem validate_eq_ok {rowCount runCount : Nat} : codec.validate payload = .ok (rowCount, runCount) ↔
    ∃ rs : List (Option Int64 × Nat), rs.length = runCount ∧ (∀ r ∈ rs, 0 < r.2) ∧ (expand rs).length = rowCount ∧
      Fits codec rs ∧ payload.val = rleBytes rowCount rs := by
  simp only [validate, validateNullableI64RleRuns, Exec.bind_eq_ok, Prod.exists, getOr_eq_ok, rejectIf_eq_ok,
    Option.bind_eq_some_iff, checkedMul_eq_some, checkedAdd_eq_some, ByteSpan.readArray_eq_ok, Nat.not_lt, not_not,
    Exec.ok.injEq, Prod.mk.injEq]
  constructor
  · rintro ⟨_, hmax, _, hheader, _, ⟨_, _, hmagic⟩, _, rfl, version, ⟨_, hversionLen, hversion⟩, _, hsupported,
      rowCount, ⟨_, hrowLen, hrow⟩, _, hrows, runCount, ⟨_, hrunLen, hrun⟩, _, hruns, _, ⟨_, ⟨_, rfl⟩, _, rfl⟩, _, _,
      decoded, stop, hvalid, _, _, _, hsame, _, hend, rfl, rfl⟩
    obtain ⟨rs, hcount, hpos, hdecoded, -, -, hdrop⟩ := (validateRleRunsFrom_eq_ok hheader (Nat.zero_le _)).1 hvalid
    rw [Nat.zero_add] at hdecoded
    rw [List.drop_eq_nil_of_le hend, List.append_nil] at hdrop
    rw [List.drop_zero] at hmagic
    have hbytes : payload.val = rleBytes (ofLeBytes rowCount) rs := by
      rw [rleBytes, hcount, sizeBytes_ofLeBytes hrowLen, sizeBytes_ofLeBytes hrunLen, ← hdrop, ← hsupported,
        u16Bytes_u16OfBytes hversionLen]
      have hcounts := hrow.trans (congrArg (rowCount ++ ·) hrun)
      exact hmagic.trans (congrArg (nullableI64RlePayloadMagic ++ ·) (hversion.trans (congrArg (version ++ ·) hcounts)))
    have hsum : (expand rs).length = ofLeBytes rowCount := hdecoded.symm.trans hsame
    refine ⟨rs, hcount, hpos, hsum, ⟨by rw [hsum]; exact hrows, by rw [hcount]; exact hruns, ?_⟩, hbytes⟩
    rw [hsum, ← hbytes]; exact hmax
  · rintro ⟨rs, rfl, hpos, rfl, ⟨hrows, hruns, hmax⟩, h⟩
    have hfits := ByteSpan.length_le payload
    have hlength := length_rleBytes (expand rs).length rs
    have hrowsMax := codec.maxRows.toNat_lt
    have hrunsMax := codec.maxRuns.toNat_lt
    rw [← h] at hmax hlength
    have hmagic : nullableI64RlePayloadMagic.length = 8 := rfl
    have hheader : nullableI64RlePayloadHeaderLen ≤ payload.val.length := by omega
    have d₀ : payload.val.drop 0 = _ := h
    have d₈ := drop_add_of_eq d₀ hmagic
    have d₁₀ := drop_add_of_eq d₈ (length_u16Bytes _)
    have d₁₈ := drop_add_of_eq d₁₀ (length_sizeBytes _)
    have d₂₆ := drop_add_of_eq d₁₈ (length_sizeBytes _)
    have drows : payload.val.drop nullableI64RlePayloadHeaderLen = rs.flatMap runBytes := d₂₆
    have hrowCount : ofLeBytes (sizeBytes (expand rs).length) = (expand rs).length :=
      ofLeBytes_sizeBytes (by unfold usizeMax; omega)
    have hrunCount : ofLeBytes (sizeBytes rs.length) = rs.length := ofLeBytes_sizeBytes (by unfold usizeMax; omega)
    refine ⟨(), hmax, (), hheader, nullableI64RlePayloadMagic,
      ⟨Nat.le_trans (by decide) hheader, hmagic, drop_eq_field d₀ hmagic⟩, (), rfl, u16Bytes nullableI64RlePayloadVersion,
      ⟨Nat.le_trans (by decide) hheader, rfl, drop_eq_field d₈ (length_u16Bytes _)⟩, (), u16OfBytes_u16Bytes _,
      sizeBytes (expand rs).length,
      ⟨Nat.le_trans (by decide) hheader, length_sizeBytes _, drop_eq_field d₁₀ (length_sizeBytes _)⟩, (), ?_⟩
    rw [hrowCount]
    refine ⟨hrows, sizeBytes rs.length,
      ⟨Nat.le_trans (by decide) hheader, length_sizeBytes _, drop_eq_field d₁₈ (length_sizeBytes _)⟩, (), ?_⟩
    rw [hrunCount]
    have hstop : nullableI64RlePayloadHeaderLen + (rs.flatMap runBytes).length = payload.val.length := by
      rw [hlength, length_flatMap_runBytes]
    refine ⟨hruns, _, ⟨_, ⟨by omega, rfl⟩, by omega, rfl⟩, (), by omega, (expand rs).length, payload.val.length, ?_, (), hrows,
      (), rfl, (), Nat.le_refl _, rfl, rfl⟩
    refine (validateRleRunsFrom_eq_ok hheader (Nat.zero_le _)).2
      ⟨rs, rfl, hpos, (Nat.zero_add _).symm, by unfold usizeMax; omega, hstop.symm, ?_⟩
    rw [drows, List.drop_length, List.append_nil]

theorem drop_rleBytes {rowCount : Nat} {rs : List (Option Int64 × Nat)} (h : payload.val = rleBytes rowCount rs) :
    payload.val.drop nullableI64RlePayloadHeaderLen = rs.flatMap runBytes := by
  have d₀ : payload.val.drop 0 = _ := h
  have d₈ := drop_add_of_eq d₀ (show nullableI64RlePayloadMagic.length = 8 from rfl)
  have d₁₀ := drop_add_of_eq d₈ (length_u16Bytes _)
  have d₁₈ := drop_add_of_eq d₁₀ (length_sizeBytes _)
  have d₂₆ := drop_add_of_eq d₁₈ (length_sizeBytes _)
  exact d₂₆

theorem expandRleRuns_of_bytes {rowCount : Nat} {rs : List (Option Int64 × Nat)} (hfits : Fits codec rs)
    (h : payload.val = rleBytes rowCount rs) :
    expandRleRuns payload nullableI64RlePayloadHeaderLen [] rs.length = .ok (expand rs) := by
  have hrows := hfits.rows
  have hmax := codec.maxRows.toNat_lt
  have hdrop := drop_rleBytes h
  rw [← List.append_nil (rs.flatMap runBytes)] at hdrop
  exact expandRleRuns_eq rs hdrop (by rw [List.length_nil, Nat.zero_add]; unfold usizeMax; omega)

/-- What decoding a well-formed payload comes to, whatever storage there is. -/
theorem decode_of_bytes (reserve : Nat → Bool) {rs : List (Option Int64 × Nat)} (hpos : ∀ r ∈ rs, 0 < r.2)
    (hfits : Fits codec rs) (h : payload.val = rleBytes (expand rs).length rs) :
    codec.decode reserve payload =
      if reserve (expand rs).length then .ok (expand rs) else .error (.decodedRowsAllocationFailed (expand rs).length) := by
  rw [decode, validate_eq_ok.2 ⟨rs, rfl, hpos, rfl, hfits, h⟩, Exec.ok_bind]
  simp only
  by_cases hreserve : reserve (expand rs).length = true
  · rw [rejectIf_of_not (not_not_intro hreserve), if_pos hreserve, Exec.ok_bind, expandRleRuns_of_bytes hfits h]
  · rw [rejectIf, if_pos hreserve, if_neg hreserve, Exec.error_bind]

theorem decode_eq_ok {reserve : Nat → Bool} {rows : List (Option Int64)} (h : codec.decode reserve payload = .ok rows) :
    ∃ rs : List (Option Int64 × Nat), (∀ r ∈ rs, 0 < r.2) ∧ rows = expand rs ∧ Fits codec rs ∧
      payload.val = rleBytes rows.length rs := by
  obtain ⟨⟨rowCount, runCount⟩, hvalid, hrest⟩ := Exec.bind_eq_ok.1 h
  obtain ⟨_, -, hread⟩ := Exec.bind_eq_ok.1 hrest
  obtain ⟨rs, rfl, hpos, rfl, hfits, hbytes⟩ := validate_eq_ok.1 hvalid
  rw [expandRleRuns_of_bytes hfits hbytes] at hread
  obtain rfl := Exec.ok.inj hread
  exact ⟨rs, hpos, rfl, hfits, hbytes⟩

theorem validateRleRunsFrom_ne_panic : ∀ (offset i decoded n : Nat), validateRleRunsFrom payload offset i decoded n ≠ .panic
  | _, _, _, 0 => Exec.ok_ne_panic _
  | offset, i, decoded, n + 1 => by
    have hfits := payload.property
    unfold isizeMax at hfits
    refine Exec.bind_ne_panic ?_ fun after _ => validateRleRunsFrom_ne_panic after.2 (i + 1) after.1 n
    refine Exec.bind_ne_panic (getOr_ne_panic _ _) fun tag htag => Exec.bind_ne_panic (rejectIf_ne_panic _ _) fun _ _ =>
      Exec.bind_ne_panic (rejectIf_ne_panic _ _) fun _ hlen => Exec.bind_ne_panic ?_ fun _ _ =>
      Exec.bind_ne_panic (rejectIf_ne_panic _ _) fun _ _ => Exec.bind_ne_panic ?_ fun _ _ =>
      Exec.bind_ne_panic (getOr_ne_panic _ _) fun _ _ => Exec.ok_ne_panic _
    · obtain ⟨hlt, -⟩ := List.getElem?_eq_some_iff.1 (getOr_eq_ok.1 htag)
      have hlen := rejectIf_eq_ok.1 hlen
      have htagEnd : saturatingAdd offset 1 = offset + 1 := saturatingAdd_of_le (by unfold usizeMax; omega)
      have hrunEnd : saturatingAdd (offset + 1) 8 = offset + 1 + 8 := saturatingAdd_of_le (by unfold usizeMax; omega)
      rw [htagEnd, hrunEnd] at hlen
      rw [htagEnd]
      exact ByteSpan.readArray_ne_panic (by omega)
    · unfold rleRunEnd
      split
      · exact Exec.bind_ne_panic (rejectIf_ne_panic _ _) fun _ _ => Exec.ok_ne_panic _
      · exact Exec.ok_ne_panic _

theorem validate_ne_panic (codec : NullableI64RlePayloadCodec) (payload : ByteSpan) : codec.validate payload ≠ .panic := by
  refine Exec.bind_ne_panic (rejectIf_ne_panic _ _) fun _ _ => Exec.bind_ne_panic (rejectIf_ne_panic _ _) fun _ hlen => ?_
  have hheader : 26 ≤ payload.val.length := Nat.not_lt.1 (rejectIf_eq_ok.1 hlen)
  have hread : ∀ len offset : Nat, offset + len ≤ 26 →
      (payload.readArray len offset : Exec NullableI64RlePayloadError Bytes) ≠ .panic := fun len offset h =>
    ByteSpan.readArray_ne_panic (Nat.le_trans h hheader)
  refine Exec.bind_ne_panic (hread _ _ (by decide)) fun _ _ => Exec.bind_ne_panic (rejectIf_ne_panic _ _) fun _ _ =>
    Exec.bind_ne_panic (hread _ _ (by decide)) fun _ _ => Exec.bind_ne_panic (rejectIf_ne_panic _ _) fun _ _ =>
    Exec.bind_ne_panic (hread _ _ (by decide)) fun _ _ => Exec.bind_ne_panic (rejectIf_ne_panic _ _) fun _ _ =>
    Exec.bind_ne_panic (hread _ _ (by decide)) fun _ _ => Exec.bind_ne_panic (rejectIf_ne_panic _ _) fun _ _ =>
    Exec.bind_ne_panic (getOr_ne_panic _ _) fun _ _ => Exec.bind_ne_panic (rejectIf_ne_panic _ _) fun _ _ =>
    Exec.bind_ne_panic (validateRleRunsFrom_ne_panic _ _ _ _) fun ⟨_, _⟩ _ => ?_
  exact Exec.bind_ne_panic (rejectIf_ne_panic _ _) fun _ _ => Exec.bind_ne_panic (rejectIf_ne_panic _ _) fun _ _ =>
    Exec.bind_ne_panic (rejectIf_ne_panic _ _) fun _ _ => nofun

/-- **No panic.** No byte string makes a read leave the payload or an addition overflow. -/
theorem decode_ne_panic (codec : NullableI64RlePayloadCodec) (reserve : Nat → Bool) (payload : ByteSpan) :
    codec.decode reserve payload ≠ .panic := by
  refine Exec.bind_ne_panic (validate_ne_panic codec payload) fun ⟨rowCount, runCount⟩ hvalid => ?_
  refine Exec.bind_ne_panic (rejectIf_ne_panic _ _) fun _ _ => ?_
  obtain ⟨rs, rfl, -, -, hfits, hbytes⟩ := validate_eq_ok.1 hvalid
  rw [expandRleRuns_of_bytes hfits hbytes]; exact nofun

/-! ## Lossless and shortest -/

def declaredRows (payload : ByteSpan) : Nat := ofLeBytes ((payload.val.drop nullableI64RlePayloadRowCountOffset).take 8)

def declaredRuns (payload : ByteSpan) : Nat := ofLeBytes ((payload.val.drop nullableI64RlePayloadRunCountOffset).take 8)

theorem declared_rleBytes {rs : List (Option Int64 × Nat)} (hfits : Fits codec rs)
    (h : payload.val = rleBytes (expand rs).length rs) :
    declaredRows payload = (expand rs).length ∧ declaredRuns payload = rs.length := by
  have hrows := hfits.rows
  have hruns := hfits.runs
  have hrowsMax := codec.maxRows.toNat_lt
  have hrunsMax := codec.maxRuns.toNat_lt
  have d₀ : payload.val.drop 0 = _ := h
  have d₈ := drop_add_of_eq d₀ (show nullableI64RlePayloadMagic.length = 8 from rfl)
  have d₁₀ : payload.val.drop nullableI64RlePayloadRowCountOffset = _ := drop_add_of_eq d₈ (length_u16Bytes _)
  have d₁₈ : payload.val.drop nullableI64RlePayloadRunCountOffset = _ := drop_add_of_eq d₁₀ (length_sizeBytes _)
  constructor
  · rw [declaredRows, d₁₀, List.take_left' (length_sizeBytes _), ofLeBytes_sizeBytes (by unfold usizeMax; omega)]
  · rw [declaredRuns, d₁₈, List.take_left' (length_sizeBytes _), ofLeBytes_sizeBytes (by unfold usizeMax; omega)]

theorem encode_of_fits {rows : List (Option Int64)} (hfits : Fits codec (runs rows))
    (hcapacity : (rleBytes rows.length (runs rows)).length ≤ isizeMax) :
    codec.encode rows = .ok ⟨rleBytes rows.length (runs rows), hcapacity⟩ :=
  encode_eq_ok.2 ⟨hfits, rfl⟩

/-- **The run-length codec.** Rows within the limits are encoded, decode to themselves once their storage is
reserved, and no accepted payload for them has fewer runs. An accepted payload decodes to as many rows as it
declares and as its runs add up to, within the row limit. No payload makes the decoder panic. -/
theorem rle_codec (codec : NullableI64RlePayloadCodec) :
    (∀ rows, Fits codec (runs rows) → (rleBytes rows.length (runs rows)).length ≤ isizeMax →
      ∃ payload, codec.encode rows = .ok payload ∧
        (∀ reserve, codec.decode reserve payload =
          if reserve rows.length then .ok rows else .error (.decodedRowsAllocationFailed rows.length)) ∧
        ∀ (codec' : NullableI64RlePayloadCodec) reserve payload', codec'.decode reserve payload' = .ok rows →
          declaredRuns payload ≤ declaredRuns payload') ∧
    (∀ reserve payload rows, codec.decode reserve payload = .ok rows →
      ∃ rs : List (Option Int64 × Nat), payload.val = rleBytes (declaredRows payload) rs ∧
        rs.length = declaredRuns payload ∧ (∀ r ∈ rs, 0 < r.2) ∧ rows = expand rs ∧
        rows.length = declaredRows payload ∧ rows.length = (rs.map Prod.snd).sum ∧ rows.length ≤ codec.maxRows.toNat) ∧
    ∀ reserve payload, codec.decode reserve payload ≠ .panic := by
  refine ⟨fun rows hfits hcapacity => ?_, fun reserve payload rows h => ?_, decode_ne_panic codec⟩
  · have hexpand := RunLength.expand_runs rows
    refine ⟨_, encode_of_fits hfits hcapacity, fun reserve => ?_, fun codec' reserve payload' h => ?_⟩
    · have hdecode := @decode_of_bytes codec ⟨_, hcapacity⟩ reserve (runs rows) (RunLength.runs_pos rows) hfits
        (by rw [hexpand])
      rwa [hexpand] at hdecode
    · obtain ⟨rs, -, rfl, hfits', hbytes⟩ := decode_eq_ok h
      rw [(declared_rleBytes hfits (by rw [hexpand])).2, (declared_rleBytes hfits' hbytes).2]
      exact RunLength.length_runs_expand_le rs
  · obtain ⟨rs, hpos, rfl, hfits, hbytes⟩ := decode_eq_ok h
    obtain ⟨hrows, hruns⟩ := declared_rleBytes hfits hbytes
    exact ⟨rs, by rw [hrows]; exact hbytes, hruns.symm, hpos, rfl, hrows.symm, RunLength.length_expand rs, hfits.rows⟩

theorem rle_codec_sample : ∃ payload, (NullableI64RlePayloadCodec.mk 8 4 128).encode [none, none, some 7] = .ok payload ∧
    (NullableI64RlePayloadCodec.mk 8 4 128).decode (fun _ => true) payload = .ok [none, none, some 7] := by
  obtain ⟨payload, hencode, hdecode, -⟩ := (rle_codec ⟨8, 4, 128⟩).1 [none, none, some 7]
    ⟨by decide +kernel, by decide +kernel, by decide +kernel⟩ (by decide +kernel)
  exact ⟨payload, hencode, hdecode fun _ => true⟩

end NullableI64RlePayloadCodec

end RustHouse
