import RustHouse.ShiftRegister
import RustHouse.SnapshotSound
import RustHouse.WalRecovery

/-!
# Checksums catch short bursts

The CRC-32 register is a shift register with an invertible shift, so payloads
of one length that differ only in a window of at most 32 bits have different
checksums. No snapshot envelope and no complete log record survives such a
change of its payload. Bits are counted as the register takes them, the lowest
of each byte first.
-/

namespace RustHouse

open Checked Exec Words ShiftRegister

/-! ## The register -/

def crc32Polynomial : BitVec 32 := 0xedb88320#32

def byteBits (byte : UInt8) : List Bool := (List.range 8).map fun place => byte.toBitVec.getLsbD place

def payloadBits (bytes : Bytes) : List Bool := bytes.flatMap byteBits

theorem length_byteBits (byte : UInt8) : (byteBits byte).length = 8 := by
  rw [byteBits, List.length_map, List.length_range]

theorem payloadBits_cons (byte : UInt8) (bytes : Bytes) :
    payloadBits (byte :: bytes) = byteBits byte ++ payloadBits bytes := List.flatMap_cons

theorem length_payloadBits : ∀ bytes : Bytes, (payloadBits bytes).length = 8 * bytes.length
  | [] => rfl
  | byte :: bytes => by
    rw [payloadBits_cons, List.length_append, length_byteBits, length_payloadBits bytes, List.length_cons]; omega

theorem byteBits_injective {a b : UInt8} (h : byteBits a = byteBits b) : a = b := by
  apply UInt8.toBitVec_inj.1
  apply BitVec.eq_of_getLsbD_eq
  intro place hplace
  have hbit := congrArg (fun bits => bits[place]?) h
  simpa [byteBits, hplace] using hbit

theorem payloadBits_injective : ∀ {p q : Bytes}, p.length = q.length → payloadBits p = payloadBits q → p = q
  | [], [], _, _ => rfl
  | a :: p, b :: q, hlen, h => by
    rw [payloadBits_cons, payloadBits_cons] at h
    have hsplit := List.append_inj h (by rw [length_byteBits, length_byteBits])
    rw [byteBits_injective hsplit.1, payloadBits_injective (Nat.succ.inj hlen) hsplit.2]

theorem ofBits_byteBits (byte : UInt8) : (ofBits (byteBits byte) : BitVec 32) = byte.toBitVec.setWidth 32 := by
  apply BitVec.eq_of_getLsbD_eq
  intro i hi
  rw [getLsbD_ofBits _ hi, BitVec.getLsbD_setWidth]
  by_cases hbyte : i < 8
  · simp [byteBits, hi, hbyte]
  · simp [byteBits, hbyte, BitVec.getLsbD_of_ge byte.toBitVec i (by omega)]

theorem crc32Shift_toBitVec (c : UInt32) : (crc32Shift c).toBitVec = shift crc32Polynomial c.toBitVec := by
  have hlow : (c &&& 1).toBitVec = BitVec.setWidth 32 (BitVec.ofBool (c.toBitVec.getLsbD 0)) := by
    rw [UInt32.toBitVec_and]
    exact BitVec.and_one_eq_setWidth_ofBool_getLsbD
  rw [crc32Shift, UInt32.toBitVec_xor, UInt32.toBitVec_and, UInt32.toBitVec_sub, hlow, shift]
  cases c.toBitVec.getLsbD 0 <;> rfl

theorem repeat_crc32Shift : ∀ (n : Nat) (c : UInt32),
    (Nat.repeat crc32Shift n c).toBitVec = (shift crc32Polynomial)^[n] c.toBitVec
  | 0, _ => rfl
  | n + 1, c => by
    rw [Nat.repeat, crc32Shift_toBitVec, repeat_crc32Shift n, Function.iterate_succ_apply']

theorem crc32Update_toBitVec : ∀ (bytes : Bytes) (checksum : UInt32),
    (crc32Update checksum bytes).toBitVec = feed crc32Polynomial checksum.toBitVec (payloadBits bytes)
  | [], _ => rfl
  | byte :: bytes, checksum => by
    have hbyte : (Nat.repeat crc32Shift 8 (checksum ^^^ byte.toUInt32)).toBitVec =
        feed crc32Polynomial checksum.toBitVec (byteBits byte) := by
      rw [repeat_crc32Shift, feed_eq_iterate _ _ _ (by rw [length_byteBits]; decide), length_byteBits, ofBits_byteBits]
      rfl
    rw [payloadBits_cons, feed_append, ← hbyte, ← crc32Update_toBitVec bytes]
    rfl

/-! ## Bursts -/

/-- Payloads of one length that agree outside a window of 32 bits. -/
structure Burst (start : Nat) (p q : Bytes) : Prop where
  length_eq : p.length = q.length
  outside : ∀ i, i < start ∨ start + 32 ≤ i → (payloadBits p)[i]? = (payloadBits q)[i]?

/-- The three parts of the bits: before the window, the window, and after it. -/
theorem Burst.split {start : Nat} {p q : Bytes} (h : Burst start p q) : ∃ before u v after,
    payloadBits p = before ++ (u ++ after) ∧ payloadBits q = before ++ (v ++ after) ∧ u.length = v.length ∧
      u.length ≤ 32 := by
  have hbits : (payloadBits p).length = (payloadBits q).length := by
    rw [length_payloadBits, length_payloadBits, h.length_eq]
  have hbefore : (payloadBits p).take start = (payloadBits q).take start := by
    apply List.ext_getElem?
    intro i
    rw [List.getElem?_take, List.getElem?_take]
    by_cases hi : i < start
    · rw [if_pos hi, if_pos hi, h.outside i (.inl hi)]
    · rw [if_neg hi, if_neg hi]
  have hafter : (payloadBits p).drop (start + 32) = (payloadBits q).drop (start + 32) := by
    apply List.ext_getElem?
    intro i
    rw [List.getElem?_drop, List.getElem?_drop]
    exact h.outside _ (.inr (Nat.le_add_right _ _))
  refine ⟨(payloadBits p).take start, ((payloadBits p).drop start).take 32, ((payloadBits q).drop start).take 32,
    (payloadBits p).drop (start + 32), ?_, ?_, ?_, List.length_take_le _ _⟩
  · rw [← List.drop_drop, List.take_append_drop, List.take_append_drop]
  · rw [hbefore, hafter, ← List.drop_drop, List.take_append_drop, List.take_append_drop]
  · rw [List.length_take, List.length_take, List.length_drop, List.length_drop, hbits]

/-- The register tells the two payloads of a burst apart, whatever it held before. -/
theorem crc32Update_burst {start : Nat} {p q : Bytes} (h : Burst start p q) {checksum : UInt32}
    (heq : crc32Update checksum p = crc32Update checksum q) : p = q := by
  obtain ⟨before, u, v, after, hp, hq, hlen, hfits⟩ := h.split
  have hfeed : feed crc32Polynomial checksum.toBitVec (before ++ (u ++ after)) =
      feed crc32Polynomial checksum.toBitVec (before ++ (v ++ after)) := by
    rw [← hp, ← hq, ← crc32Update_toBitVec, ← crc32Update_toBitVec, heq]
  have hwindow : u = v := feed_burst (by decide) hlen hfits hfeed
  apply payloadBits_injective h.length_eq
  rw [hp, hq, hwindow]

theorem crc32_burst {start : Nat} {p q : Bytes} (h : Burst start p q) (heq : crc32 p = crc32 q) : p = q :=
  crc32Update_burst h (UInt32.not_inj.1 heq)

theorem recordChecksum_burst {start : Nat} {p q : Bytes} (h : Burst start p q) {version : UInt16} {kind reserved : UInt8}
    {sequence : Nat} (heq : recordChecksum version kind reserved sequence p = recordChecksum version kind reserved sequence q) :
    p = q := by
  unfold recordChecksum at heq
  rw [h.length_eq] at heq
  exact crc32Update_burst h (UInt32.not_inj.1 heq)

/-! ## Snapshots -/

/-- The fixed fields of an envelope. -/
def envelopeHeader (payload : Bytes) : Bytes :=
  snapshotMagic ++ (u16Bytes snapshotVersion ++ (sizeBytes payload.length ++ u32Bytes (crc32 payload)))

theorem envelopeBytes_eq (payload : Bytes) : envelopeBytes payload = envelopeHeader payload ++ payload := by
  simp only [envelopeBytes, envelopeHeader, List.append_assoc]

theorem length_envelopeHeader (payload : Bytes) : (envelopeHeader payload).length = snapshotHeaderLen := by
  simp [envelopeHeader, snapshotHeaderLen, snapshotMagic, ascii]

theorem crc32_of_envelopeHeader {p q : Bytes} (h : envelopeHeader p = envelopeHeader q) : crc32 p = crc32 q := by
  have hfields := List.append_cancel_left (List.append_cancel_left h)
  have hchecksum := (List.append_inj hfields (by rw [length_sizeBytes, length_sizeBytes])).2
  rw [← u32OfBytes_u32Bytes (crc32 p), hchecksum, u32OfBytes_u32Bytes]

theorem overwrite_envelope {p q : Bytes} (hlen : p.length = q.length) :
    overwrite (envelopeBytes p) snapshotHeaderLen q = envelopeHeader p ++ q := by
  have h := overwrite_eq (b := []) (length_envelopeHeader p) hlen
  rw [List.append_nil, List.append_nil] at h
  rw [envelopeBytes_eq, h]

theorem decode_burst {start : Nat} {p q : Bytes} (h : Burst start p q) (hne : p ≠ q) {codec reader : SnapshotCodec}
    {payload envelope corrupted : ByteSpan} (hpayload : payload.val = p) (hencode : codec.encode payload = .ok envelope)
    (hcorrupted : corrupted.val = overwrite envelope.val snapshotHeaderLen q) (value : ByteSpan) :
    reader.decode corrupted ≠ .ok value := by
  intro hdecode
  have hvalue := (SnapshotCodec.decode_eq_ok.1 hdecode).2
  rw [hcorrupted, (SnapshotCodec.encode_eq_ok.1 hencode).2, hpayload, overwrite_envelope h.length_eq,
    envelopeBytes_eq] at hvalue
  obtain ⟨hheader, hrest⟩ := List.append_inj hvalue (by rw [length_envelopeHeader, length_envelopeHeader])
  rw [← hrest] at hheader
  exact hne (crc32_burst h (crc32_of_envelopeHeader hheader))

/-! ## Log records -/

/-- The record of `p` with the bytes of `q` in the place of its payload. -/
def corruptRecord (kind : UInt8) (sequence : Nat) (p q : Bytes) : Bytes :=
  recordHeader kind sequence p.length (recordChecksum int64WalVersion kind 0 sequence p) ++
    (q ++ (int64WalCommitMagic ++ sizeBytes sequence))

theorem overwrite_record {p q : Bytes} (hlen : p.length = q.length) (pre post : Bytes) (kind : UInt8) (sequence : Nat) :
    overwrite (pre ++ (encodeRecord kind sequence p ++ post)) (pre.length + int64WalFrameHeaderLen) q =
      pre ++ (corruptRecord kind sequence p q ++ post) := by
  have hsplit : ∀ x, pre ++ (recordHeader kind sequence p.length (recordChecksum int64WalVersion kind 0 sequence p) ++
      (x ++ (int64WalCommitMagic ++ sizeBytes sequence)) ++ post) =
      (pre ++ recordHeader kind sequence p.length (recordChecksum int64WalVersion kind 0 sequence p)) ++
        (x ++ ((int64WalCommitMagic ++ sizeBytes sequence) ++ post)) := by
    intro x
    simp only [List.append_assoc]
  rw [encodeRecord_eq, declaredRecord, corruptRecord, hsplit, hsplit]
  exact overwrite_eq (by rw [List.length_append, length_recordHeader]; rfl) hlen

section
variable {start : Nat} {p q : Bytes} {limits : Int64WriteAheadLogLimits} {pre post : Bytes} {kind : UInt8} {sequence : Nat}
  {state : ReplayState}

theorem replayFrame_corrupt (hlen : p.length = q.length)
    (hchecksum : recordChecksum int64WalVersion kind 0 sequence q ≠ recordChecksum int64WalVersion kind 0 sequence p)
    (hseq : sequence ≤ usizeMax) : ∃ e, replayFrame limits (pre ++ (corruptRecord kind sequence p q ++ post)) pre.length
      (pre.length + (int64WalFrameOverhead + p.length))
      (frameHeader kind sequence p.length (recordChecksum int64WalVersion kind 0 sequence p)) state = .error e := by
  have hpayload : readArray p.length (pre ++ (corruptRecord kind sequence p q ++ post))
      (pre.length + int64WalFrameHeaderLen) = q :=
    readArray_eq (a := pre ++ recordHeader kind sequence p.length (recordChecksum int64WalVersion kind 0 sequence p))
      (by simp only [corruptRecord, List.append_assoc]; rfl) (by simp [length_recordHeader, int64WalFrameHeaderLen])
      hlen.symm
  have hfooter : readArray (pre.length + (int64WalFrameOverhead + p.length) -
        (pre.length + int64WalFrameHeaderLen + p.length)) (pre ++ (corruptRecord kind sequence p q ++ post))
      (pre.length + int64WalFrameHeaderLen + p.length) = int64WalCommitMagic ++ sizeBytes sequence :=
    readArray_eq (a := pre ++ (recordHeader kind sequence p.length (recordChecksum int64WalVersion kind 0 sequence p) ++ q))
      (b := post)
      (by simp only [corruptRecord, List.append_assoc])
      (by simp [length_recordHeader, int64WalFrameHeaderLen, hlen]; omega)
      (by simp [int64WalCommitMagic, ascii, int64WalFrameOverhead, int64WalFrameHeaderLen, int64WalCommitLen]; omega)
  have hnone : ∀ e : Int64WriteAheadLogError, failIf False e = .ok () := fun _ => rfl
  by_cases hrecords : saturatingAdd state.expectedSequence 1 > limits.maxRecords
  · rw [replayFrame, failIf_of hrecords]
    exact ⟨_, rfl⟩
  · simp only [replayFrame, frameHeader, hpayload, hfooter, commitMagic_footer, commitSequence_footer hseq, ok_bind,
      failIf_of_not hrecords, ne_eq, not_true, hnone]
    rw [failIf_of hchecksum]
    exact ⟨_, rfl⟩

theorem replayIteration_corrupt (h : Burst start p q) (hne : p ≠ q) (hp : p.length ≤ usizeMax) (hseq : sequence ≤ usizeMax) :
    ∃ e, replayIteration limits (pre ++ (corruptRecord kind sequence p q ++ post)) pre.length state = .error e := by
  have hchecksum : recordChecksum int64WalVersion kind 0 sequence q ≠ recordChecksum int64WalVersion kind 0 sequence p :=
    fun heq => hne (recordChecksum_burst h heq.symm)
  have hlen : (corruptRecord kind sequence p q).length = int64WalFrameOverhead + p.length := by
    simp [corruptRecord, length_recordHeader, int64WalCommitMagic, ascii, int64WalFrameOverhead, int64WalFrameHeaderLen,
      int64WalCommitLen, h.length_eq]
    omega
  obtain ⟨e, hframe⟩ := @replayFrame_corrupt p q limits pre post kind sequence state h.length_eq hchecksum hseq
  have hiteration := @replayIteration_eq limits pre (q ++ (int64WalCommitMagic ++ sizeBytes sequence) ++ post) kind sequence
    p.length (recordChecksum int64WalVersion kind 0 sequence p) state hseq hp
  rw [← List.append_assoc (recordHeader _ _ _ _)] at hiteration
  rw [corruptRecord] at hframe hlen ⊢
  rw [hiteration]
  cases checkFrameHeader limits pre.length state.expectedSequence
    (frameHeader kind sequence p.length (recordChecksum int64WalVersion kind 0 sequence p)) with
  | error e => exact ⟨e, rfl⟩
  | ok u =>
    cases hframeLen : checkedAdd int64WalFrameOverhead p.length with
    | none => exact ⟨_, rfl⟩
    | some frameLen =>
      cases hend : checkedAdd pre.length frameLen with
      | none => simp only [ok_bind, okOr_some, hend]; exact ⟨_, rfl⟩
      | some frameEnd =>
        obtain ⟨-, rfl⟩ := checkedAdd_eq_some.1 hframeLen
        obtain ⟨-, rfl⟩ := checkedAdd_eq_some.1 hend
        have hinside : ¬ pre.length + (int64WalFrameOverhead + p.length) > (pre ++ (recordHeader kind sequence p.length
            (recordChecksum int64WalVersion kind 0 sequence p) ++ (q ++ (int64WalCommitMagic ++ sizeBytes sequence)) ++
            post)).length := by
          rw [List.length_append, List.length_append, hlen]; omega
        simp only [ok_bind, okOr_some, hend, if_neg hinside, hframe]
        exact ⟨e, rfl⟩

end

theorem replay_corrupt {start : Nat} {p q : Bytes} (h : Burst start p q) (hne : p ≠ q) (hp : p.length ≤ usizeMax)
    {limits : Int64WriteAheadLogLimits} {bootstrap : Int64WalBootstrap} {ms : List WalMutation} {w : Int64WriteAheadLog}
    (hw : Written limits bootstrap ms w) {records : List Bytes} (hrecords : logRecords bootstrap ms = some records)
    {k : Nat} {kind : UInt8} {sequence : Nat} (hseq : sequence ≤ usizeMax)
    (hrecord : records[k]? = some (encodeRecord kind sequence p)) :
    ∃ e, replay (overwrite w.file ((records.take k).flatten.length + int64WalFrameHeaderLen) q) limits = .error e := by
  obtain ⟨hk, hget⟩ := List.getElem?_eq_some_iff.1 hrecord
  obtain ⟨state, kind', payload, next, hsplit, hrun, -⟩ := hw.record_at hrecords hk
  obtain ⟨records', hfacts⟩ := hw.facts
  obtain rfl : records' = records := Option.some.inj (hfacts.records_eq.symm.trans hrecords)
  have hfile : w.file = (records'.take k).flatten ++ (encodeRecord kind sequence p ++ (records'.drop (k + 1)).flatten) := by
    rw [hfacts.file, ← hget, ← List.flatten_cons, List.getElem_cons_drop, ← List.flatten_append, List.take_append_drop]
  generalize hpre : (records'.take k).flatten = pre at *
  obtain ⟨e, herror⟩ := @replayIteration_corrupt start p q limits pre (records'.drop (k + 1)).flatten kind sequence state
    h hne hp hseq
  have hscan := hrun.scan_append [] (corruptRecord kind sequence p q ++ (records'.drop (k + 1)).flatten) rfl
  rw [hpre, List.nil_append, Nat.zero_add] at hscan
  have hhead : replayHead limits (pre ++ (corruptRecord kind sequence p q ++ (records'.drop (k + 1)).flatten)) pre.length
      state = .bad e := by
    rw [replayHead, herror]
  refine ⟨e, ?_⟩
  rw [hfile, overwrite_record h.length_eq, replay, replayLoop, hscan, FrameLog.scan_bad _ hhead]
  rfl

/-! ## Main result -/

/-- **Checksums catch every short burst.** Payloads of one length that differ only inside a
window of at most 32 bits have different checksums; an envelope whose payload was changed so
decodes to nothing, and a complete log record stops every replay that comes to it. -/
theorem short_burst_detected {start width : Nat} {p q : Bytes} (hlen : p.length = q.length) (hwidth : width ≤ 32)
    (houtside : ∀ i, i < start ∨ start + width ≤ i → (payloadBits p)[i]? = (payloadBits q)[i]?) (hne : p ≠ q) :
    crc32 p ≠ crc32 q ∧
    (∀ (codec reader : SnapshotCodec) (payload envelope corrupted value : ByteSpan), payload.val = p →
      codec.encode payload = .ok envelope → corrupted.val = overwrite envelope.val snapshotHeaderLen q →
      reader.decode corrupted ≠ .ok value) ∧
    (∀ (limits : Int64WriteAheadLogLimits) (pre post : Bytes) (kind : UInt8) (sequence : Nat) (state : ReplayState),
      p.length ≤ usizeMax → sequence ≤ usizeMax →
      ∃ e, replayIteration limits (overwrite (pre ++ (encodeRecord kind sequence p ++ post))
        (pre.length + int64WalFrameHeaderLen) q) pre.length state = .error e) ∧
    (∀ (limits : Int64WriteAheadLogLimits) (bootstrap : Int64WalBootstrap) (ms : List WalMutation) (w : Int64WriteAheadLog)
      (records : List Bytes) (k : Nat) (kind : UInt8) (sequence : Nat), p.length ≤ usizeMax → sequence ≤ usizeMax →
      Written limits bootstrap ms w → logRecords bootstrap ms = some records →
      records[k]? = some (encodeRecord kind sequence p) →
      ∃ e, replay (overwrite w.file ((records.take k).flatten.length + int64WalFrameHeaderLen) q) limits = .error e) := by
  have h : Burst start p q := ⟨hlen, fun i hi => houtside i (by omega)⟩
  refine ⟨?_, ?_, ?_, ?_⟩
  · intro heq
    exact hne (crc32_burst h heq)
  · intro codec reader payload envelope corrupted value hpayload hencode hcorrupted
    exact decode_burst h hne hpayload hencode hcorrupted value
  · intro limits pre post kind sequence state hp hseq
    rw [overwrite_record hlen]
    exact replayIteration_corrupt h hne hp hseq
  · intro limits bootstrap ms w records k kind sequence hp hseq hw hrecords hrecord
    exact replay_corrupt h hne hp hw hrecords hseq hrecord

/-- The payload of the first append of the sample log. -/
def samplePayload : Bytes :=
  [2, 0, 0, 0, 0, 0, 0, 0, 1, 3, 0, 0, 0, 0, 0, 0, 0, 0, 0, 0, 0, 0, 0, 0, 0, 0]

/-- It differs from the payload in 32 bits, the upper half of byte 7 to the lower half of byte 11. -/
def sampleBurst : Bytes :=
  [2, 0, 0, 0, 0, 0, 0, 0x90, 0xfe, 0xfc, 0xff, 0x09, 0, 0, 0, 0, 0, 0, 0, 0, 0, 0, 0, 0, 0, 0]

theorem sampleBurst_outside (i : Nat) (hi : i < 60 ∨ 60 + 32 ≤ i) :
    (payloadBits samplePayload)[i]? = (payloadBits sampleBurst)[i]? := by
  have hbefore : (payloadBits samplePayload).take 60 = (payloadBits sampleBurst).take 60 := by decide +kernel
  have hafter : (payloadBits samplePayload).drop 92 = (payloadBits sampleBurst).drop 92 := by decide +kernel
  rcases hi with hi | hi
  · have hbit := congrArg (fun bits => bits[i]?) hbefore
    simpa only [List.getElem?_take, hi, if_true] using hbit
  · obtain ⟨k, rfl⟩ := Nat.exists_eq_add_of_le hi
    have hbit := congrArg (fun bits => bits[k]?) hafter
    simpa only [List.getElem?_drop] using hbit

/-- The burst is found in the checksum, in a snapshot, in the record of the append and in the whole log. -/
theorem short_burst_detected_sample : crc32 samplePayload ≠ crc32 sampleBurst ∧
    (∃ envelope corrupted : ByteSpan, SnapshotCodec.encode ⟨60⟩ ⟨samplePayload, by decide⟩ = .ok envelope ∧
      corrupted.val = overwrite envelope.val snapshotHeaderLen sampleBurst ∧
      ∀ value, SnapshotCodec.decode ⟨60⟩ corrupted ≠ .ok value) ∧
    (∃ e, replayIteration sampleLimits
      (overwrite ([] ++ (encodeRecord nullableAppendKind 1 samplePayload ++ [])) 32 sampleBurst) 0
      { expectedSequence := 1, bootstrap := some sampleBootstrap } = .error e) ∧
    ∃ w, Written sampleLimits sampleBootstrap sampleMutations w ∧
      ∃ e, replay (overwrite w.file (235 + 32) sampleBurst) sampleLimits = .error e := by
  obtain ⟨hcrc, hsnapshot, hrecord, hlog⟩ := @short_burst_detected 60 32 samplePayload sampleBurst rfl (by decide)
    sampleBurst_outside (by decide)
  refine ⟨hcrc, ?_, hrecord sampleLimits [] [] nullableAppendKind 1 _ (by decide) (by decide), ?_⟩
  · have hencode : SnapshotCodec.encode ⟨60⟩ ⟨samplePayload, by decide⟩ = .ok ⟨envelopeBytes samplePayload, by decide⟩ :=
      SnapshotCodec.encode_eq_ok.2 ⟨by decide, rfl⟩
    have hfits : (overwrite (envelopeBytes samplePayload) snapshotHeaderLen sampleBurst).length ≤ isizeMax := by decide
    exact ⟨_, ⟨_, hfits⟩, hencode, rfl, fun value => hsnapshot _ _ _ _ ⟨_, hfits⟩ value rfl hencode rfl⟩
  · obtain ⟨w, hw, -⟩ := sample_written
    have hrecords : (logRecords sampleBootstrap sampleMutations).map (fun records =>
        (records[1]?, (records.take 1).flatten.length)) =
        some (some (encodeRecord nullableAppendKind 1 samplePayload), 235) := by decide +kernel
    obtain ⟨records, hrecords, hfirst⟩ := Option.map_eq_some_iff.1 hrecords
    obtain ⟨hfirst, hlength⟩ := Prod.mk.inj hfirst
    have hreplay := hlog sampleLimits sampleBootstrap sampleMutations w records 1 nullableAppendKind 1 (by decide)
      (by decide) hw hrecords hfirst
    rw [hlength] at hreplay
    exact ⟨w, hw, hreplay⟩

-- Counted from the highest bit of each byte, these differ in a window of 31 bits.
example : crc32 [0, 0, 0, 0, 0] = crc32 [10, 30, 233, 213, 224] := by decide

end RustHouse
