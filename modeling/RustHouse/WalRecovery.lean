import RustHouse.WalWriter

/-!
# Recovery from a write-ahead log

Replay of a log, of any prefix of it, and of a log with a corrupt header
length. Each committed record is a frame of the replay loop: it is found
whatever follows it, and every proper prefix of it is a torn tail.
-/

namespace RustHouse

open Checked Words

/-! ## Record headers -/

def frameHeader (kind : UInt8) (sequence declared : Nat) (checksum : UInt32) : FrameHeader :=
  { magic := int64WalMagic, version := int64WalVersion, kind, reserved := 0, sequence, payloadLen := declared, checksum }

theorem length_recordHeader (kind : UInt8) (sequence declared : Nat) (checksum : UInt32) :
    (recordHeader kind sequence declared checksum).length = 32 := by
  simp [recordHeader, int64WalMagic, ascii]

theorem readFrameHeader_recordHeader {kind : UInt8} {sequence declared : Nat} {checksum : UInt32}
    (hseq : sequence ≤ usizeMax) (hdecl : declared ≤ usizeMax) :
    readFrameHeader (recordHeader kind sequence declared checksum) = frameHeader kind sequence declared checksum := by
  have hmagic : readArray 8 (recordHeader kind sequence declared checksum) 0 = int64WalMagic :=
    readArray_eq (a := []) (by simp only [recordHeader, List.append_assoc, List.nil_append]; rfl) rfl rfl
  have hversion : readArray 2 (recordHeader kind sequence declared checksum) 8 = u16Bytes int64WalVersion :=
    readArray_eq (a := int64WalMagic) (by simp only [recordHeader, List.append_assoc]; rfl) rfl rfl
  have hkind : (recordHeader kind sequence declared checksum)[10]? = some kind :=
    getElem?_of_eq (a := int64WalMagic ++ u16Bytes int64WalVersion)
      (by simp only [recordHeader, List.append_assoc, List.cons_append]; rfl) rfl
  have hreserved : (recordHeader kind sequence declared checksum)[11]? = some 0 :=
    getElem?_of_eq (a := int64WalMagic ++ (u16Bytes int64WalVersion ++ [kind]))
      (by simp only [recordHeader, List.append_assoc, List.cons_append, List.nil_append]; rfl) rfl
  have hsequence : readArray 8 (recordHeader kind sequence declared checksum) 12 = sizeBytes sequence :=
    readArray_eq (a := int64WalMagic ++ (u16Bytes int64WalVersion ++ ([kind] ++ [0])))
      (by simp only [recordHeader, List.append_assoc]; rfl) rfl (length_sizeBytes _)
  have hlen : readArray 8 (recordHeader kind sequence declared checksum) 20 = sizeBytes declared :=
    readArray_eq (a := int64WalMagic ++ (u16Bytes int64WalVersion ++ ([kind] ++ ([0] ++ sizeBytes sequence))))
      (by simp only [recordHeader, List.append_assoc]; rfl) (by simp [int64WalMagic, ascii]) (length_sizeBytes _)
  have hchecksum : readArray 4 (recordHeader kind sequence declared checksum) 28 = u32Bytes checksum :=
    readArray_eq (b := []) (a := int64WalMagic ++ (u16Bytes int64WalVersion ++ ([kind] ++ ([0] ++ (sizeBytes sequence ++
      sizeBytes declared))))) (by simp only [recordHeader, List.append_assoc, List.append_nil])
      (by simp [int64WalMagic, ascii]) (length_u32Bytes _)
  rw [readFrameHeader, hmagic, hversion, hsequence, hlen, hchecksum, List.getD_eq_getElem?_getD,
    List.getD_eq_getElem?_getD, hkind, hreserved, ofLeBytes_sizeBytes hseq, ofLeBytes_sizeBytes hdecl,
    u16OfBytes_u16Bytes, u32OfBytes_u32Bytes]
  rfl

theorem checkFrameHeader_frameHeader {limits : Int64WriteAheadLogLimits} {offset : Nat} {kind : UInt8}
    {sequence declared : Nat} {checksum : UInt32} (h : declared ≤ limits.maxRecordBytes) :
    checkFrameHeader limits offset sequence (frameHeader kind sequence declared checksum) = .ok () := by
  simp [checkFrameHeader, frameHeader, failIf, h]

theorem replayIteration_eq {limits : Int64WriteAheadLogLimits} {pre rest : Bytes} {kind : UInt8} {sequence declared : Nat}
    {checksum : UInt32} {state : ReplayState} (hseq : sequence ≤ usizeMax) (hdecl : declared ≤ usizeMax) :
    replayIteration limits (pre ++ (recordHeader kind sequence declared checksum ++ rest)) pre.length state =
      (checkFrameHeader limits pre.length state.expectedSequence (frameHeader kind sequence declared checksum) >>= fun _ =>
      okOr (checkedAdd int64WalFrameOverhead declared) (.limit (.fileBytes usizeMax limits.maxFileBytes)) >>= fun frameLen =>
      okOr (checkedAdd pre.length frameLen) (.limit (.fileBytes usizeMax limits.maxFileBytes)) >>= fun frameEnd =>
      if frameEnd > (pre ++ (recordHeader kind sequence declared checksum ++ rest)).length then
        match authenticatedPayloadLen (pre ++ (recordHeader kind sequence declared checksum ++ rest)) pre.length
          (frameHeader kind sequence declared checksum) limits.maxRecordBytes with
        | some committed => .error (.corruption (.payloadLength sequence declared committed))
        | none => .ok none
      else
        replayFrame limits (pre ++ (recordHeader kind sequence declared checksum ++ rest)) pre.length frameEnd
          (frameHeader kind sequence declared checksum) state >>= fun next => .ok (some (frameEnd, next))) := by
  have hheader : readArray int64WalFrameHeaderLen (pre ++ (recordHeader kind sequence declared checksum ++ rest))
      pre.length = recordHeader kind sequence declared checksum :=
    readArray_eq rfl rfl (length_recordHeader _ _ _ _)
  have hlong : ¬ ((pre ++ (recordHeader kind sequence declared checksum ++ rest)).length - pre.length) <
      int64WalFrameHeaderLen := by
    simp [length_recordHeader, int64WalFrameHeaderLen]
  rw [replayIteration, if_neg hlong, hheader, readFrameHeader_recordHeader hseq hdecl]
  rfl

theorem commitMagic_footer (sequence : Nat) :
    readArray 8 (int64WalCommitMagic ++ sizeBytes sequence) 0 = int64WalCommitMagic :=
  readArray_eq (a := []) rfl rfl rfl

theorem commitSequence_footer {sequence : Nat} (h : sequence ≤ usizeMax) :
    ofLeBytes (readArray 8 (int64WalCommitMagic ++ sizeBytes sequence) 8) = sequence := by
  rw [readArray_eq (o := 8) (a := int64WalCommitMagic) (b := []) (by rw [List.append_nil]) rfl (length_sizeBytes _),
    ofLeBytes_sizeBytes h]

/-! ## Committed records -/

/-- A record as the replay loop needs it: `payload` is what `kind` says of its
own length, and applying it to the state's bootstrap gives `next`. -/
structure Replayable (limits : Int64WriteAheadLogLimits) (offset : Nat) (state : ReplayState) (kind : UInt8)
    (payload : Bytes) (next : Int64WalBootstrap) : Prop where
  fits : RecordFits limits payload.length offset state.expectedSequence
  sequence : state.expectedSequence ≤ usizeMax
  derived : ∀ tail, encodedPayloadLen kind (payload ++ tail) = some payload.length
  applies : applyRecord kind state.expectedSequence payload state.bootstrap = .ok next

section
variable {limits : Int64WriteAheadLogLimits} {kind : UInt8} {payload pre : Bytes} {state : ReplayState}
  {next : Int64WalBootstrap}

def declaredRecord (kind : UInt8) (sequence declared : Nat) (payload : Bytes) : Bytes :=
  recordHeader kind sequence declared (recordChecksum int64WalVersion kind 0 sequence payload) ++
    (payload ++ (int64WalCommitMagic ++ sizeBytes sequence))

theorem encodeRecord_eq (kind : UInt8) (sequence : Nat) (payload : Bytes) :
    encodeRecord kind sequence payload = declaredRecord kind sequence payload.length payload := by
  simp only [encodeRecord, encodeRecordParts, declaredRecord, List.append_assoc]

theorem replayFrame_record (h : Replayable limits pre.length state kind payload next) (post : Bytes) :
    replayFrame limits (pre ++ (declaredRecord kind state.expectedSequence payload.length payload ++ post)) pre.length
      (pre.length + (int64WalFrameOverhead + payload.length))
      (frameHeader kind state.expectedSequence payload.length
        (recordChecksum int64WalVersion kind 0 state.expectedSequence payload)) state =
      .ok { expectedSequence := state.expectedSequence + 1, bootstrap := some next } := by
  generalize hcrc : recordChecksum int64WalVersion kind 0 state.expectedSequence payload = crc
  have hpayload : readArray payload.length
      (pre ++ (declaredRecord kind state.expectedSequence payload.length payload ++ post))
      (pre.length + int64WalFrameHeaderLen) = payload :=
    readArray_eq (a := pre ++ recordHeader kind state.expectedSequence payload.length
        (recordChecksum int64WalVersion kind 0 state.expectedSequence payload))
      (by simp only [declaredRecord, List.append_assoc]; rfl) (by simp [length_recordHeader, int64WalFrameHeaderLen]) rfl
  have hfooter : readArray (pre.length + (int64WalFrameOverhead + payload.length) -
        (pre.length + int64WalFrameHeaderLen + payload.length))
      (pre ++ (declaredRecord kind state.expectedSequence payload.length payload ++ post))
      (pre.length + int64WalFrameHeaderLen + payload.length) =
      int64WalCommitMagic ++ sizeBytes state.expectedSequence :=
    readArray_eq (a := pre ++ (recordHeader kind state.expectedSequence payload.length
        (recordChecksum int64WalVersion kind 0 state.expectedSequence payload) ++ payload))
      (b := post)
      (by simp only [declaredRecord, List.append_assoc])
      (by simp [length_recordHeader, int64WalFrameHeaderLen]; omega)
      (by simp [int64WalCommitMagic, ascii, int64WalFrameOverhead, int64WalFrameHeaderLen, int64WalCommitLen]; omega)
  have happly : applyRecord kind state.expectedSequence payload state.bootstrap = .ok next := h.applies
  have hnone : ∀ e : Int64WriteAheadLogError, failIf False e = .ok () := fun _ => rfl
  simp only [replayFrame, frameHeader, hpayload, hfooter, commitMagic_footer, commitSequence_footer h.sequence, hcrc, happly, ok_bind,
    failIf_of_not (Nat.not_lt.2 h.fits.maxRecords), ne_eq, not_true, hnone]

theorem authenticatedPayloadLen_torn (header : FrameHeader) {head p : Bytes} (hhead : head.length = 32)
    (hkind : header.kind = kind) (h : Replayable limits pre.length state kind payload next)
    (hp : p <+: payload ++ (int64WalCommitMagic ++ sizeBytes state.expectedSequence))
    (hshort : p.length < payload.length + 16) :
    authenticatedPayloadLen (pre ++ (head ++ p)) pre.length header limits.maxRecordBytes = none := by
  have hmax := h.fits.representable
  unfold int64WalFrameOverhead int64WalFrameHeaderLen int64WalCommitLen at hmax
  have hstart : checkedAdd pre.length int64WalFrameHeaderLen = some (pre.length + 32) :=
    checkedAdd_of_le (by unfold int64WalFrameHeaderLen; omega)
  have havailable : slice (pre ++ (head ++ p)) (pre.length + 32) (pre ++ (head ++ p)).length = some p := by
    have := slice_append (pre ++ head) p []
    simpa [hhead, Nat.add_assoc] using this
  rw [authenticatedPayloadLen, hstart]
  simp only [Option.bind_eq_bind, Option.bind_some, havailable, hkind]
  cases hderived : encodedPayloadLen kind p with
  | none => rfl
  | some n =>
    have hn : n = payload.length := by
      have := encodedPayloadLen_prefix hp hderived
      rw [h.derived] at this
      exact (Option.some.inj this).symm
    subst hn
    have hslice : slice (pre ++ (head ++ p)) (pre.length + 32 + payload.length)
        (pre.length + 32 + payload.length + 16) = none :=
      slice_eq_none (by simp [hhead]; omega)
    have hfooterStart := checkedAdd_of_le (show pre.length + 32 + payload.length ≤ usizeMax by omega)
    have hfooterEnd := checkedAdd_of_le (show pre.length + 32 + payload.length + 16 ≤ usizeMax by omega)
    simp only [Option.bind_some]
    split
    · rfl
    · simp only [hfooterStart, Option.bind_some, int64WalCommitLen, hfooterEnd, hslice]
      rfl

theorem authenticatedPayloadLen_record (h : Replayable limits pre.length state kind payload next) (declared : Nat)
    (post : Bytes) :
    authenticatedPayloadLen (pre ++ (declaredRecord kind state.expectedSequence declared payload ++ post)) pre.length
      (frameHeader kind state.expectedSequence declared
        (recordChecksum int64WalVersion kind 0 state.expectedSequence payload)) limits.maxRecordBytes =
      some payload.length := by
  generalize hhead : recordHeader kind state.expectedSequence declared
    (recordChecksum int64WalVersion kind 0 state.expectedSequence payload) = head
  have hlen : head.length = 32 := hhead ▸ length_recordHeader _ _ _ _
  have hmax := h.fits.representable
  unfold int64WalFrameOverhead int64WalFrameHeaderLen int64WalCommitLen at hmax
  have hbytes : pre ++ (declaredRecord kind state.expectedSequence declared payload ++ post) =
      pre ++ head ++ (payload ++ (int64WalCommitMagic ++ sizeBytes state.expectedSequence ++ post)) := by
    simp only [declaredRecord, hhead, List.append_assoc]
  have hstart : checkedAdd pre.length int64WalFrameHeaderLen = some (pre.length + 32) :=
    checkedAdd_of_le (by unfold int64WalFrameHeaderLen; omega)
  have havailable : slice (pre ++ head ++ (payload ++ (int64WalCommitMagic ++ sizeBytes state.expectedSequence ++ post)))
      (pre.length + 32)
      (pre ++ head ++ (payload ++ (int64WalCommitMagic ++ sizeBytes state.expectedSequence ++ post))).length =
      some (payload ++ (int64WalCommitMagic ++ sizeBytes state.expectedSequence ++ post)) := by
    have := slice_append (pre ++ head)
      (payload ++ (int64WalCommitMagic ++ sizeBytes state.expectedSequence ++ post)) []
    rw [List.append_nil, List.length_append, hlen] at this
    rw [← this, @List.length_append _ (pre ++ head), List.length_append, hlen]
  have hfooter : slice (pre ++ head ++ (payload ++ (int64WalCommitMagic ++ sizeBytes state.expectedSequence ++ post)))
      (pre.length + 32 + payload.length) (pre.length + 32 + payload.length + 16) =
      some (int64WalCommitMagic ++ sizeBytes state.expectedSequence) := by
    have := slice_append (pre ++ head ++ payload) (int64WalCommitMagic ++ sizeBytes state.expectedSequence) post
    simpa [hlen, int64WalCommitMagic, ascii, Nat.add_assoc] using this
  have hpayload : readArray payload.length
      (pre ++ head ++ (payload ++ (int64WalCommitMagic ++ sizeBytes state.expectedSequence ++ post)))
      (pre.length + 32) = payload :=
    readArray_eq rfl (by simp [hlen]) rfl
  have hfooterStart := checkedAdd_of_le (show pre.length + 32 + payload.length ≤ usizeMax by omega)
  have hfooterEnd := checkedAdd_of_le (show pre.length + 32 + payload.length + 16 ≤ usizeMax by omega)
  rw [hbytes, authenticatedPayloadLen, hstart]
  simp only [Option.bind_eq_bind, Option.bind_some, havailable, frameHeader, h.derived]
  rw [if_neg (Nat.not_lt.2 h.fits.recordBytes)]
  simp only [hfooterStart, Option.bind_some, int64WalCommitLen, hfooterEnd, hfooter, commitMagic_footer,
    commitSequence_footer h.sequence, ne_eq, not_true, or_self, if_false, hpayload, if_true]

theorem replayHead_end (limits : Int64WriteAheadLogLimits) (pre : Bytes) (state : ReplayState) :
    replayHead limits pre pre.length state = .tail := by
  have hshort : pre.length - pre.length < int64WalFrameHeaderLen := by rw [Nat.sub_self]; decide
  rw [replayHead, replayIteration, if_pos hshort]

/-- **A committed record is a frame of the replay loop.** -/
theorem Replayable.frame {offset : Nat} (h : Replayable limits offset state kind payload next) :
    FrameLog.Frame (replayHead limits) offset state (encodeRecord kind state.expectedSequence payload)
      { expectedSequence := state.expectedSequence + 1, bootstrap := some next } := by
  have hlen := length_encodeRecord kind state.expectedSequence payload
  have hmax := h.fits.representable
  have hframe : checkedAdd int64WalFrameOverhead payload.length = some (int64WalFrameOverhead + payload.length) :=
    checkedAdd_of_le (by omega)
  have hiteration := fun pre rest => @replayIteration_eq limits pre rest kind state.expectedSequence payload.length
    (recordChecksum int64WalVersion kind 0 state.expectedSequence payload) state h.sequence (by omega)
  refine ⟨?_, ?_, ?_⟩
  · intro hnil
    rw [hnil] at hlen
    unfold int64WalFrameOverhead int64WalFrameHeaderLen at hlen
    simp at hlen; omega
  · rintro pre post rfl
    have hfit : ¬ pre.length + (int64WalFrameOverhead + payload.length) >
        (pre ++ (declaredRecord kind state.expectedSequence payload.length payload ++ post)).length := by
      rw [← encodeRecord_eq, List.length_append, List.length_append, hlen]; omega
    have hreplay := replayFrame_record h post
    rw [encodeRecord_eq] at hlen ⊢
    rw [List.append_assoc, hlen, replayHead]
    rw [declaredRecord, List.append_assoc] at hfit hreplay ⊢
    rw [hiteration, checkFrameHeader_frameHeader h.fits.recordBytes, ok_bind, hframe, okOr_some, ok_bind,
      checkedAdd_of_le hmax, okOr_some, ok_bind, if_neg hfit, hreplay]
    rfl
  · rintro pre p rfl hp hne
    rw [encodeRecord_eq] at hp hne
    generalize hhead : recordHeader kind state.expectedSequence payload.length
      (recordChecksum int64WalVersion kind 0 state.expectedSequence payload) = head
    have hheadLen : head.length = 32 := hhead ▸ length_recordHeader _ _ _ _
    rw [declaredRecord, hhead] at hp hne
    rw [replayHead]
    by_cases hshort : p.length < 32
    · have htail : (pre ++ p).length - pre.length < int64WalFrameHeaderLen := by
        simpa [int64WalFrameHeaderLen] using hshort
      rw [replayIteration, if_pos htail]
    · obtain ⟨p', rfl⟩ : head <+: p := List.prefix_of_prefix_length_le (List.prefix_append _ _) hp (by omega)
      have hp' := (List.prefix_append_right_inj head).1 hp
      have hlt : p'.length < payload.length + 16 := by
        have hle := hp'.length_le
        have hfull : (payload ++ (int64WalCommitMagic ++ sizeBytes state.expectedSequence)).length =
            payload.length + 16 := by simp [int64WalCommitMagic, ascii]
        rcases Nat.lt_or_ge p'.length (payload.length + 16) with h' | h'
        · exact h'
        · exact absurd (congrArg (head ++ ·) (hp'.eq_of_length (by omega))) hne
      have hcut : pre.length + (int64WalFrameOverhead + payload.length) > (pre ++ (head ++ p')).length := by
        simp [hheadLen, int64WalFrameOverhead, int64WalFrameHeaderLen, int64WalCommitLen]; omega
      have htorn := authenticatedPayloadLen_torn (frameHeader kind state.expectedSequence payload.length
        (recordChecksum int64WalVersion kind 0 state.expectedSequence payload)) hheadLen rfl h hp' hlt
      rw [← hhead] at hcut htorn ⊢
      rw [hiteration, checkFrameHeader_frameHeader h.fits.recordBytes, ok_bind, hframe, okOr_some, ok_bind,
        checkedAdd_of_le hmax, okOr_some, ok_bind, if_pos hcut, htorn]

end

/-! ## Logs of a writer -/

/-- The records of mutations that were logged from `sequence` on. -/
def mutationRecords (nullable : Bool) : Nat → List WalMutation → Option (List Bytes)
  | _, [] => some []
  | sequence, m :: ms => do
    let payload ← m.payload nullable
    let records ← mutationRecords nullable (sequence + 1) ms
    some (encodeRecord (m.kind nullable) sequence payload :: records)

def logRecords (bootstrap : Int64WalBootstrap) (ms : List WalMutation) : Option (List Bytes) := do
  let payload ← encodeBootstrap bootstrap
  let records ← mutationRecords bootstrap.nullable 1 ms
  some (encodeRecord bootstrapKind 0 payload :: records)

def rowsAfter (values : List (Option Int64)) (ms : List WalMutation) : List (Option Int64) :=
  ms.foldl WalMutation.applyTo values

def stateAfter (bootstrap : Int64WalBootstrap) (ms : List WalMutation) : ReplayState :=
  { expectedSequence := 1 + ms.length
    bootstrap := some { bootstrap with values := rowsAfter bootstrap.values ms } }

inductive Written (limits : Int64WriteAheadLogLimits) (bootstrap : Int64WalBootstrap) :
    List WalMutation → Int64WriteAheadLog → Prop
  | created {io : Int64WriteAheadLog.CreateIo} {w : Int64WriteAheadLog} : bootstrap.WellFormed →
      Int64WriteAheadLog.createInDirectory io bootstrap limits = some (.ok w) → Written limits bootstrap [] w
  | logged {io : CommitIo} {ms : List WalMutation} {m : WalMutation} {w w' : Int64WriteAheadLog} :
      Written limits bootstrap ms w → m.Admissible bootstrap.tableLimits (rowsAfter bootstrap.values ms).length →
      w.log io m = some (w', .ok ()) → Written limits bootstrap (ms ++ [m]) w'

section
variable {limits : Int64WriteAheadLogLimits} {bootstrap : Int64WalBootstrap} {ms : List WalMutation}
  {w w' : Int64WriteAheadLog}

theorem mutationRecords_snoc {nullable : Bool} {m : WalMutation} {payload : Bytes}
    (hp : m.payload nullable = some payload) : ∀ {ms : List WalMutation} {sequence : Nat} {records : List Bytes},
      mutationRecords nullable sequence ms = some records → mutationRecords nullable sequence (ms ++ [m]) =
        some (records ++ [encodeRecord (m.kind nullable) (sequence + ms.length) payload])
  | [], sequence, records, h => by
    obtain rfl := Option.some.inj h
    simp [mutationRecords, hp]
  | m' :: ms, sequence, records, h => by
    obtain ⟨payload', hp', h⟩ := Option.bind_eq_some_iff.1 h
    obtain ⟨records', hrec, h⟩ := Option.bind_eq_some_iff.1 h
    obtain rfl := Option.some.inj h
    have ih := mutationRecords_snoc hp hrec
    simp [mutationRecords, hp', ih, Nat.add_comm, Nat.add_left_comm]

theorem mutationRecords_take {nullable : Bool} (k : Nat) : ∀ {ms : List WalMutation} {sequence : Nat}
    {records : List Bytes}, mutationRecords nullable sequence ms = some records →
      mutationRecords nullable sequence (ms.take k) = some (records.take k) := by
  induction k with
  | zero => intro ms sequence records _; rfl
  | succ k ih =>
    intro ms sequence records h
    cases ms with
    | nil => obtain rfl := Option.some.inj h; rfl
    | cons m ms =>
      obtain ⟨payload, hp, h⟩ := Option.bind_eq_some_iff.1 h
      obtain ⟨records', hrec, h⟩ := Option.bind_eq_some_iff.1 h
      obtain rfl := Option.some.inj h
      simp [mutationRecords, hp, ih hrec]

/-- What is known of a writer and its file while every call commits. -/
structure LogFacts (limits : Int64WriteAheadLogLimits) (bootstrap : Int64WalBootstrap) (ms : List WalMutation)
    (w : Int64WriteAheadLog) (records : List Bytes) : Prop where
  records_eq : logRecords bootstrap ms = some records
  file : w.file = records.flatten
  fileBytes : w.fileBytes = w.file.length
  count : w.records = 1 + ms.length
  count_le : w.records ≤ w.fileBytes
  representable : w.fileBytes ≤ usizeMax
  limits_eq : w.limits = limits
  nullable : w.nullable = bootstrap.nullable
  poisoned : w.poisoned = false
  rows : (rowsAfter bootstrap.values ms).length ≤ bootstrap.tableLimits.1.toNat
  run : FrameLog.Run (replayHead limits) 0 { expectedSequence := 0, bootstrap := none } records (stateAfter bootstrap ms)

theorem le_usizeMax_of_le {n : Nat} {limit : UInt64} (h : n ≤ limit.toNat) : n ≤ usizeMax := by
  have := limit.toNat_lt
  unfold usizeMax; omega

theorem length_applyTo_le {values : List (Option Int64)} {m : WalMutation} {tableLimits : UInt64 × UInt64 × UInt64}
    (hrows : values.length ≤ tableLimits.1.toNat) (hadm : m.Admissible tableLimits values.length) :
    (m.applyTo values).length ≤ tableLimits.1.toNat := by
  cases m with
  | append appended => simpa [WalMutation.applyTo] using hadm.1
  | truncate => exact Nat.zero_le _
  | replace replacements => simpa [WalMutation.applyTo, WalMutation.replaceRows] using hrows

theorem replayable_bootstrap {payload : Bytes} (hwf : bootstrap.WellFormed)
    (hpayload : encodeBootstrap bootstrap = some payload) (hfits : RecordFits limits payload.length 0 0) :
    Replayable limits 0 { expectedSequence := 0, bootstrap := none } bootstrapKind payload bootstrap where
  fits := hfits
  sequence := Nat.zero_le _
  derived := encodedPayloadLen_bootstrap hpayload
  applies := decodeBootstrap_encode hwf hpayload 0

theorem LogFacts.replayable {records : List Bytes} {m : WalMutation} {payload : Bytes}
    (h : LogFacts limits bootstrap ms w records) (hpayload : m.payload bootstrap.nullable = some payload)
    (hfits : RecordFits limits payload.length w.fileBytes w.records)
    (hadm : m.Admissible bootstrap.tableLimits (rowsAfter bootstrap.values ms).length) :
    Replayable limits w.file.length (stateAfter bootstrap ms) (m.kind bootstrap.nullable) payload
      { bootstrap with values := rowsAfter bootstrap.values (ms ++ [m]) } := by
  have hmax := hfits.representable
  refine ⟨?_, ?_, fun tail => encodedPayloadLen_payload hpayload (by omega) tail, ?_⟩
  · rw [← h.fileBytes, show (stateAfter bootstrap ms).expectedSequence = w.records from h.count.symm]
    exact hfits
  · have := h.count_le
    have := h.representable
    rw [show (stateAfter bootstrap ms).expectedSequence = w.records from h.count.symm]
    omega
  · have happly := applyRecord_payload { bootstrap with values := rowsAfter bootstrap.values ms }
      hpayload (by omega) (le_usizeMax_of_le h.rows) hadm (1 + ms.length)
    rw [rowsAfter, List.foldl_append]
    exact happly

theorem LogFacts.created {payload : Bytes} {name : String} (hwf : bootstrap.WellFormed)
    (hpayload : encodeBootstrap bootstrap = some payload) (hfits : RecordFits limits payload.length 0 0) :
    LogFacts limits bootstrap []
      { file := encodeRecord bootstrapKind 0 payload, normalizedTableName := name, nullable := bootstrap.nullable, limits,
        fileBytes := int64WalFrameOverhead + payload.length, records := 1, poisoned := false }
      [encodeRecord bootstrapKind 0 payload] where
  records_eq := by simp [logRecords, hpayload, mutationRecords]
  file := by simp
  fileBytes := (length_encodeRecord bootstrapKind 0 payload).symm
  count := rfl
  count_le := by
    have hoverhead : 1 ≤ int64WalFrameOverhead := by decide
    simp only; omega
  representable := by
    have := hfits.representable
    simp only; omega
  limits_eq := rfl
  nullable := rfl
  poisoned := rfl
  rows := hwf.rowCap
  run := .cons (replayable_bootstrap hwf hpayload hfits).frame (.nil _ _)

theorem LogFacts.logged {records : List Bytes} {m : WalMutation} {payload : Bytes}
    (h : LogFacts limits bootstrap ms w records) (hpayload : m.payload bootstrap.nullable = some payload)
    (hfits : RecordFits limits payload.length w.fileBytes w.records)
    (hadm : m.Admissible bootstrap.tableLimits (rowsAfter bootstrap.values ms).length) :
    LogFacts limits bootstrap (ms ++ [m]) (w.committed (m.kind bootstrap.nullable) payload)
      (records ++ [encodeRecord (m.kind bootstrap.nullable) w.records payload]) where
  records_eq := by
    obtain ⟨first, hfirst, hrec⟩ := Option.bind_eq_some_iff.1 h.records_eq
    obtain ⟨rest, hrest, hrec⟩ := Option.bind_eq_some_iff.1 hrec
    obtain rfl := Option.some.inj hrec
    simp [logRecords, hfirst, mutationRecords_snoc hpayload hrest, h.count]
  file := by simp [Int64WriteAheadLog.committed, h.file]
  fileBytes := by simp [Int64WriteAheadLog.committed, length_encodeRecord, h.fileBytes]
  count := by simp [Int64WriteAheadLog.committed, h.count, Nat.add_assoc]
  count_le := by
    have := h.count_le
    have hoverhead : 1 ≤ int64WalFrameOverhead := by decide
    simp only [Int64WriteAheadLog.committed]; omega
  representable := hfits.representable
  limits_eq := h.limits_eq
  nullable := h.nullable
  poisoned := h.poisoned
  rows := by
    rw [rowsAfter, List.foldl_append]
    exact length_applyTo_le h.rows hadm
  run := by
    have hframe := (h.replayable hpayload hfits hadm).frame
    have hnext : stateAfter bootstrap (ms ++ [m]) = ReplayState.mk ((stateAfter bootstrap ms).expectedSequence + 1)
        (some { bootstrap with values := rowsAfter bootstrap.values (ms ++ [m]) }) := by
      simp [stateAfter, Nat.add_assoc]
    rw [show w.records = (stateAfter bootstrap ms).expectedSequence from h.count, hnext]
    refine h.run.append (.cons ?_ (.nil _ _))
    rwa [Nat.zero_add, ← h.file]

theorem Written.facts (h : Written limits bootstrap ms w) : ∃ records, LogFacts limits bootstrap ms w records := by
  induction h with
  | created hwf hcreate =>
    obtain ⟨payload, hpayload, hfits, rfl⟩ := createInDirectory_ok hcreate
    exact ⟨_, LogFacts.created hwf hpayload hfits⟩
  | @logged io ms m w w' _ hadm hlog ih =>
    obtain ⟨records, hfacts⟩ := ih
    have houtcome := log_cases hlog
    rw [hfacts.nullable] at houtcome
    cases houtcome with
    | committed payload hpayload hp hfits =>
      rw [hfacts.limits_eq] at hfits
      exact ⟨_, hfacts.logged hpayload hfits hadm⟩

end

/-! ## A sample log -/

def sampleLimits : Int64WriteAheadLogLimits := { maxFileBytes := 4096, maxRecordBytes := 1024, maxRecords := 8 }

def sampleBootstrap : Int64WalBootstrap :=
  { tableName := "Events", columnName := "Id", tableLimits := (10, 1, 10), databaseTableLimits := (10, 1, 10),
    queryLimits := ⟨List.replicate 10 100, rfl⟩, workerCap := 2, nullable := true, values := [some 7, none] }

def sampleMutations : List WalMutation :=
  [.append [some 3, none], .replace [(0, none), (3, some 5)], .truncate, .append [some (-1)]]

theorem sampleBootstrap_wellFormed : sampleBootstrap.WellFormed := by
  constructor <;> decide

theorem sample_written : ∃ w, Written sampleLimits sampleBootstrap sampleMutations w ∧ w.file.length = 512 := by
  have hcreate := @createInDirectory_accepts sampleBootstrap sampleLimits _ rfl
    ⟨by decide +kernel, by decide, by decide +kernel, by decide +kernel⟩
  have h₀ := Written.created sampleBootstrap_wellFormed hcreate
  have h₁ := h₀.logged (m := .append [some 3, none]) (by decide +kernel)
    (log_accepts rfl rfl ⟨by decide +kernel, by decide, by decide +kernel, by decide +kernel⟩)
  have h₂ := h₁.logged (m := .replace [(0, none), (3, some 5)]) (by decide +kernel)
    (log_accepts rfl rfl ⟨by decide +kernel, by decide, by decide +kernel, by decide +kernel⟩)
  have h₃ := h₂.logged (m := .truncate) (by decide +kernel)
    (log_accepts rfl rfl ⟨by decide +kernel, by decide, by decide +kernel, by decide +kernel⟩)
  have h₄ := h₃.logged (m := .append [some (-1)]) (by decide +kernel)
    (log_accepts rfl rfl ⟨by decide +kernel, by decide, by decide +kernel, by decide +kernel⟩)
  obtain ⟨_, hfacts⟩ := h₄.facts
  exact ⟨_, h₄, hfacts.fileBytes.symm.trans (by decide +kernel)⟩

theorem sample_logRecords : ∃ first rest, logRecords sampleBootstrap sampleMutations = some (first :: rest) ∧
    first.length = 235 ∧ rest.map List.length = [74, 90, 48, 65] := by
  have hlengths : (logRecords sampleBootstrap sampleMutations).map (List.map List.length) =
      some [235, 74, 90, 48, 65] := by decide +kernel
  obtain ⟨records, hrecords, hlengths⟩ := Option.map_eq_some_iff.1 hlengths
  cases records with
  | nil => cases hlengths
  | cons first rest =>
    obtain ⟨hfirst, hrest⟩ := List.cons.inj hlengths
    exact ⟨first, rest, hrecords, hfirst, hrest⟩

/-! ## Recovery -/

section
variable {limits : Int64WriteAheadLogLimits} {bootstrap : Int64WalBootstrap} {ms : List WalMutation}
  {w w' : Int64WriteAheadLog}


theorem logRecords_take {records : List Bytes} (h : logRecords bootstrap ms = some records) (k : Nat) :
    logRecords bootstrap (ms.take k) = some (records.take (k + 1)) := by
  obtain ⟨first, hfirst, h⟩ := Option.bind_eq_some_iff.1 h
  obtain ⟨rest, hrest, h⟩ := Option.bind_eq_some_iff.1 h
  obtain rfl := Option.some.inj h
  simp [logRecords, hfirst, mutationRecords_take k hrest]

theorem length_mutationRecords {nullable : Bool} : ∀ {ms : List WalMutation} {sequence : Nat} {records : List Bytes},
    mutationRecords nullable sequence ms = some records → records.length = ms.length
  | [], sequence, records, h => by obtain rfl := Option.some.inj h; rfl
  | m :: ms, sequence, records, h => by
    obtain ⟨payload, hp, h⟩ := Option.bind_eq_some_iff.1 h
    obtain ⟨records', hrec, h⟩ := Option.bind_eq_some_iff.1 h
    obtain rfl := Option.some.inj h
    rw [List.length_cons, List.length_cons, length_mutationRecords hrec]

theorem length_logRecords {records : List Bytes} (h : logRecords bootstrap ms = some records) :
    records.length = ms.length + 1 := by
  obtain ⟨first, hfirst, h⟩ := Option.bind_eq_some_iff.1 h
  obtain ⟨rest, hrest, h⟩ := Option.bind_eq_some_iff.1 h
  obtain rfl := Option.some.inj h
  rw [List.length_cons, length_mutationRecords hrest]

theorem Written.take (h : Written limits bootstrap ms w) : ∀ k, ∃ w', Written limits bootstrap (ms.take k) w' := by
  induction h with
  | created hwf hcreate => intro k; exact ⟨_, by simpa using Written.created hwf hcreate⟩
  | @logged io ms m w w' hw hadm hlog ih =>
    intro k
    rcases Nat.lt_or_ge ms.length k with hk | hk
    · rw [List.take_of_length_le (by simp; omega)]
      exact ⟨_, .logged hw hadm hlog⟩
    · rw [List.take_append_of_le_length hk]
      exact ih k

theorem replay_of_loop {bytes : Bytes} {n : Nat} (hloop : replayLoop bytes limits = .ok (n, stateAfter bootstrap ms))
    (hcount : 1 + ms.length ≤ usizeMax) : replay bytes limits =
      .ok { bootstrap := { bootstrap with values := rowsAfter bootstrap.values ms }, fileBytes := bytes.length,
            records := 1 + ms.length } := by
  rw [replay, hloop, ok_bind]
  simp [stateAfter, requireBootstrap, Nat.min_eq_left hcount]

/-- **Replay is the mutation history.** -/
theorem replay_written (h : Written limits bootstrap ms w) :
    (∃ records, logRecords bootstrap ms = some records ∧ w.file = records.flatten) ∧
    replay w.file limits =
      .ok { bootstrap := { bootstrap with values := rowsAfter bootstrap.values ms }, fileBytes := w.file.length,
            records := 1 + ms.length } := by
  obtain ⟨records, hfacts⟩ := h.facts
  refine ⟨⟨records, hfacts.records_eq, hfacts.file⟩, ?_⟩
  have hscan := hfacts.run.scan_append [] [] rfl
  rw [List.nil_append, List.append_nil, Nat.zero_add, ← hfacts.file] at hscan
  apply replay_of_loop (n := w.file.length)
  · rw [replayLoop, hscan]
    exact FrameLog.scan_tail _ (replayHead_end limits w.file _)
  · have := hfacts.count_le
    have := hfacts.representable
    have := hfacts.count
    omega

theorem replay_written_sample : ∃ w, Written sampleLimits sampleBootstrap sampleMutations w ∧
    (∃ records, logRecords sampleBootstrap sampleMutations = some records ∧ w.file = records.flatten) ∧
    replay w.file sampleLimits =
      .ok { bootstrap := { sampleBootstrap with values := [some (-1)] }, fileBytes := w.file.length, records := 5 } := by
  obtain ⟨w, hw, -⟩ := sample_written
  exact ⟨w, hw, replay_written hw⟩

theorem replayLoop_take (h : Written limits bootstrap ms w) {first : Bytes} {rest : List Bytes}
    (hrecords : logRecords bootstrap ms = some (first :: rest)) {n : Nat} (hn : first.length ≤ n) :
    let kept := FrameLog.whole (n - first.length) rest
    replayLoop (w.file.take n) limits =
      .ok (first.length + kept.flatten.length, stateAfter bootstrap (ms.take kept.length)) ∧
    (ms.take kept.length).length = kept.length ∧ 1 + kept.length ≤ usizeMax := by
  intro kept
  obtain ⟨records, hfacts⟩ := h.facts
  obtain rfl : records = first :: rest := Option.some.inj (hfacts.records_eq.symm.trans hrecords)
  have hkept : kept = rest.take kept.length := FrameLog.whole_eq_take _ _
  have hwhole : FrameLog.whole n (first :: rest) = first :: kept := by rw [FrameLog.whole, if_pos hn]
  have hlength : (ms.take kept.length).length = kept.length := by
    have hrest := length_logRecords hrecords
    have hle : kept.length ≤ rest.length := (FrameLog.whole_isPrefix _ _).length_le
    rw [List.length_cons] at hrest
    rw [List.length_take]
    exact Nat.min_eq_left (by omega)
  obtain ⟨w', hw'⟩ := h.take kept.length
  obtain ⟨records', hfacts'⟩ := hw'.facts
  have hrecords' : records' = first :: kept := by
    have := hfacts'.records_eq.symm.trans (logRecords_take hrecords kept.length)
    rw [Option.some.inj this, List.take_succ_cons, ← hkept]
  obtain ⟨s₁, hrun, hscan⟩ := hfacts.run.scan_take (replayHead_end limits) (List.length_nil (α := UInt8)) n
  rw [hwhole] at hrun hscan
  rw [hrecords'] at hfacts'
  rw [hrun.deterministic hfacts'.run] at hscan
  refine ⟨by simpa [replayLoop, hfacts.file] using hscan, hlength, ?_⟩
  have := hfacts'.count_le
  have := hfacts'.representable
  have := hfacts'.count
  omega

/-- **Crash-prefix recovery.** A prefix that holds the bootstrap record replays to the
state after the records it holds whole. The loop stops where they end; the reported file
size is that of the prefix. -/
theorem replay_prefix (h : Written limits bootstrap ms w) {first : Bytes} {rest : List Bytes}
    (hrecords : logRecords bootstrap ms = some (first :: rest)) {n : Nat} (hn : first.length ≤ n) :
    let kept := FrameLog.whole (n - first.length) rest
    (∃ state, replayLoop (w.file.take n) limits = .ok (first.length + kept.flatten.length, state)) ∧
    replay (w.file.take n) limits =
      .ok { bootstrap := { bootstrap with values := rowsAfter bootstrap.values (ms.take kept.length) },
            fileBytes := (w.file.take n).length, records := 1 + kept.length } := by
  intro kept
  obtain ⟨hloop, hlength, hcount⟩ := replayLoop_take h hrecords hn
  have hreplay := replay_of_loop hloop (by rw [hlength]; exact hcount)
  rw [hlength] at hreplay
  exact ⟨⟨_, hloop⟩, hreplay⟩

theorem replay_prefix_sample : ∃ w, Written sampleLimits sampleBootstrap sampleMutations w ∧
    ∃ state, replayLoop (w.file.take 400) sampleLimits = .ok (399, state) := by
  obtain ⟨w, hw, -⟩ := sample_written
  obtain ⟨first, rest, hrecords, hfirst, hrest⟩ := sample_logRecords
  obtain ⟨⟨state, hloop⟩, -⟩ := replay_prefix hw hrecords (n := 400) (by omega)
  obtain ⟨a, rest, rfl, ha, hrest⟩ := List.map_eq_cons_iff.1 hrest
  obtain ⟨b, rest, rfl, hb, hrest⟩ := List.map_eq_cons_iff.1 hrest
  obtain ⟨c, rest, rfl, hc, -⟩ := List.map_eq_cons_iff.1 hrest
  have hkept : FrameLog.whole (400 - first.length) (a :: b :: c :: rest) = [a, b] := by
    simp [FrameLog.whole, hfirst, ha, hb, hc]
  rw [hkept, List.flatten_cons, List.flatten_cons, List.flatten_nil] at hloop
  simp only [List.length_append, List.length_nil, hfirst, ha, hb] at hloop
  exact ⟨w, hw, state, hloop⟩

/-- The file size a torn prefix reports is not the end of its last whole record. -/
theorem replay_prefix_fileBytes : ∃ w first rest r, Written sampleLimits sampleBootstrap sampleMutations w ∧
    logRecords sampleBootstrap sampleMutations = some (first :: rest) ∧ first.length = 235 ∧
    replay (w.file.take 236) sampleLimits = .ok r ∧ r.fileBytes = 236 ∧
    first.length + (FrameLog.whole (236 - first.length) rest).flatten.length = 235 := by
  obtain ⟨w, hw, hlen⟩ := sample_written
  obtain ⟨first, rest, hrecords, hfirst, hrest⟩ := sample_logRecords
  obtain ⟨hloop, hlength, hcount⟩ := replayLoop_take hw hrecords (n := 236) (by omega)
  have hreplay := replay_of_loop hloop (by rw [hlength]; exact hcount)
  refine ⟨w, first, rest, _, hw, hrecords, hfirst, hreplay, ?_, ?_⟩
  · simp [hlen]
  · obtain ⟨a, rest, rfl, ha, -⟩ := List.map_eq_cons_iff.1 hrest
    simp [FrameLog.whole, hfirst, ha]

/-! ## Corrupt header lengths -/

/-- The file with `new` written over the bytes at `offset`. -/
def overwrite (bytes : Bytes) (offset : Nat) (new : Bytes) : Bytes :=
  bytes.take offset ++ new ++ bytes.drop (offset + new.length)

theorem overwrite_eq {a old b new : Bytes} {offset : Nat} (ha : a.length = offset) (hlen : old.length = new.length) :
    overwrite (a ++ (old ++ b)) offset new = a ++ (new ++ b) := by
  subst ha
  rw [overwrite, ← hlen, List.take_left, ← List.drop_drop, List.drop_left, List.drop_left, List.append_assoc]

theorem overwrite_declared {pre post payload : Bytes} {kind : UInt8} {sequence : Nat} (declared : UInt64) :
    overwrite (pre ++ (encodeRecord kind sequence payload ++ post)) (pre.length + 20) (u64Bytes declared) =
      pre ++ (declaredRecord kind sequence declared.toNat payload ++ post) := by
  have hsplit : ∀ len, pre ++ (declaredRecord kind sequence len payload ++ post) =
      (pre ++ (int64WalMagic ++ (u16Bytes int64WalVersion ++ ([kind] ++ ([0] ++ sizeBytes sequence))))) ++
        (sizeBytes len ++ (u32Bytes (recordChecksum int64WalVersion kind 0 sequence payload) ++
          (payload ++ (int64WalCommitMagic ++ sizeBytes sequence) ++ post))) := by
    intro len
    simp only [declaredRecord, recordHeader, List.append_assoc]
  rw [encodeRecord_eq, hsplit, hsplit, u64Bytes_eq_sizeBytes]
  exact overwrite_eq (by simp [int64WalMagic, ascii]) (by simp)

theorem replayHead_overlong (post : Bytes) {kind : UInt8} {payload pre : Bytes} {state : ReplayState} {next : Int64WalBootstrap}
    (h : Replayable limits pre.length state kind payload next) {declared : Nat} (hdecl : declared ≤ usizeMax)
    (hover : (pre ++ (declaredRecord kind state.expectedSequence declared payload ++ post)).length <
      pre.length + (int64WalFrameOverhead + declared)) :
    ∃ e, replayHead limits (pre ++ (declaredRecord kind state.expectedSequence declared payload ++ post)) pre.length
      state = .bad e := by
  have hauth := authenticatedPayloadLen_record h declared post
  rw [declaredRecord, List.append_assoc] at hover hauth ⊢
  have hiteration := @replayIteration_eq limits pre (payload ++ (int64WalCommitMagic ++ sizeBytes state.expectedSequence) ++
    post) kind state.expectedSequence declared
    (recordChecksum int64WalVersion kind 0 state.expectedSequence payload) state h.sequence hdecl
  rw [replayHead, hiteration]
  cases checkFrameHeader limits pre.length state.expectedSequence (frameHeader kind state.expectedSequence declared
    (recordChecksum int64WalVersion kind 0 state.expectedSequence payload)) with
  | error e => exact ⟨e, rfl⟩
  | ok u =>
    cases hframe : checkedAdd int64WalFrameOverhead declared with
    | none => exact ⟨_, rfl⟩
    | some frameLen =>
      cases hend : checkedAdd pre.length frameLen with
      | none => simp only [ok_bind, okOr_some, hend]; exact ⟨_, rfl⟩
      | some frameEnd =>
        obtain ⟨-, rfl⟩ := checkedAdd_eq_some.1 hframe
        obtain ⟨-, rfl⟩ := checkedAdd_eq_some.1 hend
        simp only [ok_bind, okOr_some, hend, if_pos hover, hauth]
        exact ⟨_, rfl⟩

theorem Written.bootstrap_fits (h : Written limits bootstrap ms w) : bootstrap.WellFormed ∧
    ∃ payload, encodeBootstrap bootstrap = some payload ∧ RecordFits limits payload.length 0 0 := by
  induction h with
  | created hwf hcreate =>
    obtain ⟨payload, hpayload, hfits, -⟩ := createInDirectory_ok hcreate
    exact ⟨hwf, payload, hpayload, hfits⟩
  | logged _ _ _ ih => exact ih

/-- Every mutation of a log was logged after the ones before it. -/
theorem Written.logged_at (h : Written limits bootstrap ms w) : ∀ {j : Nat} (hj : j < ms.length),
    ∃ wj payload, Written limits bootstrap (ms.take j) wj ∧ ms[j].payload bootstrap.nullable = some payload ∧
      RecordFits limits payload.length wj.fileBytes wj.records ∧
      ms[j].Admissible bootstrap.tableLimits (rowsAfter bootstrap.values (ms.take j)).length := by
  induction h with
  | created hwf hcreate => intro j hj; exact absurd hj (Nat.not_lt_zero _)
  | @logged io ms m w w' hw hadm hlog ih =>
    intro j hj
    rcases Nat.lt_or_ge j ms.length with hlt | hge
    · rw [List.take_append_of_le_length (by omega), List.getElem_append_left hlt]
      exact ih hlt
    · obtain rfl : j = ms.length := by simp at hj; omega
      obtain ⟨records, hfacts⟩ := hw.facts
      have houtcome := log_cases hlog
      rw [hfacts.nullable] at houtcome
      cases houtcome with
      | committed payload hpayload _ hfits =>
        rw [hfacts.limits_eq] at hfits
        simp only [List.take_left', List.getElem_concat_length]
        exact ⟨w, payload, hw, hpayload, hfits, hadm⟩

theorem Written.record_at (h : Written limits bootstrap ms w) {records : List Bytes}
    (hrecords : logRecords bootstrap ms = some records) {k : Nat} (hk : k < records.length) :
    ∃ state kind payload next, records = records.take k ++ (encodeRecord kind state.expectedSequence payload ::
        records.drop (k + 1)) ∧
      FrameLog.Run (replayHead limits) 0 { expectedSequence := 0, bootstrap := none } (records.take k) state ∧
      Replayable limits (records.take k).flatten.length state kind payload next := by
  have hsplit := List.take_append_drop k records
  rw [List.drop_eq_getElem_cons hk] at hsplit
  cases k with
  | zero =>
    obtain ⟨hwf, payload, hpayload, hfits⟩ := h.bootstrap_fits
    have hfirst : records[0] = encodeRecord bootstrapKind 0 payload := by
      have hempty : logRecords bootstrap [] = some [encodeRecord bootstrapKind 0 payload] := by
        simp [logRecords, hpayload, mutationRecords]
      have htake : records.take 1 = [encodeRecord bootstrapKind 0 payload] :=
        Option.some.inj ((logRecords_take hrecords 0).symm.trans hempty)
      rw [List.take_one, List.head?_eq_getElem?, List.getElem?_eq_getElem hk] at htake
      exact List.head_eq_of_cons_eq htake
    refine ⟨_, bootstrapKind, payload, bootstrap, ?_, .nil _ _, replayable_bootstrap hwf hpayload hfits⟩
    rw [← hfirst]; exact hsplit.symm
  | succ j =>
    have hlen := length_logRecords hrecords
    obtain ⟨wj, payload, hwj, hpayload, hfits, hadm⟩ := h.logged_at (j := j) (by omega)
    obtain ⟨recordsj, hfacts⟩ := hwj.facts
    have hrecordsj : recordsj = records.take (j + 1) :=
      Option.some.inj (hfacts.records_eq.symm.trans (logRecords_take hrecords j))
    subst hrecordsj
    have hreplay := hfacts.replayable hpayload hfits hadm
    have hnext := (hfacts.logged hpayload hfits hadm).records_eq
    rw [List.take_append_getElem, logRecords_take hrecords (j + 1), ← List.take_append_getElem hk] at hnext
    have hrecord : records[j + 1] = encodeRecord (ms[j].kind bootstrap.nullable) wj.records payload :=
      List.head_eq_of_cons_eq (List.append_cancel_left (Option.some.inj hnext))
    refine ⟨_, _, payload, _, ?_, hfacts.run, hfacts.file ▸ hreplay⟩
    rw [show (stateAfter bootstrap (ms.take j)).expectedSequence = wj.records from hfacts.count.symm, ← hrecord]
    exact hsplit.symm

/-- **A corrupt header length hides no record.** A declared length that would end past the
end of the file makes replay fail. -/
theorem replay_overlong_length (h : Written limits bootstrap ms w) {records : List Bytes}
    (hrecords : logRecords bootstrap ms = some records) {k : Nat} (hk : k < records.length) (declared : UInt64)
    (hover : w.file.length < (records.take k).flatten.length + (int64WalFrameOverhead + declared.toNat)) :
    ∃ e, replay (overwrite w.file ((records.take k).flatten.length + 20) (u64Bytes declared)) limits = .error e := by
  obtain ⟨state, kind, payload, next, hsplit, hrun, hreplay⟩ := h.record_at hrecords hk
  obtain ⟨records', hfacts⟩ := h.facts
  obtain rfl : records' = records := Option.some.inj (hfacts.records_eq.symm.trans hrecords)
  generalize hpre : (records'.take k).flatten = pre at *
  generalize hpost : (records'.drop (k + 1)).flatten = post at *
  have hfile : w.file = pre ++ (encodeRecord kind state.expectedSequence payload ++ post) := by
    rw [hfacts.file, hsplit]; simp [hpre, hpost]
  have hlen : (pre ++ (declaredRecord kind state.expectedSequence declared.toNat payload ++ post)).length =
      w.file.length := by
    rw [hfile, encodeRecord_eq]
    simp [declaredRecord, length_recordHeader]
  have hdecl : declared.toNat ≤ usizeMax := le_usizeMax_of_le (Nat.le_refl _)
  obtain ⟨e, hbad⟩ := replayHead_overlong post hreplay hdecl (by rw [hlen]; exact hover)
  have hscan := hrun.scan_append [] (declaredRecord kind state.expectedSequence declared.toNat payload ++ post) rfl
  rw [hpre, List.nil_append, Nat.zero_add] at hscan
  refine ⟨e, ?_⟩
  rw [hfile, overwrite_declared, replay, replayLoop, hscan, FrameLog.scan_bad _ hbad]
  rfl

theorem replay_overlong_length_sample : ∃ w records, Written sampleLimits sampleBootstrap sampleMutations w ∧
    logRecords sampleBootstrap sampleMutations = some records ∧
    ∃ e, replay (overwrite w.file ((records.take 1).flatten.length + 20) (u64Bytes 600)) sampleLimits = .error e := by
  obtain ⟨w, hw, hlen⟩ := sample_written
  obtain ⟨first, rest, hrecords, hfirst, -⟩ := sample_logRecords
  refine ⟨w, first :: rest, hw, hrecords, replay_overlong_length hw hrecords ?_ 600 ?_⟩
  · have := length_logRecords hrecords
    rw [this]; decide
  · rw [hlen]; simp [hfirst, int64WalFrameOverhead, int64WalFrameHeaderLen, int64WalCommitLen]

end

end RustHouse
