import RustHouse.WalSound

/-!
# What a call on a log writer can do

`log_cases` lists the outcomes of a writer call: the record is in the file and
counted, or the call was refused and nothing changed, or the file failed and
the writer is poisoned.
-/

namespace RustHouse

open Checked Words

/-! ## Limits -/

structure RecordFits (limits : Int64WriteAheadLogLimits) (payloadLen fileBytes records : Nat) : Prop where
  recordBytes : payloadLen ≤ limits.maxRecordBytes
  maxRecords : saturatingAdd records 1 ≤ limits.maxRecords
  representable : fileBytes + (int64WalFrameOverhead + payloadLen) ≤ usizeMax
  maxFileBytes : fileBytes + (int64WalFrameOverhead + payloadLen) ≤ limits.maxFileBytes

theorem validateRecordLimits_eq_ok (sequence : Nat) {payloadLen fileBytes records next : Nat}
    {limits : Int64WriteAheadLogLimits} :
    validateRecordLimits sequence payloadLen fileBytes records limits = .ok next ↔
      RecordFits limits payloadLen fileBytes records ∧ next = fileBytes + (int64WalFrameOverhead + payloadLen) := by
  constructor
  · intro h
    unfold validateRecordLimits at h
    simp only [bind_eq_ok, failIf_eq_ok, okOr_eq_ok, checkedAdd_eq_some, Nat.not_lt, Except.ok.injEq] at h
    obtain ⟨_, hbytes, _, hrecords, _, ⟨_, rfl⟩, _, ⟨hle, rfl⟩, _, hfile, rfl⟩ := h
    exact ⟨⟨hbytes, hrecords, hle, hfile⟩, rfl⟩
  · rintro ⟨⟨hbytes, hrecords, hle, hfile⟩, rfl⟩
    have hframe : int64WalFrameOverhead + payloadLen ≤ usizeMax := by omega
    simp only [validateRecordLimits, failIf_of_not (Nat.not_lt.2 hbytes), failIf_of_not (Nat.not_lt.2 hrecords),
      checkedAdd_of_le hframe, checkedAdd_of_le hle, okOr_some, ok_bind, failIf_of_not (Nat.not_lt.2 hfile)]

theorem validateRecordLimits_error {sequence payloadLen fileBytes records : Nat} {limits : Int64WriteAheadLogLimits}
    {e : Int64WriteAheadLogError} (h : validateRecordLimits sequence payloadLen fileBytes records limits = .error e) :
    ∃ l, e = .limit l := by
  unfold validateRecordLimits failIf at h
  unfold okOr at h
  split at h
  · exact ⟨_, (Except.error.inj h).symm⟩
  simp only [ok_bind] at h
  split at h
  · exact ⟨_, (Except.error.inj h).symm⟩
  simp only [ok_bind] at h
  cases hframe : checkedAdd int64WalFrameOverhead payloadLen with
  | none => rw [hframe] at h; exact ⟨_, (Except.error.inj h).symm⟩
  | some frameLen =>
    simp only [hframe, ok_bind] at h
    cases hfile : checkedAdd fileBytes frameLen with
    | none => rw [hfile] at h; exact ⟨_, (Except.error.inj h).symm⟩
    | some fileLen =>
      simp only [hfile, ok_bind] at h
      split at h
      · exact ⟨_, (Except.error.inj h).symm⟩
      · cases h

/-! ## Committing a record -/

/-- A failure of the file itself. -/
def Int64WriteAheadLogError.IsIo (error : Int64WriteAheadLogError) : Prop :=
  ∃ io, error = .write io ∨ error = .syncFile io

theorem writeCommittedRecord_cases {io : CommitIo} {file body footer file' : Bytes}
    {r : Except Int64WriteAheadLogError Unit} (h : writeCommittedRecord io file body footer = (file', r)) :
    (r = .ok () ∧ file' = file ++ (body ++ footer)) ∨
    ∃ e p, r = .error e ∧ e.IsIo ∧ p <+: body ++ footer ∧ file' = file ++ p := by
  obtain ⟨writeBody, syncBody, writeFooter, syncFooter⟩ := io
  unfold writeCommittedRecord at h
  cases writeBody with
  | some fault =>
    obtain ⟨rfl, rfl⟩ := Prod.mk.inj h.symm
    exact .inr ⟨_, _, rfl, ⟨_, .inl rfl⟩, (List.take_prefix _ _).trans (List.prefix_append _ _), rfl⟩
  | none =>
    cases syncBody with
    | some error =>
      obtain ⟨rfl, rfl⟩ := Prod.mk.inj h.symm
      exact .inr ⟨_, _, rfl, ⟨_, .inr rfl⟩, List.prefix_append _ _, rfl⟩
    | none =>
      cases writeFooter with
      | some fault =>
        obtain ⟨rfl, rfl⟩ := Prod.mk.inj h.symm
        refine .inr ⟨_, body ++ footer.take fault.persisted, rfl, ⟨_, .inl rfl⟩, ?_, List.append_assoc _ _ _⟩
        exact (List.prefix_append_right_inj body).2 (List.take_prefix _ _)
      | none =>
        cases syncFooter with
        | some error =>
          obtain ⟨rfl, rfl⟩ := Prod.mk.inj h.symm
          exact .inr ⟨_, _, rfl, ⟨_, .inr rfl⟩, List.prefix_rfl, List.append_assoc _ _ _⟩
        | none =>
          obtain ⟨rfl, rfl⟩ := Prod.mk.inj h.symm
          exact .inl ⟨rfl, List.append_assoc _ _ _⟩

def Int64WriteAheadLog.committed (w : Int64WriteAheadLog) (kind : UInt8) (payload : Bytes) : Int64WriteAheadLog :=
  { w with
    file := w.file ++ encodeRecord kind w.records payload
    fileBytes := w.fileBytes + (int64WalFrameOverhead + payload.length)
    records := w.records + 1 }

/-- What a call that should log `kind` and `payload` can do to a writer. -/
inductive LogOutcome (w : Int64WriteAheadLog) (kind : UInt8) (payload : Option Bytes) :
    Int64WriteAheadLog → Except Int64WriteAheadLogError Unit → Prop
  | committed (bytes : Bytes) : payload = some bytes → w.poisoned = false →
      RecordFits w.limits bytes.length w.fileBytes w.records →
      LogOutcome w kind payload (w.committed kind bytes) (.ok ())
  | refused (error : Int64WriteAheadLogLimitError) : w.poisoned = false → LogOutcome w kind payload w (.error (.limit error))
  | poisoned : w.poisoned = true → LogOutcome w kind payload w (.error .poisoned)
  | failed (error : Int64WriteAheadLogError) (bytes tail : Bytes) : payload = some bytes → w.poisoned = false →
      RecordFits w.limits bytes.length w.fileBytes w.records → error.IsIo → tail <+: encodeRecord kind w.records bytes →
      LogOutcome w kind payload { w with file := w.file ++ tail, poisoned := true } (.error error)

theorem appendRecord_cases {io : CommitIo} {w w' : Int64WriteAheadLog} {kind : UInt8} {payload : Bytes}
    {r : Except Int64WriteAheadLogError Unit} (h : w.appendRecord io kind payload = (w', r)) :
    LogOutcome w kind (some payload) w' r := by
  unfold Int64WriteAheadLog.appendRecord at h
  by_cases hp : w.poisoned = true
  · rw [if_pos hp] at h
    obtain ⟨rfl, rfl⟩ := Prod.mk.inj h
    exact .poisoned hp
  · rw [if_neg hp] at h
    have hp' : w.poisoned = false := by simpa using hp
    cases hv : validateRecordLimits w.records payload.length w.fileBytes w.records w.limits with
    | error e =>
      simp only [hv] at h
      obtain ⟨rfl, rfl⟩ := Prod.mk.inj h
      obtain ⟨l, rfl⟩ := validateRecordLimits_error hv
      exact .refused l hp'
    | ok next =>
      obtain ⟨hfits, rfl⟩ := (validateRecordLimits_eq_ok _).1 hv
      simp only [hv] at h
      cases hw : writeCommittedRecord io w.file (encodeRecordParts kind w.records payload).1
        (encodeRecordParts kind w.records payload).2 with
      | mk file result =>
        simp only [hw] at h
        obtain ⟨rfl, rfl⟩ | ⟨e, p, rfl, he, hpre, rfl⟩ := writeCommittedRecord_cases hw
        · obtain ⟨rfl, rfl⟩ := Prod.mk.inj h
          exact .committed payload rfl hp' hfits
        · obtain ⟨rfl, rfl⟩ := Prod.mk.inj h
          exact .failed e payload p rfl hp' hfits he hpre

theorem validateNextRecord_cases (w : Int64WriteAheadLog) (n : Nat) :
    (w.validateNextRecord n = .error .poisoned ∧ w.poisoned = true) ∨
    (∃ l, w.validateNextRecord n = .error (.limit l) ∧ w.poisoned = false) ∨
    (w.validateNextRecord n = .ok () ∧ w.poisoned = false) := by
  unfold Int64WriteAheadLog.validateNextRecord
  by_cases hp : w.poisoned = true
  · exact .inl ⟨by rw [failIf_of hp]; rfl, hp⟩
  · have hp' : w.poisoned = false := by simpa using hp
    rw [failIf_of_not hp, ok_bind]
    cases hv : validateRecordLimits w.records n w.fileBytes w.records w.limits with
    | error e =>
      obtain ⟨l, rfl⟩ := validateRecordLimits_error hv
      exact .inr (.inl ⟨l, rfl, hp'⟩)
    | ok next => exact .inr (.inr ⟨rfl, hp'⟩)

theorem appendCounted_cases {io : CommitIo} {w w' : Int64WriteAheadLog} {count itemBytes : Nat} {kind : UInt8}
    {payload : Option Bytes} {r : Except Int64WriteAheadLogError Unit}
    (h : w.appendCounted io count itemBytes kind payload = some (w', r)) : LogOutcome w kind payload w' r := by
  unfold Int64WriteAheadLog.appendCounted at h
  simp only at h
  obtain ⟨hv, hp⟩ | ⟨l, hv, hp⟩ | ⟨hv, hp⟩ := validateNextRecord_cases w
    ((checkedAdd 8 ((checkedMul count itemBytes).getD usizeMax)).getD usizeMax)
  · rw [hv] at h
    obtain ⟨rfl, rfl⟩ := Prod.mk.inj (Option.some.inj h)
    exact .poisoned hp
  · rw [hv] at h
    obtain ⟨rfl, rfl⟩ := Prod.mk.inj (Option.some.inj h)
    exact .refused l hp
  · rw [hv] at h
    obtain ⟨bytes, rfl, hrec⟩ := Option.map_eq_some_iff.1 h
    exact appendRecord_cases hrec

/-- **What a writer call can do.** -/
theorem log_cases {io : CommitIo} {w w' : Int64WriteAheadLog} {m : WalMutation}
    {r : Except Int64WriteAheadLogError Unit} (h : w.log io m = some (w', r)) :
    LogOutcome w (m.kind w.nullable) (m.payload w.nullable) w' r := by
  cases m with
  | append values => exact appendCounted_cases h
  | replace replacements => exact appendCounted_cases h
  | truncate =>
    change w.truncate io = some (w', r) at h
    unfold Int64WriteAheadLog.truncate at h
    obtain ⟨hv, hp⟩ | ⟨l, hv, hp⟩ | ⟨hv, hp⟩ := validateNextRecord_cases w 0
    · rw [hv] at h
      obtain ⟨rfl, rfl⟩ := Prod.mk.inj (Option.some.inj h)
      exact .poisoned hp
    · rw [hv] at h
      obtain ⟨rfl, rfl⟩ := Prod.mk.inj (Option.some.inj h)
      exact .refused l hp
    · rw [hv] at h
      exact appendRecord_cases (Option.some.inj h)

/-! ## Creating a log -/

theorem bootstrapPayloadLen_of_encode {bootstrap : Int64WalBootstrap} {payload : Bytes}
    (h : encodeBootstrap bootstrap = some payload) :
    bootstrapPayloadLen (utf8 bootstrap.tableName).length (utf8 bootstrap.columnName).length
      bootstrap.values.length bootstrap.nullable = some payload.length := by
  obtain ⟨items, -, -, hlen, -⟩ := encodeBootstrap_eq h
  unfold encodeBootstrap at h
  obtain ⟨capacity, hcap, -⟩ := Option.bind_eq_some_iff.1 h
  rw [hcap, (bootstrapPayloadLen_eq hcap).1, hlen]

theorem length_encodeRecord (kind : UInt8) (sequence : Nat) (payload : Bytes) :
    (encodeRecord kind sequence payload).length = int64WalFrameOverhead + payload.length := by
  simp [encodeRecord, encodeRecordParts, recordHeader, int64WalMagic, int64WalCommitMagic, ascii,
    int64WalFrameOverhead, int64WalFrameHeaderLen, int64WalCommitLen]
  omega

theorem createCommittedWalFile_ok {io : Int64WriteAheadLog.CreateIo} {body footer file : Bytes}
    (h : Int64WriteAheadLog.createCommittedWalFile io body footer = .ok file) : file = body ++ footer := by
  obtain ⟨create, commit, syncParent⟩ := io
  unfold Int64WriteAheadLog.createCommittedWalFile at h
  cases create with
  | some error => cases h
  | none =>
    cases hw : writeCommittedRecord commit [] body footer with
    | mk written result =>
      obtain ⟨rfl, rfl⟩ | ⟨e, p, rfl, -, -, rfl⟩ := writeCommittedRecord_cases hw
      · cases syncParent with
        | some error => simp [hw] at h
        | none => simpa [hw] using h.symm
      · simp [hw] at h

theorem createInDirectory_ok {io : Int64WriteAheadLog.CreateIo} {bootstrap : Int64WalBootstrap}
    {limits : Int64WriteAheadLogLimits} {w : Int64WriteAheadLog}
    (h : Int64WriteAheadLog.createInDirectory io bootstrap limits = some (.ok w)) :
    ∃ payload, encodeBootstrap bootstrap = some payload ∧ RecordFits limits payload.length 0 0 ∧
      w = { file := encodeRecord bootstrapKind 0 payload, normalizedTableName := toAsciiLowercase bootstrap.tableName,
            nullable := bootstrap.nullable, limits, fileBytes := int64WalFrameOverhead + payload.length, records := 1,
            poisoned := false } := by
  unfold Int64WriteAheadLog.createInDirectory Int64WriteAheadLog.validateBootstrapLimits at h
  split at h
  · cases h
  rename_i hlimits
  obtain ⟨payload, hpayload, h⟩ := Option.bind_eq_some_iff.1 h
  obtain ⟨next, hv, -⟩ := bind_eq_ok.1 hlimits
  rw [bootstrapPayloadLen_of_encode hpayload] at hv
  obtain ⟨hfits, -⟩ := (validateRecordLimits_eq_ok _).1 hv
  obtain ⟨file, hfile, hw⟩ := bind_eq_ok.1 (Option.some.inj h)
  have hlen := length_encodeRecord bootstrapKind 0 payload
  rw [encodeRecord, List.length_append] at hlen
  obtain rfl := Except.ok.inj hw
  refine ⟨payload, hpayload, hfits, ?_⟩
  rw [createCommittedWalFile_ok hfile, ← hlen]
  rfl

/-! ## Acceptance -/

theorem appendRecord_accepts {w : Int64WriteAheadLog} {payload : Bytes} (kind : UInt8) (hp : w.poisoned = false)
    (hfits : RecordFits w.limits payload.length w.fileBytes w.records) :
    w.appendRecord .success kind payload = (w.committed kind payload, .ok ()) := by
  have hv := (validateRecordLimits_eq_ok w.records).2 ⟨hfits, rfl⟩
  have hfile : w.file ++ (encodeRecordParts kind w.records payload).1 ++ (encodeRecordParts kind w.records payload).2 =
      w.file ++ encodeRecord kind w.records payload := List.append_assoc _ _ _
  rw [Int64WriteAheadLog.appendRecord, if_neg (by simp [hp])]
  simp only [hv, CommitIo.success, writeCommittedRecord, writeBytes, syncBytes, hfile]
  rfl

theorem validateNextRecord_accepts {w : Int64WriteAheadLog} {n : Nat} (hp : w.poisoned = false)
    (hfits : RecordFits w.limits n w.fileBytes w.records) : w.validateNextRecord n = .ok () := by
  rw [Int64WriteAheadLog.validateNextRecord, failIf_of_not (by simp [hp]), ok_bind,
    (validateRecordLimits_eq_ok _).2 ⟨hfits, rfl⟩]
  rfl

theorem appendCounted_accepts {w : Int64WriteAheadLog} {count itemBytes : Nat} {payload : Bytes} (kind : UInt8)
    (hp : w.poisoned = false) (hlen : payload.length = 8 + count * itemBytes)
    (hfits : RecordFits w.limits payload.length w.fileBytes w.records) :
    w.appendCounted .success count itemBytes kind (some payload) = some (w.committed kind payload, .ok ()) := by
  have hmax := hfits.representable
  have hsize : (checkedAdd 8 ((checkedMul count itemBytes).getD usizeMax)).getD usizeMax = payload.length := by
    rw [checkedMulAdd_getD 8 count itemBytes (by decide), hlen]
    exact Nat.min_eq_left (by omega)
  rw [Int64WriteAheadLog.appendCounted]
  simp only [hsize, validateNextRecord_accepts hp hfits, Option.map_some, appendRecord_accepts kind hp hfits]

theorem log_accepts {w : Int64WriteAheadLog} {m : WalMutation} {payload : Bytes} (hp : w.poisoned = false)
    (hpayload : m.payload w.nullable = some payload)
    (hfits : RecordFits w.limits payload.length w.fileBytes w.records) :
    w.log .success m = some (w.committed (m.kind w.nullable) payload, .ok ()) := by
  have hlen := length_payload hpayload
  cases m with
  | append values =>
    rw [Int64WriteAheadLog.log, Int64WriteAheadLog.appendValues, show appendPayload w.nullable values = some payload from
      hpayload]
    exact appendCounted_accepts _ hp hlen hfits
  | truncate =>
    obtain rfl := Option.some.inj hpayload
    have hvalid : w.validateNextRecord 0 = .ok () := validateNextRecord_accepts hp hfits
    rw [Int64WriteAheadLog.log, Int64WriteAheadLog.truncate, hvalid]
    simp only [appendRecord_accepts truncateKind hp hfits]
    rfl
  | replace replacements =>
    have hwidth : 8 + valueBytes w.nullable = if w.nullable then 17 else 16 := by
      unfold valueBytes; split <;> rfl
    rw [Int64WriteAheadLog.log, Int64WriteAheadLog.replaceValues,
      show replacePayload w.nullable replacements = some payload from hpayload]
    exact appendCounted_accepts _ hp (hwidth ▸ hlen) hfits

theorem createInDirectory_accepts {bootstrap : Int64WalBootstrap} {limits : Int64WriteAheadLogLimits} {payload : Bytes}
    (hpayload : encodeBootstrap bootstrap = some payload) (hfits : RecordFits limits payload.length 0 0) :
    Int64WriteAheadLog.createInDirectory ⟨none, .success, none⟩ bootstrap limits =
      some (.ok { file := encodeRecord bootstrapKind 0 payload,
                  normalizedTableName := toAsciiLowercase bootstrap.tableName, nullable := bootstrap.nullable, limits,
                  fileBytes := int64WalFrameOverhead + payload.length, records := 1, poisoned := false }) := by
  have hlimits : Int64WriteAheadLog.validateBootstrapLimits (utf8 bootstrap.tableName).length
      (utf8 bootstrap.columnName).length bootstrap.values.length bootstrap.nullable limits = .ok () := by
    rw [Int64WriteAheadLog.validateBootstrapLimits, bootstrapPayloadLen_of_encode hpayload]
    simp only [Option.getD_some, (validateRecordLimits_eq_ok _).2 ⟨hfits, rfl⟩, ok_bind]
  have hlen := length_encodeRecord bootstrapKind 0 payload
  rw [encodeRecord, List.length_append] at hlen
  rw [Int64WriteAheadLog.createInDirectory, hlimits]
  simp only [hpayload, Option.bind_eq_bind, Option.bind_some, ← hlen]
  rfl

end RustHouse
