import RustHouse.SnapshotFile
import RustHouse.SnapshotSound

/-!
# Snapshot files are replaced atomically

Whatever call fails, the destination holds its old content or the whole new
envelope. The temporary file never has the destination's name, so everything
before the rename happens beside the destination and is undone by one removal.
-/

namespace RustHouse

open Exec Words Method SnapshotDirectory

/-! ## Calls on a directory -/

section
variable {s : SnapshotDirectory} {name : FileName}

theorem orFault_wp {ε α : Type} {fault : Option ε} {m : Method SnapshotDirectory ε α} {Q : α → SnapshotDirectory → Prop}
    {E : ε → SnapshotDirectory → Prop} (hfault : ∀ e, fault = some e → E e s) (hm : wp m Q E s) :
    wp (orFault fault m) Q E s := by
  cases fault with
  | none => exact hm
  | some e => exact hfault e rfl

theorem create_wp (fault : Option OsError) : wp (create name fault)
    (fun _ s' => s.entries name = none ∧ s' = ⟨Function.update s.entries name (some []), s.calls ++ [.created name]⟩)
    (fun _ s' => s' = s) s := by
  refine orFault_wp (fun _ _ => rfl) ?_
  rw [wp_bind, wp_read, wp_bind]
  refine wp_call (rejectIf_ne_panic _ _) (fun _ h => ⟨?_, rfl⟩) fun _ _ => rfl
  simpa using rejectIf_eq_ok.1 h

theorem writeAll_wp (bytes : Bytes) (fault : Option WriteFault) : wp (writeAll name bytes fault)
    (fun _ s' => s' = ⟨Function.update s.entries name (some bytes), s.calls ++ [.written name bytes]⟩)
    (fun _ s' => ∃ part, s' = ⟨Function.update s.entries name (some part), s.calls⟩) s := by
  cases fault with
  | none => exact rfl
  | some fault => exact ⟨_, rfl⟩

theorem syncAll_wp (fault : Option IoError) : wp (syncAll name fault)
    (fun _ s' => s' = ⟨s.entries, s.calls ++ [.synced name]⟩) (fun _ s' => s' = s) s :=
  orFault_wp (fun _ _ => rfl) rfl

theorem entryAliasesFile_wp {created : FileName} (hne : created ≠ name) (fault : Option IoError) :
    wp (entryAliasesFile name created fault) (fun aliases s' => aliases = false ∧ s' = s) (fun _ s' => s' = s) s := by
  refine orFault_wp (fun _ _ => rfl) ⟨?_, rfl⟩
  rw [beq_false_of_ne (Ne.symm hne), Bool.and_false]

theorem rename_wp {destination : FileName} {bytes : Bytes} (hbytes : s.entries name = some bytes) (fault : Option IoError) :
    wp (rename name destination fault)
      (fun _ s' => s' = ⟨Function.update (Function.update s.entries name none) destination (some bytes),
        s.calls ++ [.renamed name destination]⟩)
      (fun _ s' => s' = s) s := by
  refine orFault_wp (fun _ _ => rfl) ?_
  rw [wp_bind, wp_read, wp_bind, hbytes]
  exact rfl

theorem remove_wp {bytes : Bytes} (hbytes : s.entries name = some bytes) (fault : Option IoError) :
    wp (remove name fault)
      (fun _ s' => s' = ⟨Function.update s.entries name none, s.calls ++ [.removed name]⟩)
      (fun e s' => if e.kind = .notFound then s' = ⟨Function.update s.entries name none, s.calls⟩
        else fault = some e ∧ s' = s) s := by
  rw [remove, wp_bind, wp_read]
  cases fault with
  | none =>
    simp only [hbytes]
    exact rfl
  | some failure =>
    by_cases hkind : failure.kind = .notFound
    · simp only [if_pos hkind, wp_bind, wp_write, wp_call_error]
    · simp only [if_neg hkind, wp_call_error, and_self]

end

/-! ## Before the rename -/

section
variable {io : ReplaceIo} {destination : FileName} {entries : FileName → Option Bytes}

def NotRenamed (s : SnapshotDirectory) : Prop := ∀ source target, FileCall.renamed source target ∉ s.calls

structure Staged (entries : FileName → Option Bytes) (destination temporary : FileName) (bytes : Bytes)
    (s : SnapshotDirectory) : Prop where
  beside : temporary ≠ destination
  fresh : entries temporary = none
  entries_eq : s.entries = Function.update entries temporary (some bytes)
  notRenamed : NotRenamed s

/-- A failure before the rename: the directory is as it was, except for a temporary file
whose removal failed. -/
structure Failed (io : ReplaceIo) (entries : FileName → Option Bytes) (destination : FileName)
    (e : SnapshotReplaceError) (s : SnapshotDirectory) : Prop where
  reported : e.destinationWasReplaced = false
  notRenamed : NotRenamed s
  entries_eq : s.entries = entries ∨ ∃ temporary bytes fault operation index, s.entries =
      Function.update entries temporary (some bytes) ∧ temporary ≠ destination ∧ entries temporary = none ∧
    e = .cleanupTemporary fault operation ∧ (io.attempt index).remove = some fault

theorem NotRenamed.snoc {s : SnapshotDirectory} (h : NotRenamed s) (call : FileCall)
    (hcall : ∀ source target, call ≠ .renamed source target) (entries : FileName → Option Bytes) :
    NotRenamed ⟨entries, s.calls ++ [call]⟩ := by
  intro source target hmem
  rcases List.mem_append.1 hmem with hold | hnew
  · exact h source target hold
  · exact hcall source target (List.mem_singleton.1 hnew).symm

theorem Staged.removed {temporary : FileName} {bytes : Bytes} {s : SnapshotDirectory}
    (h : Staged entries destination temporary bytes s) : Function.update s.entries temporary none = entries := by
  rw [h.entries_eq, Function.update_idem, ← h.fresh, Function.update_eq_self]

theorem cleanup_wp {α : Type} {temporary : FileName} {bytes : Bytes} {s : SnapshotDirectory} {index : Nat}
    {operation : SnapshotReplaceError} (h : Staged entries destination temporary bytes s)
    (hoperation : operation.destinationWasReplaced = false) {Q : α → SnapshotDirectory → Prop} :
    wp (cleanup temporary (io.attempt index).remove operation) Q (Failed io entries destination) s := by
  have hbytes : s.entries temporary = some bytes := by rw [h.entries_eq, Function.update_self]
  rw [cleanup, wp_bind, wp_attempt]
  refine wp_mono (remove_wp hbytes _) ?_ ?_
  · rintro _ s' rfl
    exact ⟨hoperation, h.notRenamed.snoc _ (by rintro _ _ ⟨⟩) _, .inl h.removed⟩
  · intro e s' hfailed
    by_cases hkind : e.kind = .notFound
    · rw [if_pos hkind] at hfailed
      subst hfailed
      simp only [if_pos hkind]
      exact ⟨hoperation, h.notRenamed, .inl h.removed⟩
    · rw [if_neg hkind] at hfailed
      obtain ⟨hfault, rfl⟩ := hfailed
      simp only [if_neg hkind]
      exact ⟨rfl, h.notRenamed, .inr ⟨temporary, bytes, e, operation, index, h.entries_eq, h.beside, h.fresh, rfl, hfault⟩⟩

theorem temporarySnapshotSuffix_ne_nil (processId sequence : UInt32) : temporarySnapshotSuffix processId sequence ≠ [] := by
  intro h
  have hlen := congrArg List.length h
  simp [temporarySnapshotSuffix, ascii] at hlen

theorem temporarySnapshotName_ne {suffix : FileName} (h : suffix ≠ []) : temporarySnapshotName destination suffix ≠ destination := by
  intro heq
  exact h (List.append_cancel_left (heq.trans (List.append_nil destination).symm))

theorem createCandidate_wp {s : SnapshotDirectory} (hentries : s.entries = entries) (hcalls : NotRenamed s)
    {suffix : FileName} (hsuffix : suffix ≠ []) (attempt : TemporaryIo) :
    wp (createCandidate attempt destination suffix)
      (fun candidate s' => (candidate = none ∧ s' = s) ∨
        ∃ name, candidate = some name ∧ Staged entries destination name [] s')
      (Failed io entries destination) s := by
  have staged : ∀ {name : FileName} {s' : SnapshotDirectory}, name ≠ destination → s.entries name = none →
      s' = ⟨Function.update s.entries name (some []), s.calls ++ [.created name]⟩ → Staged entries destination name [] s' := by
    rintro name s' hbeside hfresh rfl
    exact ⟨hbeside, hentries ▸ hfresh, by rw [hentries], hcalls.snoc _ (by rintro _ _ ⟨⟩) _⟩
  have failed : ∀ e, Failed io entries destination (.createTemporary e) s := fun e => ⟨rfl, hcalls, .inl hentries⟩
  rw [createCandidate, wp_bind, wp_attempt]
  refine wp_mono (create_wp attempt.create) ?_ ?_
  · rintro _ s' ⟨hfresh, hs'⟩
    exact .inr ⟨_, rfl, staged (temporarySnapshotName_ne hsuffix) hfresh hs'⟩
  · rintro e _ rfl
    by_cases htoolong : e.rawOsError = some enametoolong
    · simp only [if_pos htoolong]
      by_cases hsame : suffix = destination
      · simp only [if_pos hsame]
        exact .inl ⟨rfl, rfl⟩
      · simp only [if_neg hsame, wp_bind, wp_pure, wp_attempt]
        refine wp_mono (create_wp attempt.createSuffix) ?_ ?_
        · rintro _ s' ⟨hfresh, hs'⟩
          exact .inr ⟨_, rfl, staged hsame hfresh hs'⟩
        · rintro e' _ rfl
          by_cases hexists : e'.error.kind = .alreadyExists
          · simp only [if_pos hexists]
            exact .inl ⟨rfl, rfl⟩
          · simp only [if_neg hexists]
            exact failed _
    · simp only [if_neg htoolong]
      by_cases hexists : e.error.kind = .alreadyExists
      · simp only [if_pos hexists]
        exact .inl ⟨rfl, rfl⟩
      · simp only [if_neg hexists]
        exact failed _

theorem createTemporaryFrom_wp : ∀ (attempts index : Nat) {s : SnapshotDirectory}, s.entries = entries → NotRenamed s →
    wp (createTemporaryFrom io destination index attempts)
      (fun created s' => Staged entries destination created.1 [] s' ∧ ∃ index, created.2 = io.attempt index)
      (Failed io entries destination) s
  | 0, _, _, hentries, hcalls => ⟨rfl, hcalls, .inl hentries⟩
  | attempts + 1, index, s, hentries, hcalls => by
    rw [createTemporaryFrom, wp_bind]
    refine wp_mono (createCandidate_wp hentries hcalls (temporarySnapshotSuffix_ne_nil _ _) (io.attempt index)) ?_
      fun _ _ h => h
    rintro _ s' (⟨rfl, rfl⟩ | ⟨name, rfl, hstaged⟩)
    · exact createTemporaryFrom_wp attempts (index + 1) hentries hcalls
    · simp only [wp_bind, wp_attempt]
      refine wp_mono (entryAliasesFile_wp hstaged.beside _) ?_ ?_
      · rintro _ _ ⟨rfl, rfl⟩
        exact ⟨hstaged, index, rfl⟩
      · rintro e _ rfl
        exact cleanup_wp hstaged rfl

/-! ## The rename -/

/-- The destination holds the whole envelope, and nothing else has changed. -/
structure Replaced (entries : FileName → Option Bytes) (destination : FileName) (envelope : Bytes)
    (s : SnapshotDirectory) : Prop where
  renamed : ∃ temporary, FileCall.renamed temporary destination ∈ s.calls
  entries_eq : s.entries = Function.update entries destination (some envelope)

theorem Staged.written {temporary : FileName} {bytes : Bytes} (bytes' : Bytes) {s : SnapshotDirectory}
    {calls : List FileCall} (h : Staged entries destination temporary bytes s) (hcalls : NotRenamed ⟨s.entries, calls⟩) :
    Staged entries destination temporary bytes' ⟨Function.update s.entries temporary (some bytes'), calls⟩ :=
  ⟨h.beside, h.fresh, by rw [h.entries_eq, Function.update_idem], hcalls⟩

theorem Staged.renamed {temporary : FileName} {envelope : Bytes} {s : SnapshotDirectory}
    (h : Staged entries destination temporary envelope s) : Replaced entries destination envelope
      ⟨Function.update (Function.update s.entries temporary none) destination (some envelope),
        s.calls ++ [.renamed temporary destination]⟩ :=
  ⟨⟨temporary, List.mem_append_right _ (List.mem_singleton_self _)⟩, by rw [h.removed]⟩

theorem replaceEnvelopeInDirectory_wp (envelope : Bytes) : wp (replaceEnvelopeInDirectory io destination envelope)
    (fun _ s' => Replaced entries destination envelope s')
    (fun e s' => (e.destinationWasReplaced = true ∧ Replaced entries destination envelope s') ∨
      Failed io entries destination e s') ⟨entries, []⟩ := by
  rw [replaceEnvelopeInDirectory, createTemporarySnapshot, wp_bind]
  refine wp_mono (createTemporaryFrom_wp _ _ rfl fun _ _ => List.not_mem_nil) ?_ fun _ _ h => .inr h
  rintro ⟨temporary, _⟩ s ⟨hstaged, index, rfl⟩
  have failed : ∀ {bytes : Bytes} {s' : SnapshotDirectory} {operation : SnapshotReplaceError} {Q : Unit → SnapshotDirectory → Prop},
      Staged entries destination temporary bytes s' → operation.destinationWasReplaced = false →
      wp (cleanup temporary (io.attempt index).remove operation) Q
        (fun e s' => (e.destinationWasReplaced = true ∧ Replaced entries destination envelope s') ∨
          Failed io entries destination e s') s' :=
    fun h hoperation => wp_mono (cleanup_wp h hoperation) (fun _ _ hQ => hQ) fun _ _ hE => .inr hE
  simp only [wp_bind, wp_attempt]
  refine wp_mono (writeAll_wp envelope io.write) ?_ ?_
  · rintro _ _ rfl
    have hwritten := Staged.written envelope hstaged (hstaged.notRenamed.snoc (.written temporary envelope)
      (by rintro _ _ ⟨⟩) s.entries)
    refine wp_mono (syncAll_wp io.syncTemporary) ?_ ?_
    · rintro _ _ rfl
      have hsynced : Staged entries destination temporary envelope ⟨Function.update s.entries temporary (some envelope),
          s.calls ++ [.written temporary envelope] ++ [.synced temporary]⟩ :=
        ⟨hwritten.beside, hwritten.fresh, hwritten.entries_eq, hwritten.notRenamed.snoc _ (by rintro _ _ ⟨⟩) _⟩
      have hbytes := congrFun hsynced.entries_eq temporary
      rw [Function.update_self] at hbytes
      refine wp_mono (rename_wp hbytes io.rename) ?_ ?_
      · rintro _ _ rfl
        have hrenamed := hsynced.renamed
        rw [wp_mapError, sync]
        refine orFault_wp (fun e _ => .inl ⟨rfl, hrenamed⟩) ?_
        exact ⟨hrenamed.renamed.imp fun _ h => List.mem_append_left _ h, hrenamed.entries_eq⟩
      · rintro e _ rfl
        exact failed hsynced rfl
    · rintro e _ rfl
      exact failed hwritten rfl
  · rintro e _ ⟨part, rfl⟩
    exact failed (Staged.written part hstaged hstaged.notRenamed) rfl

end

/-! ## Main result -/

theorem snapshotDestinationName_ne_panic (path : Bytes) : snapshotDestinationName path ≠ .panic := by
  refine bind_ne_panic (rejectIf_ne_panic _ _) fun _ _ => ?_
  split
  · exact bind_ne_panic (rejectIf_ne_panic _ _) fun _ _ => Exec.ok_ne_panic _
  · rintro ⟨⟩

theorem snapshotDestinationName_eq_error {path : Bytes} {e : SnapshotReplaceError}
    (h : snapshotDestinationName path = .error e) : e = .invalidDestination := by
  rcases Exec.bind_eq_error.1 h with hreject | ⟨_, _, h⟩
  · exact (rejectIf_eq_error.1 hreject).2.symm
  · split at h
    · rcases Exec.bind_eq_error.1 h with hreject | ⟨_, _, hok⟩
      · exact (rejectIf_eq_error.1 hreject).2.symm
      · exact absurd hok (by rintro ⟨⟩)
    · exact (Exec.error.inj h).symm

theorem replaceFile_wp (codec : SnapshotCodec) (io : ReplaceIo) (path : Bytes) (payload : ByteSpan)
    (entries : FileName → Option Bytes) (hencode : codec.encode payload ≠ .panic) :
    wp (codec.replaceFile io path payload)
      (fun _ s' => ∃ destination envelope, snapshotDestinationName path = .ok destination ∧
        codec.encode payload = .ok envelope ∧ Replaced entries destination envelope.val s')
      (fun e s' => (e.destinationWasReplaced = false ∧ s' = ⟨entries, []⟩) ∨
        ∃ destination envelope, snapshotDestinationName path = .ok destination ∧ codec.encode payload = .ok envelope ∧
          ((e.destinationWasReplaced = true ∧ Replaced entries destination envelope.val s') ∨
            Failed io entries destination e s')) ⟨entries, []⟩ := by
  rw [SnapshotCodec.replaceFile, wp_bind]
  cases henvelope : codec.encode payload with
  | panic => exact absurd henvelope hencode
  | error e => exact .inl ⟨rfl, rfl⟩
  | ok envelope =>
    rw [Exec.mapError, wp_call_ok, wp_bind]
    refine wp_call (snapshotDestinationName_ne_panic path) (fun destination hdestination => ?_) fun e he => ?_
    · refine orFault_wp ?_ ?_
      · intro e he
        obtain ⟨_, _, rfl⟩ := Option.map_eq_some_iff.1 he
        exact .inl ⟨rfl, rfl⟩
      · refine wp_mono (replaceEnvelopeInDirectory_wp envelope.val) ?_ ?_
        · intro _ s' h
          exact ⟨destination, envelope, hdestination, rfl, h⟩
        · intro e s' h
          exact .inr ⟨destination, envelope, hdestination, rfl, h⟩
    · refine .inl ⟨?_, rfl⟩
      rw [snapshotDestinationName_eq_error he]; rfl

theorem Failed.destination {io : ReplaceIo} {destination : FileName} {entries : FileName → Option Bytes}
    {e : SnapshotReplaceError} {s : SnapshotDirectory} (h : Failed io entries destination e s) :
    s.entries destination = entries destination := by
  rcases h.entries_eq with hsame | ⟨temporary, bytes, fault, operation, index, hleft, hbeside, _⟩
  · rw [hsame]
  · rw [hleft, Function.update_of_ne (Ne.symm hbeside)]

theorem encode_ne_panic_of_some {codec : SnapshotCodec} {io : ReplaceIo} {path : Bytes} {payload : ByteSpan}
    {s : SnapshotDirectory} {outcome : Except SnapshotReplaceError Unit × SnapshotDirectory}
    (h : codec.replaceFile io path payload s = some outcome) : codec.encode payload ≠ .panic := by
  intro hpanic
  have hnone : codec.replaceFile io path payload s = none := by
    rw [SnapshotCodec.replaceFile, hpanic]; rfl
  exact absurd (hnone.symm.trans h) (Option.some_ne_none _).symm

/-- **Snapshots are replaced atomically.** Whatever call fails, the destination has its old
content or the whole envelope. Without the rename nothing is changed, unless a temporary
file could not be removed; and an error tells whether the rename happened. -/
theorem replaceFile_atomic (codec : SnapshotCodec) (io : ReplaceIo) (path : Bytes) (payload : ByteSpan)
    (entries : FileName → Option Bytes) {result : Except SnapshotReplaceError Unit} {s : SnapshotDirectory}
    (h : codec.replaceFile io path payload ⟨entries, []⟩ = some (result, s)) :
    (∀ destination, snapshotDestinationName path = .ok destination → s.entries destination = entries destination ∨
      ∃ envelope, codec.encode payload = .ok envelope ∧ s.entries destination = some envelope.val) ∧
    ((∃ temporary destination, FileCall.renamed temporary destination ∈ s.calls) →
      ∃ destination envelope, snapshotDestinationName path = .ok destination ∧ codec.encode payload = .ok envelope ∧
        s.entries = Function.update entries destination (some envelope.val)) ∧
    ((∀ temporary destination, FileCall.renamed temporary destination ∉ s.calls) →
      (∀ destination, snapshotDestinationName path = .ok destination → s.entries destination = entries destination) ∧
      (s.entries = entries ∨ ∃ fault operation index, result = .error (.cleanupTemporary fault operation) ∧
        (io.attempt index).remove = some fault)) ∧
    (result = .ok () → ∃ temporary destination, FileCall.renamed temporary destination ∈ s.calls) ∧
    (∀ e, result = .error e →
      (e.destinationWasReplaced = true ↔ ∃ temporary destination, FileCall.renamed temporary destination ∈ s.calls)) := by
  obtain ⟨_, hok, herror⟩ := wp_iff.1 (replaceFile_wp codec io path payload entries (encode_ne_panic_of_some h))
  -- The outcomes: replaced, failed before the rename, or no access to the directory at all.
  have houtcome : (∃ destination envelope, snapshotDestinationName path = .ok destination ∧
      codec.encode payload = .ok envelope ∧ Replaced entries destination envelope.val s ∧
        ∀ e, result = .error e → e.destinationWasReplaced = true) ∨
      ∃ e, result = .error e ∧ e.destinationWasReplaced = false ∧ (s = ⟨entries, []⟩ ∨
        ∃ destination, snapshotDestinationName path = .ok destination ∧ Failed io entries destination e s) := by
    cases result with
    | ok u =>
      obtain ⟨destination, envelope, hdestination, hencode, hreplaced⟩ := hok u s h
      exact .inl ⟨destination, envelope, hdestination, hencode, hreplaced, by rintro e ⟨⟩⟩
    | error e =>
      rcases herror e s h with ⟨hreported, hs⟩ | ⟨destination, envelope, hdestination, hencode, ⟨hreported, hreplaced⟩ | hfailed⟩
      · exact .inr ⟨e, rfl, hreported, .inl hs⟩
      · refine .inl ⟨destination, envelope, hdestination, hencode, hreplaced, ?_⟩
        rintro _ ⟨⟩
        exact hreported
      · exact .inr ⟨e, rfl, hfailed.reported, .inr ⟨destination, hdestination, hfailed⟩⟩
  rcases houtcome with ⟨destination, envelope, hdestination, hencode, hreplaced, hreported⟩ | ⟨e, rfl, hreported, hunchanged⟩
  · obtain ⟨temporary, hrenamed⟩ := hreplaced.renamed
    refine ⟨?_, fun _ => ⟨destination, envelope, hdestination, hencode, hreplaced.entries_eq⟩, fun hnone =>
      absurd hrenamed (hnone temporary destination), fun _ => ⟨temporary, destination, hrenamed⟩, fun e he =>
      ⟨fun _ => ⟨temporary, destination, hrenamed⟩, fun _ => hreported e he⟩⟩
    intro destination' hdestination'
    obtain rfl : destination = destination' := Exec.ok.inj (hdestination.symm.trans hdestination')
    exact .inr ⟨envelope, hencode, by rw [hreplaced.entries_eq, Function.update_self]⟩
  · have hnone : NotRenamed s := by
      rcases hunchanged with rfl | ⟨destination, _, hfailed⟩
      · exact fun _ _ => List.not_mem_nil
      · exact hfailed.notRenamed
    have huntouched : ∀ destination, snapshotDestinationName path = .ok destination →
        s.entries destination = entries destination := by
      intro destination hdestination
      rcases hunchanged with rfl | ⟨destination', hdestination', hfailed⟩
      · rfl
      · obtain rfl : destination = destination' := Exec.ok.inj (hdestination.symm.trans hdestination')
        exact hfailed.destination
    refine ⟨fun destination hdestination => .inl (huntouched destination hdestination), ?_, ?_, by rintro ⟨⟩, ?_⟩
    · rintro ⟨temporary, destination, hrenamed⟩
      exact absurd hrenamed (hnone temporary destination)
    · refine fun _ => ⟨huntouched, ?_⟩
      rcases hunchanged with rfl | ⟨_, _, hfailed⟩
      · exact .inl rfl
      · rcases hfailed.entries_eq with hsame | ⟨_, _, fault, operation, index, _, _, _, rfl, hfault⟩
        · exact .inl hsame
        · exact .inr ⟨fault, operation, index, rfl, hfault⟩
    · rintro _ ⟨⟩
      refine ⟨fun htrue => absurd (hreported.symm.trans htrue) Bool.false_ne_true, ?_⟩
      rintro ⟨temporary, destination, hrenamed⟩
      exact absurd hrenamed (hnone temporary destination)

/-- Everything succeeds but the last synchronization. -/
def unsyncedIo : ReplaceIo where
  openDirectory := none
  processId := 7
  attempt := fun _ => ⟨0, none, none, none, none⟩
  write := none
  syncTemporary := none
  rename := none
  syncDirectory := some ⟨.other, "lost"⟩

theorem replaceFile_atomic_sample : ∃ s, SnapshotCodec.replaceFile ⟨10⟩ unsyncedIo (ascii "data/rows") ⟨[1], by decide⟩
      ⟨fun _ => none, []⟩ = some (.error (.syncDirectory ⟨.other, "lost"⟩), s) ∧
    ∃ temporary destination, FileCall.renamed temporary destination ∈ s.calls := by
  have hrun : (SnapshotCodec.replaceFile ⟨10⟩ unsyncedIo (ascii "data/rows") ⟨[1], by decide⟩ ⟨fun _ => none, []⟩).map
      Prod.fst = some (.error (.syncDirectory ⟨.other, "lost"⟩)) := by decide +kernel
  obtain ⟨⟨result, s⟩, hrun, rfl⟩ := Option.map_eq_some_iff.1 hrun
  exact ⟨s, hrun, ((replaceFile_atomic _ _ _ _ _ hrun).2.2.2.2 _ rfl).1 rfl⟩

end RustHouse
