import Mathlib.Logic.Relation
import RustHouse.Registry
import RustHouse.WalRecovery

/-!
# Registry accounting

While a registry is not poisoned its totals are the sums of its writers'
counters, within the limits of the registry; a refused operation changes
nothing; any other failure poisons the registry for good.
-/

namespace RustHouse

open Checked Words KeyedTotals

/-! ## One commit -/

/-- A refusal by a configured bound. -/
def Int64WriteAheadLogCommitError.IsLimit : Int64WriteAheadLogCommitError → Prop
  | limit _ => True
  | registryLimit _ => True
  | _ => False

def Int64WriteAheadLog.logBytes (w : Int64WriteAheadLog) : WalMutation → Nat
  | .append values => w.nextAppendBytes values.length
  | .truncate => int64WalFrameOverhead
  | .replace replacements => w.nextReplaceBytes replacements.length

theorem logBytes_eq {w : Int64WriteAheadLog} {m : WalMutation}
    (h : int64WalFrameOverhead + m.payloadLen w.nullable ≤ usizeMax) :
    w.logBytes m = int64WalFrameOverhead + m.payloadLen w.nullable := by
  have hbase : saturatingAdd int64WalFrameOverhead 8 = int64WalFrameOverhead + 8 := by decide
  cases m with
  | append values =>
    have hwidth : (if w.nullable then 9 else 8) = valueBytes w.nullable := rfl
    simp only [WalMutation.payloadLen] at h ⊢
    rw [Int64WriteAheadLog.logBytes, Int64WriteAheadLog.nextAppendBytes, hbase, hwidth, saturatingMul_of_le (by omega),
      saturatingAdd_of_le (by omega)]
    omega
  | truncate => rfl
  | replace replacements =>
    have hwidth : (if w.nullable then 17 else 16) = 8 + valueBytes w.nullable := by
      unfold valueBytes; split <;> rfl
    simp only [WalMutation.payloadLen] at h ⊢
    rw [Int64WriteAheadLog.logBytes, Int64WriteAheadLog.nextReplaceBytes, hbase, hwidth,
      saturatingMul_of_le (by omega), saturatingAdd_of_le (by omega)]
    omega

namespace Int64WriteAheadLogRegistry

variable {registry registry' : Int64WriteAheadLogRegistry} {io : CommitIo} {table key : String} {m : WalMutation}
  {result : Except Int64WriteAheadLogCommitError Unit}

inductive Outcome (registry : Int64WriteAheadLogRegistry) (key : String) (m : WalMutation) :
    Int64WriteAheadLogRegistry → Except Int64WriteAheadLogCommitError Unit → Prop
  | committed (w : Int64WriteAheadLog) (payload : Bytes) : registry.poisoned = false →
      registry.writers.lookup key = some w → w.poisoned = false → m.payload w.nullable = some payload →
      RecordFits w.limits payload.length w.fileBytes w.records →
      registry.totalWalBytes + (int64WalFrameOverhead + payload.length) ≤ registry.limits.maxTotalWalBytes →
      registry.totalRecords + 1 ≤ registry.limits.maxTotalRecords →
      Outcome registry key m
        { registry with
          writers := registry.writers.replace key (w.committed (m.kind w.nullable) payload)
          totalWalBytes := registry.totalWalBytes + (int64WalFrameOverhead + payload.length)
          totalRecords := registry.totalRecords + 1 } (.ok ())
  | refused (error : Int64WriteAheadLogCommitError) : registry.poisoned = false → error.IsLimit →
      Outcome registry key m registry (.error error)
  | poisoned : registry.poisoned = true → Outcome registry key m registry (.error .poisoned)
  | failed (error : Int64WriteAheadLogCommitError) (w w' : Int64WriteAheadLog) : registry.poisoned = false →
      registry.writers.lookup key = some w → w'.limits = w.limits → w'.fileBytes = w.fileBytes → w'.records = w.records →
      w.file <+: w'.file → ¬ error.IsLimit →
      Outcome registry key m
        { registry with writers := registry.writers.replace key w', poisoned := true } (.error error)

theorem validateRegistryTotals_eq_ok {bytes records : Nat} {limits : Int64WriteAheadLogRegistryLimits} :
    validateRegistryTotals bytes records limits = .ok () ↔
      bytes ≤ limits.maxTotalWalBytes ∧ records ≤ limits.maxTotalRecords := by
  unfold validateRegistryTotals
  simp [bind_eq_ok]

theorem reserveRecord_cases (registry : Int64WriteAheadLogRegistry) (bytes : Nat) :
    (registry.reserveRecord bytes = .error .poisoned ∧ registry.poisoned = true) ∨
    (∃ e, registry.reserveRecord bytes = .error (.registryLimit e) ∧ registry.poisoned = false) ∨
    (registry.reserveRecord bytes = .ok () ∧ registry.poisoned = false ∧
      saturatingAdd registry.totalWalBytes bytes ≤ registry.limits.maxTotalWalBytes ∧
      saturatingAdd registry.totalRecords 1 ≤ registry.limits.maxTotalRecords) := by
  unfold reserveRecord
  by_cases hp : registry.poisoned = true
  · exact .inl ⟨by rw [failIf_of hp]; rfl, hp⟩
  · have hp' : registry.poisoned = false := by simpa using hp
    rw [failIf_of_not hp, ok_bind]
    cases hv : validateRegistryTotals (saturatingAdd registry.totalWalBytes bytes)
      (saturatingAdd registry.totalRecords 1) registry.limits with
    | error e => exact .inr (.inl ⟨e, by simp only [hv], hp'⟩)
    | ok u => exact .inr (.inr ⟨by simp only [hv], hp', validateRegistryTotals_eq_ok.1 hv⟩)

theorem commitMemberRecord_cases {bytes : Nat} (hbytes : ∀ w, registry.writers.lookup key = some w → bytes = w.logBytes m)
    (h : registry.commitMemberRecord key bytes (·.log io m) = some (registry', result)) :
    Outcome registry key m registry' result := by
  unfold commitMemberRecord at h
  obtain ⟨hr, hp⟩ | ⟨e, hr, hp⟩ | ⟨hr, hp, htotal, hrecords⟩ := reserveRecord_cases registry bytes
  · rw [hr] at h
    obtain ⟨rfl, rfl⟩ := Prod.mk.inj (Option.some.inj h)
    exact .poisoned hp
  · rw [hr] at h
    obtain ⟨rfl, rfl⟩ := Prod.mk.inj (Option.some.inj h)
    exact .refused _ hp trivial
  · simp only [hr] at h
    obtain ⟨w, hw, h⟩ := Option.bind_eq_some_iff.1 h
    obtain ⟨⟨w', r⟩, hlog, h⟩ := Option.bind_eq_some_iff.1 h
    have houtcome := log_cases hlog
    cases houtcome with
    | committed payload hpayload hwp hfits =>
      have hlen := length_payload hpayload
      have hrep := hfits.representable
      have hexact : bytes = int64WalFrameOverhead + payload.length := by
        rw [hbytes w hw, hlen]
        exact logBytes_eq (by omega)
      obtain ⟨total, ht, h⟩ := Option.bind_eq_some_iff.1 h
      obtain ⟨records, hrec, h⟩ := Option.bind_eq_some_iff.1 h
      obtain ⟨rfl, rfl⟩ := Prod.mk.inj (Option.some.inj h)
      obtain ⟨hle, rfl⟩ := checkedAdd_eq_some.1 ht
      obtain ⟨hle', rfl⟩ := checkedAdd_eq_some.1 hrec
      rw [saturatingAdd_of_le hle] at htotal
      rw [saturatingAdd_of_le hle'] at hrecords
      subst hexact
      exact .committed w payload hp hw hwp hpayload hfits htotal hrecords
    | refused l _ =>
      obtain ⟨rfl, rfl⟩ := Prod.mk.inj (Option.some.inj h)
      rw [replace_self hw]
      exact .refused _ hp trivial
    | poisoned hwp =>
      obtain ⟨rfl, rfl⟩ := Prod.mk.inj (Option.some.inj h)
      exact .failed _ w w hp hw rfl rfl rfl (List.prefix_refl _) id
    | failed e payload tail _ _ _ hio _ =>
      obtain ⟨io', rfl | rfl⟩ := hio <;>
      · obtain ⟨rfl, rfl⟩ := Prod.mk.inj (Option.some.inj h)
        exact .failed _ w _ hp hw rfl rfl rfl (List.prefix_append _ _) id

/-- **What a registry call can do.** -/
theorem log_cases (h : registry.log io table m = some (registry', result)) :
    Outcome registry (toAsciiLowercase table) m registry' result := by
  cases m with
  | append values =>
    obtain ⟨w, hw, h⟩ := Option.bind_eq_some_iff.1 h
    exact commitMemberRecord_cases (m := .append values) (fun w' hw' => by rw [hw] at hw'; cases hw'; rfl) h
  | truncate => exact commitMemberRecord_cases (m := .truncate) (fun _ _ => rfl) h
  | replace replacements =>
    obtain ⟨w, hw, h⟩ := Option.bind_eq_some_iff.1 h
    exact commitMemberRecord_cases (m := .replace replacements) (fun w' hw' => by rw [hw] at hw'; cases hw'; rfl) h

/-! ## The invariant -/

/-- A member's counters: within the per-table limits, and of a file that holds them. -/
structure MemberInv (limits : Int64WriteAheadLogRegistryLimits) (w : Int64WriteAheadLog) : Prop where
  limits_eq : w.limits = limits.perTable
  fileBytes : w.fileBytes ≤ limits.perTable.maxFileBytes
  records : w.records ≤ limits.perTable.maxRecords
  count_le : w.records ≤ w.fileBytes
  representable : w.fileBytes ≤ usizeMax

structure Inv (limits : Int64WriteAheadLogRegistryLimits) (registry : Int64WriteAheadLogRegistry) : Prop where
  limits_eq : registry.limits = limits
  members : ∀ key w, registry.writers.lookup key = some w → MemberInv limits w
  totals : registry.poisoned = false →
    registry.totalWalBytes = total (·.fileBytes) registry.writers ∧
    registry.totalRecords = total (·.records) registry.writers
  bytes_le : registry.totalWalBytes ≤ limits.maxTotalWalBytes
  records_le : registry.totalRecords ≤ limits.maxTotalRecords

theorem MemberInv.committed {limits : Int64WriteAheadLogRegistryLimits} {w : Int64WriteAheadLog} {payload : Bytes}
    (h : MemberInv limits w) (kind : UInt8) (hfits : RecordFits w.limits payload.length w.fileBytes w.records) :
    MemberInv limits (w.committed kind payload) := by
  have hrep := hfits.representable
  have hfile := hfits.maxFileBytes
  have hrecords := hfits.maxRecords
  have hcount := h.count_le
  have hoverhead : 1 ≤ int64WalFrameOverhead := by decide
  rw [h.limits_eq] at hfile hrecords
  rw [saturatingAdd_of_le (by omega)] at hrecords
  exact ⟨h.limits_eq, hfile, hrecords, by simp only [Int64WriteAheadLog.committed]; omega, hrep⟩

theorem members_replace {limits : Int64WriteAheadLogRegistryLimits} {writers : Map String Int64WriteAheadLog}
    {w' : Int64WriteAheadLog} (h : ∀ k w, writers.lookup k = some w → MemberInv limits w) (hw' : MemberInv limits w') :
    ∀ k w, (writers.replace key w').lookup k = some w → MemberInv limits w := by
  intro k w hk
  rw [lookup_replace] at hk
  split at hk
  · obtain ⟨_, _, rfl⟩ := Option.map_eq_some_iff.1 hk
    exact hw'
  · exact h k w hk

theorem Inv.step {limits : Int64WriteAheadLogRegistryLimits} (hinv : Inv limits registry)
    (h : Outcome registry key m registry' result) : Inv limits registry' := by
  cases h with
  | refused error _ _ => exact hinv
  | poisoned _ => exact hinv
  | committed w payload hp hw _ _ hfits hbytes hrecords =>
    have hmember := hinv.members key w hw
    obtain ⟨htotal, hcount⟩ := hinv.totals hp
    have hbytes' := total_replace (·.fileBytes) (w.committed (m.kind w.nullable) payload) hw
    have hrecords' := total_replace (·.records) (w.committed (m.kind w.nullable) payload) hw
    rw [hinv.limits_eq] at hbytes hrecords
    refine ⟨hinv.limits_eq, members_replace hinv.members (hmember.committed _ hfits), fun _ => ⟨?_, ?_⟩, hbytes, hrecords⟩
    · simp only [Int64WriteAheadLog.committed] at hbytes' ⊢; omega
    · simp only [Int64WriteAheadLog.committed] at hrecords' ⊢; omega
  | failed error w w' hp hw hlimits hfile hrecords _ _ =>
    have hmember := hinv.members key w hw
    refine ⟨hinv.limits_eq, members_replace hinv.members ?_, fun hp' => (Bool.noConfusion hp'), hinv.bytes_le,
      hinv.records_le⟩
    exact ⟨hlimits.trans hmember.limits_eq, hfile ▸ hmember.fileBytes, hrecords ▸ hmember.records,
      by rw [hfile, hrecords]; exact hmember.count_le, hfile ▸ hmember.representable⟩

/-! ## Creation -/

theorem validateDistinctTables_nodup : ∀ {tables : List Int64WalRegistryTablePreflight} {seen : List String},
    validateDistinctTables seen tables = .ok () →
      (tables.map fun t => toAsciiLowercase t.tableName).Nodup ∧ ∀ t ∈ tables, toAsciiLowercase t.tableName ∉ seen
  | [], seen, _ => ⟨List.nodup_nil, fun _ h => absurd h List.not_mem_nil⟩
  | table :: tables, seen, h => by
    obtain ⟨_, hfresh, h⟩ := bind_eq_ok.1 h
    obtain ⟨hnodup, hseen⟩ := validateDistinctTables_nodup h
    refine ⟨List.nodup_cons.2 ⟨?_, hnodup⟩, ?_⟩
    · intro hmem
      obtain ⟨t, ht, heq⟩ := List.mem_map.1 hmem
      exact hseen t ht (heq ▸ List.mem_cons_self)
    · intro t ht
      rcases List.mem_cons.1 ht with rfl | ht
      · exact failIf_eq_ok.1 hfresh
      · exact fun hmem => hseen t ht (List.mem_cons_of_mem _ hmem)

theorem frameBytes_eq {bootstrap : Int64WalBootstrap} {payload : Bytes} (h : encodeBootstrap bootstrap = some payload)
    (hmax : int64WalFrameOverhead + payload.length ≤ usizeMax) :
    bootstrap.frameBytes = int64WalFrameOverhead + payload.length := by
  rw [Int64WalBootstrap.frameBytes, bootstrapFrameBytes, bootstrapPayloadLen_of_encode h, Option.getD_some,
    saturatingAdd_of_le (by omega), Nat.add_comm]

theorem frameBytes_le_memoryBytes (bootstrap : Int64WalBootstrap) : bootstrap.frameBytes ≤ bootstrap.memoryBytes := by
  have hwidth : valueBytes bootstrap.nullable ≤ 9 := by unfold valueBytes; split <;> omega
  have hrows := Nat.mul_le_mul_left bootstrap.values.length hwidth
  have hoverhead : int64WalFrameOverhead = 48 := rfl
  unfold Int64WalBootstrap.frameBytes bootstrapFrameBytes Int64WalBootstrap.memoryBytes
  by_cases hle : 161 + (utf8 bootstrap.tableName).length + (utf8 bootstrap.columnName).length +
      bootstrap.values.length * valueBytes bootstrap.nullable ≤ usizeMax
  · rw [bootstrapPayloadLen_of_le hle, Option.getD_some]
    have := Nat.min_le_left (161 + (utf8 bootstrap.tableName).length + (utf8 bootstrap.columnName).length +
      bootstrap.values.length * valueBytes bootstrap.nullable + int64WalFrameOverhead) usizeMax
    unfold saturatingAdd; omega
  · have := Nat.min_le_right ((bootstrapPayloadLen (utf8 bootstrap.tableName).length (utf8 bootstrap.columnName).length
      bootstrap.values.length bootstrap.nullable).getD usizeMax + int64WalFrameOverhead) usizeMax
    unfold saturatingAdd; omega

theorem createMembers_inv {io : Nat → Int64WriteAheadLog.CreateIo} {limits : Int64WriteAheadLogRegistryLimits} :
    ∀ {bootstraps : List Int64WalBootstrap} {index : Nat} {writers writers' : Map String Int64WriteAheadLog},
      createMembers io limits.perTable index writers bootstraps = some (.ok writers') →
      (bootstraps.map fun b => toAsciiLowercase b.tableName).Nodup →
      (∀ b ∈ bootstraps, toAsciiLowercase b.tableName ∉ writers) →
      (∀ k w, writers.lookup k = some w → MemberInv limits w) →
      (∀ k w, writers'.lookup k = some w → MemberInv limits w) ∧
      total (·.fileBytes) writers' = total (·.fileBytes) writers + (bootstraps.map Int64WalBootstrap.frameBytes).sum ∧
      total (·.records) writers' = total (·.records) writers + bootstraps.length
  | [], index, writers, writers', h, _, _, hinv => by
    obtain rfl := Except.ok.inj (Option.some.inj h)
    exact ⟨hinv, rfl, rfl⟩
  | bootstrap :: bootstraps, index, writers, writers', h, hnodup, hfresh, hinv => by
    obtain ⟨created, hcreate, h⟩ := Option.bind_eq_some_iff.1 h
    cases created with
    | error e => cases Option.some.inj h
    | ok w =>
      obtain ⟨payload, hpayload, hfits, rfl⟩ := createInDirectory_ok hcreate
      obtain ⟨hnew, hnodup⟩ := List.nodup_cons.1 hnodup
      have hrep := hfits.representable
      have hfile := hfits.maxFileBytes
      have hrecords := hfits.maxRecords
      rw [Nat.zero_add] at hrep hfile
      have hkey := hfresh bootstrap List.mem_cons_self
      have hmember : MemberInv limits
          { file := encodeRecord bootstrapKind 0 payload, normalizedTableName := toAsciiLowercase bootstrap.tableName,
            nullable := bootstrap.nullable, limits := limits.perTable,
            fileBytes := int64WalFrameOverhead + payload.length, records := 1, poisoned := false } :=
        ⟨rfl, hfile, hrecords, by have : 1 ≤ int64WalFrameOverhead := by decide
                                  simp only; omega, hrep⟩
      have hrest := createMembers_inv h hnodup
        (fun b hb hmem => by
          rcases (AList.mem_insert _).1 hmem with heq | hmem
          · exact hnew (List.mem_map.2 ⟨b, hb, heq⟩)
          · exact hfresh b (List.mem_cons_of_mem _ hb) hmem)
        (fun k w hw => by
          by_cases hk : k = toAsciiLowercase bootstrap.tableName
          · subst hk
            rw [AList.lookup_insert] at hw
            exact Option.some.inj hw ▸ hmember
          · rw [AList.lookup_insert_ne hk] at hw
            exact hinv k w hw)
      obtain ⟨hmembers, hbytes, hcount⟩ := hrest
      rw [total_insert _ _ hkey] at hbytes hcount
      dsimp only at hbytes hcount
      refine ⟨hmembers, ?_, ?_⟩
      · rw [hbytes, List.map_cons, List.sum_cons, frameBytes_eq hpayload hrep]
        omega
      · rw [hcount, List.length_cons]; omega

theorem liftLimit_eq_ok {r : Except Int64WriteAheadLogRegistryLimitError Unit} : liftLimit r = .ok () ↔ r = .ok () := by
  unfold liftLimit
  cases r <;> simp

theorem createRegistry_inv {io : CreateRegistryIo} {bootstraps : BootstrapVec}
    {limits : Int64WriteAheadLogRegistryLimits} (h : createRegistry io bootstraps limits = some (.ok registry)) :
    Inv limits registry ∧ registry.poisoned = false := by
  unfold createRegistry at h
  split at h
  · cases Option.some.inj h
  rename_i hpreflight
  obtain ⟨_, _, hpreflight⟩ := bind_eq_ok.1 hpreflight
  obtain ⟨_, hdistinct, _⟩ := bind_eq_ok.1 hpreflight
  obtain ⟨hnodup, -⟩ := validateDistinctTables_nodup hdistinct
  simp only at h
  generalize hsorted : (bootstraps.tables.insertionSort fun left right =>
    toAsciiLowercase left.tableName ≤ toAsciiLowercase right.tableName) = sorted at h
  have hperm : sorted.Perm bootstraps.tables := hsorted ▸ List.perm_insertionSort _ _
  have hsum : (sorted.map Int64WalBootstrap.frameBytes).sum ≤ usizeMax := by
    rw [(hperm.map _).sum_eq]
    exact Nat.le_trans (List.sum_le_sum fun b _ => frameBytes_le_memoryBytes b) bootstraps.addressable
  have hfold := (foldl_saturatingAdd_zero (sorted.map Int64WalBootstrap.frameBytes)).trans (Nat.min_eq_left hsum)
  split at h
  · cases Option.some.inj h
  rename_i hopen
  obtain ⟨created, hcreate, h⟩ := Option.bind_eq_some_iff.1 h
  cases created with
  | error e => cases Option.some.inj h
  | ok writers =>
    simp only at h
    split at h
    · cases Option.some.inj h
    obtain rfl := Except.ok.inj (Option.some.inj h)
    have hnodup' : (sorted.map fun b => toAsciiLowercase b.tableName).Nodup := by
      rw [List.map_map] at hnodup
      exact (hperm.map _).nodup_iff.2 hnodup
    obtain ⟨hmembers, hbytes, hcount⟩ := createMembers_inv hcreate hnodup' (fun _ _ => AList.notMem_empty _)
      (fun k w hw => by simp at hw)
    obtain ⟨_, hlimit, -⟩ := bind_eq_ok.1 hopen
    obtain ⟨hmaxBytes, hmaxRecords⟩ := validateRegistryTotals_eq_ok.1 (liftLimit_eq_ok.1 hlimit)
    refine ⟨⟨rfl, hmembers, fun _ => ⟨?_, ?_⟩, hmaxBytes, hmaxRecords⟩, rfl⟩
    · rw [hbytes, ← hfold]; exact (Nat.zero_add _).symm
    · rw [hcount]; exact (Nat.zero_add _).symm

/-! ## Runs -/

/-- One call on the registry, whatever it returns. -/
def Step (registry registry' : Int64WriteAheadLogRegistry) : Prop :=
  ∃ io table m result, registry.log io table m = some (registry', result)

inductive Reachable (limits : Int64WriteAheadLogRegistryLimits) : Int64WriteAheadLogRegistry → Prop
  | created {io : CreateRegistryIo} {bootstraps : BootstrapVec} {registry : Int64WriteAheadLogRegistry} :
      createRegistry io bootstraps limits = some (.ok registry) → Reachable limits registry
  | step {registry registry' : Int64WriteAheadLogRegistry} :
      Reachable limits registry → Step registry registry' → Reachable limits registry'

theorem Reachable.inv {limits : Int64WriteAheadLogRegistryLimits} (h : Reachable limits registry) : Inv limits registry := by
  induction h with
  | created hcreate => exact (createRegistry_inv hcreate).1
  | step _ hstep ih =>
    obtain ⟨io, table, m, result, hlog⟩ := hstep
    exact ih.step (log_cases hlog)

theorem log_of_poisoned (hp : registry.poisoned = true) (h : registry.log io table m = some (registry', result)) :
    registry' = registry ∧ result = .error .poisoned := by
  cases log_cases h with
  | committed _ _ hp' => rw [hp] at hp'; cases hp'
  | refused _ hp' => rw [hp] at hp'; cases hp'
  | poisoned _ => exact ⟨rfl, rfl⟩
  | failed _ _ _ hp' => rw [hp] at hp'; cases hp'

theorem steps_of_poisoned (hp : registry.poisoned = true) (h : Relation.ReflTransGen Step registry registry') :
    registry' = registry := by
  induction h with
  | refl => rfl
  | tail _ hstep ih =>
    subst ih
    obtain ⟨io, table, m, result, hlog⟩ := hstep
    exact (log_of_poisoned hp hlog).1

/-- **Registry accounting.** -/
theorem registry_accounting {limits : Int64WriteAheadLogRegistryLimits} {registry : Int64WriteAheadLogRegistry}
    (h : Reachable limits registry) :
    (registry.poisoned = false →
      registry.totalWalBytes = total (·.fileBytes) registry.writers ∧
      registry.totalRecords = total (·.records) registry.writers) ∧
    (registry.totalWalBytes ≤ limits.maxTotalWalBytes ∧ registry.totalRecords ≤ limits.maxTotalRecords) ∧
    (∀ key w, registry.writers.lookup key = some w →
      w.fileBytes ≤ limits.perTable.maxFileBytes ∧ w.records ≤ limits.perTable.maxRecords) ∧
    (∀ io table m registry' error, registry.log io table m = some (registry', .error error) →
      (error.IsLimit → registry' = registry) ∧ (¬ error.IsLimit → registry'.poisoned = true)) ∧
    (registry.poisoned = true → ∀ registry', Relation.ReflTransGen Step registry registry' → registry' = registry) := by
  have hinv := h.inv
  refine ⟨hinv.totals, ⟨hinv.bytes_le, hinv.records_le⟩, ?_, ?_, fun hp registry' => steps_of_poisoned hp⟩
  · intro key w hw
    exact ⟨(hinv.members key w hw).fileBytes, (hinv.members key w hw).records⟩
  · intro io table m registry' error hlog
    cases log_cases hlog with
    | refused _ _ hlimit => exact ⟨fun _ => rfl, fun hn => absurd hlimit hn⟩
    | poisoned hp => exact ⟨fun hlimit => False.elim hlimit, fun _ => hp⟩
    | failed _ _ _ _ _ _ _ _ _ hnot => exact ⟨fun hlimit => absurd hlimit hnot, fun _ => rfl⟩

/-! ## A sample registry -/

def sampleRegistryLimits : Int64WriteAheadLogRegistryLimits :=
  { maxTables := 4, maxManifestBytes := 1024, maxTotalWalBytes := 4096, maxTotalRecords := 16, perTable := sampleLimits }

def sampleBootstraps : BootstrapVec where
  tables := [sampleBootstrap, { sampleBootstrap with tableName := "alpha", nullable := false, values := [some 1] }]
  addressable := by decide +kernel

def sampleRegistryIo : CreateRegistryIo :=
  { validDestination := true, openParent := none, createDirectory := none, syncParent := none, openDirectory := none,
    members := fun _ => ⟨none, .success, none⟩, createManifest := none, writeManifest := none, syncManifest := none,
    syncDirectory := none }

/-- Calls whose bytes all reach the disk, in order. -/
def logAll (registry : Int64WriteAheadLogRegistry) : List (String × WalMutation) → Option Int64WriteAheadLogRegistry
  | [] => some registry
  | (table, m) :: calls => do
    let (registry, _) ← registry.log .success table m
    registry.logAll calls

theorem Reachable.logAll {limits : Int64WriteAheadLogRegistryLimits} :
    ∀ {calls : List (String × WalMutation)} {registry registry' : Int64WriteAheadLogRegistry},
      Reachable limits registry → registry.logAll calls = some registry' → Reachable limits registry'
  | [], _, _, h, hrun => Option.some.inj hrun ▸ h
  | _ :: _, _, _, h, hrun => by
    obtain ⟨_, hlog, hrun⟩ := Option.bind_eq_some_iff.1 hrun
    exact (h.step ⟨_, _, _, _, hlog⟩).logAll hrun

def sampleCalls : List (String × WalMutation) :=
  [("events", .append [some 3, none]), ("EVENTS", .replace [(0, none), (3, some 5)]), ("Alpha", .truncate)]

def overlongAppend : WalMutation := .append (List.replicate 200 none)

def failedSync : CommitIo := { CommitIo.success with syncBody := some ⟨.other, "lost"⟩ }

/-- The error of a call, if it returns one. -/
def failure (io : CommitIo) (registry : Int64WriteAheadLogRegistry) (table : String) (m : WalMutation) :
    Option Int64WriteAheadLogCommitError :=
  (registry.log io table m).bind fun result => match result.2 with
    | .ok () => none
    | .error error => some error

theorem log_of_failure {error : Int64WriteAheadLogCommitError} (h : registry.failure io table m = some error) :
    ∃ registry', registry.log io table m = some (registry', .error error) := by
  obtain ⟨⟨registry', result⟩, hlog, h⟩ := Option.bind_eq_some_iff.1 h
  cases result with
  | ok u => cases h
  | error e => exact ⟨registry', Option.some.inj h ▸ hlog⟩

theorem sample_reachable : ∃ registry, Reachable sampleRegistryLimits registry ∧ registry.poisoned = false ∧
    registry.totalWalBytes = 671 ∧ registry.totalRecords = 5 ∧
    registry.failure .success "events" overlongAppend = some (.limit (.recordBytes 3 1808 1024)) ∧
    registry.failure failedSync "alpha" .truncate = some (.syncFile .other "lost") := by
  have hsample : (createRegistry sampleRegistryIo sampleBootstraps sampleRegistryLimits).bind (fun created =>
      created.toOption.bind fun registry => (registry.logAll sampleCalls).map fun registry =>
        (registry.poisoned, registry.totalWalBytes, registry.totalRecords,
          registry.failure .success "events" overlongAppend, registry.failure failedSync "alpha" .truncate)) =
      some (false, 671, 5, some (.limit (.recordBytes 3 1808 1024)), some (.syncFile .other "lost")) := by
    decide +kernel
  obtain ⟨created, hcreate, hsample⟩ := Option.bind_eq_some_iff.1 hsample
  cases created with
  | error e => cases hsample
  | ok registry =>
    obtain ⟨registry', hrun, hsample⟩ := Option.map_eq_some_iff.1 hsample
    simp only [Prod.mk.injEq] at hsample
    exact ⟨registry', (Reachable.created hcreate).logAll hrun, hsample⟩

/-- Two members are appended to, replaced and emptied; a record that is too large is refused, and a lost write is
final. -/
theorem registry_accounting_sample : ∃ registry, Reachable sampleRegistryLimits registry ∧
    total (·.fileBytes) registry.writers = 671 ∧ total (·.records) registry.writers = 5 ∧
    registry.log .success "events" overlongAppend = some (registry, .error (.limit (.recordBytes 3 1808 1024))) ∧
    ∃ poisoned, registry.log failedSync "alpha" .truncate = some (poisoned, .error (.syncFile .other "lost")) ∧
      poisoned.poisoned = true ∧ ∀ registry', Relation.ReflTransGen Step poisoned registry' → registry' = poisoned := by
  obtain ⟨registry, hreach, hp, hbytes, hrecords, hrefused, hfailed⟩ := sample_reachable
  obtain ⟨htotals, -, -, herrors, -⟩ := registry_accounting hreach
  obtain ⟨kept, hrefused⟩ := log_of_failure hrefused
  obtain ⟨poisoned, hfailed⟩ := log_of_failure hfailed
  obtain rfl := (herrors _ _ _ _ _ hrefused).1 trivial
  have hpoisoned := (herrors _ _ _ _ _ hfailed).2 id
  obtain ⟨-, -, -, -, hfinal⟩ := registry_accounting (hreach.step ⟨_, _, _, _, hfailed⟩)
  exact ⟨_, hreach, (htotals hp).1.symm.trans hbytes, (htotals hp).2.symm.trans hrecords, hrefused, poisoned, hfailed,
    hpoisoned, hfinal hpoisoned⟩

end Int64WriteAheadLogRegistry

end RustHouse
