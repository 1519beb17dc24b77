import Mathlib.Data.String.Basic
import RustHouse.RegistryManifest
import RustHouse.RegistrySound
import RustHouse.SnapshotSound

/-!
# The manifest codec

What the manifest encoder writes and what the decoder accepts, each in one
equation. They differ only where a count or a length does not fit 32 bits.
-/

namespace RustHouse

open Exec Words
open Checked (usizeMax saturatingAdd)
open Int64WriteAheadLogRegistry (sampleBootstraps sampleRegistryLimits)

/-! ## Fields -/

@[simp] theorem length_u32SizeBytes (n : Nat) : (u32SizeBytes n).length = 4 := length_leBytes 4 n

theorem ofLeBytes_u32SizeBytes {n : Nat} (h : n < 2 ^ 32) : ofLeBytes (u32SizeBytes n) = n := ofLeBytes_leBytes h

theorem u32SizeBytes_ofLeBytes {bs : Bytes} (h : bs.length = 4) : u32SizeBytes (ofLeBytes bs) = bs := by
  rw [u32SizeBytes, ← h, leBytes_ofLeBytes]

theorem ofLeBytes_lt_u32 {bs : Bytes} (h : bs.length = 4) : ofLeBytes bs < 2 ^ 32 := by
  have hlt := ofLeBytes_lt bs
  rwa [h] at hlt

theorem registryString_eq_ok {field value : String} {payload rest : Bytes} :
    registryString field payload = .ok (value, rest) ↔
      (utf8 value).length < 2 ^ 32 ∧ payload = pushRegistryBytes (utf8 value) ++ rest := by
  simp only [registryString, Exec.bind_eq_ok, getOr_eq_ok, Exec.ok.injEq]
  constructor
  · rintro ⟨⟨lengthBytes, rest'⟩, hlength, ⟨bytes, rest''⟩, hbytes, text, htext, hresult⟩
    obtain ⟨rfl, rfl⟩ := Prod.mk.inj hresult
    obtain ⟨rfl, hlengthLen⟩ := takeBytes_eq_some.1 hlength
    obtain ⟨rfl, hbytesLen⟩ := takeBytes_eq_some.1 hbytes
    have hutf8 := utf8_of_fromUtf8 htext
    rw [hutf8, hbytesLen]
    refine ⟨ofLeBytes_lt_u32 hlengthLen, ?_⟩
    rw [pushRegistryBytes, hbytesLen, u32SizeBytes_ofLeBytes hlengthLen, List.append_assoc]
  · rintro ⟨hshort, rfl⟩
    refine ⟨(u32SizeBytes (utf8 value).length, utf8 value ++ rest), ?_, (utf8 value, rest), ?_, value,
      fromUtf8_utf8 value, rfl⟩
    · rw [pushRegistryBytes, List.append_assoc]
      exact takeBytes_append' _ (length_u32SizeBytes _)
    · exact takeBytes_append' _ (ofLeBytes_u32SizeBytes hshort).symm

/-! ## Descriptors -/

/-- Both names of a descriptor fit a 32-bit length. -/
def RegistryDescriptor.Short (descriptor : RegistryDescriptor) : Prop :=
  (utf8 descriptor.table).length < 2 ^ 32 ∧ (utf8 descriptor.member).length < 2 ^ 32

theorem RegistryDescriptor.length_bytes (descriptor : RegistryDescriptor) :
    descriptor.bytes.length = 8 + (utf8 descriptor.table).length + (utf8 descriptor.member).length := by
  simp only [RegistryDescriptor.bytes, pushRegistryBytes, List.length_append, length_u32SizeBytes]
  omega

/-- What the decoder asks of the next descriptors, after those whose names and last descriptor are given. -/
def Listed (tables members : List String) (previous : Option RegistryDescriptor) : List RegistryDescriptor → Prop
  | [] => True
  | descriptor :: descriptors =>
    toAsciiLowercase descriptor.table ∉ tables ∧
    (∀ before ∈ previous, ¬ toAsciiLowercase descriptor.table ≤ toAsciiLowercase before.table) ∧
    toAsciiLowercase descriptor.member ∉ members ∧ safeRegistryMember descriptor.member = true ∧
    Listed (toAsciiLowercase descriptor.table :: tables) (toAsciiLowercase descriptor.member :: members)
      (some descriptor) descriptors

theorem inOrder_eq_ok {previous : Option RegistryDescriptor} {table : String} {u : Unit} :
    inOrder previous table = .ok u ↔
      ∀ before ∈ previous, ¬ toAsciiLowercase table ≤ toAsciiLowercase before.table := by
  cases previous <;> simp [inOrder]

theorem readRegistryDescriptors_eq_ok : ∀ {count : Nat} {tables members : List String}
    {previous : Option RegistryDescriptor} {payload rest : Bytes} {descriptors : List RegistryDescriptor},
    readRegistryDescriptors tables members previous count payload = .ok (descriptors, rest) ↔
      descriptors.length = count ∧ (∀ descriptor ∈ descriptors, descriptor.Short) ∧
      Listed tables members previous descriptors ∧ payload = descriptors.flatMap RegistryDescriptor.bytes ++ rest
  | 0, tables, members, previous, payload, rest, descriptors => by
    rw [readRegistryDescriptors, Exec.ok.injEq, Prod.mk.injEq, List.length_eq_zero_iff]
    constructor
    · rintro ⟨rfl, rfl⟩
      exact ⟨rfl, List.forall_mem_nil _, trivial, rfl⟩
    · rintro ⟨rfl, _, _, rfl⟩
      exact ⟨rfl, rfl⟩
  | count + 1, tables, members, previous, payload, rest, descriptors => by
    simp only [readRegistryDescriptors, Exec.bind_eq_ok, rejectIf_eq_ok, registryString_eq_ok, inOrder_eq_ok,
      Prod.exists, readRegistryDescriptors_eq_ok, Exec.ok.injEq, Prod.mk.injEq, not_not]
    constructor
    · rintro ⟨table, _, ⟨htable, rfl⟩, member, _, ⟨hmember, rfl⟩, _, htables, _, horder, _, hmembers, _, hsafe,
        descriptors, _, ⟨hlen, hshort, hlisted, rfl⟩, rfl, rfl⟩
      refine ⟨by rw [List.length_cons, hlen], List.forall_mem_cons.2 ⟨⟨htable, hmember⟩, hshort⟩,
        ⟨htables, horder, hmembers, hsafe, hlisted⟩, ?_⟩
      rw [List.flatMap_cons, RegistryDescriptor.bytes, List.append_assoc, List.append_assoc]
    · rintro ⟨hlen, hshort, hlisted, rfl⟩
      cases descriptors with
      | nil => cases hlen
      | cons descriptor descriptors =>
        obtain ⟨⟨htable, hmember⟩, hshorts⟩ := List.forall_mem_cons.1 hshort
        obtain ⟨htables, horder, hmembers, hsafe, hlisted⟩ := hlisted
        refine ⟨_, _, ⟨htable, ?_⟩, _, _, ⟨hmember, rfl⟩, (), htables, (), horder, (), hmembers, (), hsafe,
          descriptors, rest, ⟨Nat.succ.inj hlen, hshorts, hlisted, rfl⟩, rfl, rfl⟩
        rw [List.flatMap_cons, RegistryDescriptor.bytes, List.append_assoc, List.append_assoc]

theorem listed_iff : ∀ {descriptors : List RegistryDescriptor} {tables members : List String}
    {previous : Option RegistryDescriptor},
    (∀ table ∈ tables, ∃ before ∈ previous, table ≤ toAsciiLowercase before.table) →
    (Listed tables members previous descriptors ↔
      (∀ before ∈ previous, ∀ descriptor ∈ descriptors,
        toAsciiLowercase before.table < toAsciiLowercase descriptor.table) ∧
      (∀ descriptor ∈ descriptors, toAsciiLowercase descriptor.member ∉ members) ∧
      (descriptors.Pairwise fun earlier later => toAsciiLowercase earlier.table < toAsciiLowercase later.table) ∧
      (descriptors.Pairwise fun earlier later => toAsciiLowercase earlier.member ≠ toAsciiLowercase later.member) ∧
      ∀ descriptor ∈ descriptors, safeRegistryMember descriptor.member = true)
  | [], tables, members, previous, _ => by simp [Listed]
  | descriptor :: descriptors, tables, members, previous, htables => by
    have hnext : ∀ table ∈ toAsciiLowercase descriptor.table :: tables,
        (∀ before ∈ previous, ¬ toAsciiLowercase descriptor.table ≤ toAsciiLowercase before.table) →
        ∃ before ∈ some descriptor, table ≤ toAsciiLowercase before.table := by
      intro table htable horder
      refine ⟨descriptor, rfl, ?_⟩
      rcases List.mem_cons.1 htable with rfl | htable
      · exact le_refl _
      · obtain ⟨before, hbefore, hle⟩ := htables table htable
        exact hle.trans (not_le.1 (horder before hbefore)).le
    rw [Listed]
    constructor
    · rintro ⟨_, horder, hmember, hsafe, hlisted⟩
      obtain ⟨hafter, hmembers, hordered, hdistinct, hsafes⟩ :=
        (listed_iff fun table htable => hnext table htable horder).1 hlisted
      refine ⟨fun before hbefore => List.forall_mem_cons.2 ⟨not_le.1 (horder before hbefore), fun next hnext => ?_⟩,
        List.forall_mem_cons.2 ⟨hmember, fun next hnext => fun hmem => hmembers next hnext (List.mem_cons_of_mem _ hmem)⟩,
        List.pairwise_cons.2 ⟨hafter descriptor rfl, hordered⟩,
        List.pairwise_cons.2 ⟨fun next hnext heq => hmembers next hnext (heq ▸ List.mem_cons_self), hdistinct⟩,
        List.forall_mem_cons.2 ⟨hsafe, hsafes⟩⟩
      exact (not_le.1 (horder before hbefore)).trans (hafter descriptor rfl next hnext)
    · rintro ⟨hafter, hmembers, hordered, hdistinct, hsafes⟩
      obtain ⟨hmember, hmembers⟩ := List.forall_mem_cons.1 hmembers
      obtain ⟨hfirst, hordered⟩ := List.pairwise_cons.1 hordered
      obtain ⟨hother, hdistinct⟩ := List.pairwise_cons.1 hdistinct
      obtain ⟨hsafe, hsafes⟩ := List.forall_mem_cons.1 hsafes
      have horder : ∀ before ∈ previous, ¬ toAsciiLowercase descriptor.table ≤ toAsciiLowercase before.table :=
        fun before hbefore => not_le.2 (hafter before hbefore descriptor List.mem_cons_self)
      refine ⟨fun htable => ?_, horder, hmember, hsafe, (listed_iff fun table htable => hnext table htable horder).2
        ⟨?_, ?_, hordered, hdistinct, hsafes⟩⟩
      · obtain ⟨before, hbefore, hle⟩ := htables _ htable
        exact horder before hbefore hle
      · intro before hbefore
        rw [← Option.mem_some_iff.1 hbefore]
        exact hfirst
      · intro next hnext hmem
        rcases List.mem_cons.1 hmem with heq | hmem
        · exact hother next hnext heq.symm
        · exact hmembers next hnext hmem

/-- Descriptors as a registry keeps them: tables in order of their names, members distinct and safe. -/
structure Listable (descriptors : List RegistryDescriptor) : Prop where
  ordered : descriptors.Pairwise fun earlier later => toAsciiLowercase earlier.table < toAsciiLowercase later.table
  distinct : descriptors.Pairwise fun earlier later => toAsciiLowercase earlier.member ≠ toAsciiLowercase later.member
  safe : ∀ descriptor ∈ descriptors, safeRegistryMember descriptor.member = true

theorem listed_iff_listable {descriptors : List RegistryDescriptor} :
    Listed [] [] none descriptors ↔ Listable descriptors := by
  rw [listed_iff (List.forall_mem_nil _)]
  constructor
  · rintro ⟨_, _, hordered, hdistinct, hsafe⟩
    exact ⟨hordered, hdistinct, hsafe⟩
  · rintro ⟨hordered, hdistinct, hsafe⟩
    exact ⟨by rintro _ ⟨⟩, fun _ _ => List.not_mem_nil, hordered, hdistinct, hsafe⟩

theorem pathComponents_of_safe {member : String} (h : safeRegistryMember member = true) :
    pathComponents (utf8 member) = [.normal (utf8 member)] := by
  simp only [safeRegistryMember, Bool.and_eq_true, Bool.not_eq_true', bne_iff_ne, List.contains_eq_mem,
    decide_eq_false_iff_not] at h
  obtain ⟨⟨⟨⟨⟨⟨hempty, hdot⟩, hdots⟩, _⟩, _⟩, hslash⟩, _⟩ := h
  refine pathComponents_normal hslash (fun heq => ?_) (fun heq => hdot ?_) fun heq => hdots ?_
  · have hnil : member = "" := utf8_injective heq
    rw [hnil] at hempty
    cases hempty
  · exact utf8_injective heq
  · exact utf8_injective heq

/-! ## The whole file -/

def manifestPayload (descriptors : List RegistryDescriptor) : Bytes := descriptors.flatMap RegistryDescriptor.bytes

def manifestBytes (descriptors : List RegistryDescriptor) : Bytes :=
  registryManifestMagic ++ (u16Bytes registryManifestVersion ++ (u16Bytes 0 ++ (u32SizeBytes descriptors.length ++
    (sizeBytes (manifestPayload descriptors).length ++
      (u32Bytes (registryManifestChecksum descriptors.length (manifestPayload descriptors)) ++
        manifestPayload descriptors)))))

theorem length_manifestBytes (descriptors : List RegistryDescriptor) :
    (manifestBytes descriptors).length = registryManifestHeaderLen + (manifestPayload descriptors).length := by
  have hmagic : registryManifestMagic.length = 8 := rfl
  simp only [manifestBytes, List.length_append, hmagic, length_u16Bytes, length_u32SizeBytes, length_sizeBytes,
    length_u32Bytes, registryManifestHeaderLen]
  omega

theorem length_manifestPayload (descriptors : List RegistryDescriptor) :
    descriptors.length * registryDescriptorMinPayloadLen ≤ (manifestPayload descriptors).length := by
  induction descriptors with
  | nil => exact Nat.le_refl _
  | cons descriptor descriptors ih =>
    have hbytes := descriptor.length_bytes
    rw [manifestPayload] at ih ⊢
    rw [List.flatMap_cons, List.length_append, List.length_cons, Nat.succ_mul]
    unfold registryDescriptorMinPayloadLen at ih ⊢
    omega

section
variable {descriptors : List RegistryDescriptor} {manifest : ByteSpan} {limits : Int64WriteAheadLogRegistryLimits}

theorem encodeRegistryManifest_eq_ok :
    encodeRegistryManifest descriptors = .ok manifest ↔ manifest.val = manifestBytes descriptors := by
  simp only [encodeRegistryManifest, ByteSpan.collect_eq_ok, manifestBytes, manifestPayload, List.append_assoc]

theorem checked_eq_ok {ε α : Type} {result : Except ε α} {a : α} : checked result = .ok a ↔ result = .ok a := by
  cases result <;> simp [checked]

theorem decodeRegistryManifest_eq_ok :
    decodeRegistryManifest manifest limits = .ok descriptors ↔
      validateRegistryTableCount descriptors.length limits = .ok () ∧ descriptors.length < 2 ^ 32 ∧
      (∀ descriptor ∈ descriptors, descriptor.Short) ∧ Listable descriptors ∧
      manifest.val = manifestBytes descriptors := by
  simp only [decodeRegistryManifest, Exec.bind_eq_ok, rejectIf_eq_ok, checked_eq_ok, ByteSpan.readArray_eq_ok,
    ByteSpan.range_eq_ok, Exec.ok.injEq, not_not, Nat.not_lt, Prod.exists, readRegistryDescriptors_eq_ok,
    listed_iff_listable]
  constructor
  · rintro ⟨_, hheader, _, ⟨_, hmagicLen, hmagic⟩, _, rfl, version, ⟨_, hversionLen, hversion⟩, _, hsupported,
      reserved, ⟨_, hreservedLen, hreserved⟩, _, hzero, count, ⟨_, hcountLen, hcount⟩, _, htables,
      declared, ⟨_, hdeclaredLen, hdeclared⟩, _, hactual, expected, ⟨_, hexpectedLen, hexpected⟩,
      payload, ⟨_, _, hpayload⟩, _, hchecksum, _, _, found, rest, ⟨hlen, hshort, hlisted, hfound⟩, _, hrest, rfl⟩
    have hafter : payload.val = manifest.val.drop registryManifestHeaderLen := by
      rw [hpayload, List.take_of_length_le (by rw [List.length_drop])]
    rw [hrest, List.append_nil, ← manifestPayload] at hfound
    have hsize : (manifestPayload found).length = ofLeBytes declared := by
      rw [← hfound, hafter, List.length_drop, hactual]
    refine ⟨hlen ▸ htables, hlen ▸ ofLeBytes_lt_u32 hcountLen, hshort, hlisted, ?_⟩
    rw [List.drop_zero] at hmagic
    rw [manifestBytes, hlen, hsize, ← hfound, ← hchecksum, ← hsupported, ← hzero, u16Bytes_u16OfBytes hversionLen,
      u16Bytes_u16OfBytes hreservedLen, u32SizeBytes_ofLeBytes hcountLen, sizeBytes_ofLeBytes hdeclaredLen,
      u32Bytes_u32OfBytes hexpectedLen, hafter]
    calc manifest.val = registryManifestMagic ++ manifest.val.drop 8 := hmagic
      _ = registryManifestMagic ++ (version ++ manifest.val.drop 10) := by rw [hversion]
      _ = registryManifestMagic ++ (version ++ (reserved ++ manifest.val.drop 12)) := by rw [hreserved]
      _ = registryManifestMagic ++ (version ++ (reserved ++ (count ++ manifest.val.drop 16))) := by rw [hcount]
      _ = registryManifestMagic ++ (version ++ (reserved ++ (count ++ (declared ++ manifest.val.drop 24)))) := by
        rw [hdeclared]
      _ = _ := by rw [hexpected]; rfl
  · rintro ⟨htables, hcount, hshort, hlistable, hmanifest⟩
    have hlen := length_manifestBytes descriptors
    have hentries := length_manifestPayload descriptors
    rw [← hmanifest] at hlen
    have hfits := ByteSpan.length_le manifest
    have hheader : registryManifestHeaderLen ≤ manifest.val.length := by omega
    have hsize : ofLeBytes (sizeBytes (manifestPayload descriptors).length) = (manifestPayload descriptors).length :=
      ofLeBytes_sizeBytes (by omega)
    have hmagic : registryManifestMagic.length = 8 := rfl
    have d₀ : manifest.val.drop 0 = _ := hmanifest
    have d₈ := drop_add_of_eq d₀ hmagic
    have d₁₀ := drop_add_of_eq d₈ (length_u16Bytes _)
    have d₁₂ := drop_add_of_eq d₁₀ (length_u16Bytes _)
    have d₁₆ := drop_add_of_eq d₁₂ (length_u32SizeBytes _)
    have d₂₄ := drop_add_of_eq d₁₆ (length_sizeBytes _)
    have d₂₈ : manifest.val.drop 28 = manifestPayload descriptors := drop_add_of_eq d₂₄ (length_u32Bytes _)
    refine ⟨(), hheader, registryManifestMagic, ⟨Nat.le_trans (by decide) hheader, hmagic, drop_eq_field d₀ hmagic⟩,
      (), rfl, u16Bytes registryManifestVersion,
      ⟨Nat.le_trans (by decide) hheader, rfl, drop_eq_field d₈ (length_u16Bytes _)⟩, (), u16OfBytes_u16Bytes _,
      u16Bytes 0, ⟨Nat.le_trans (by decide) hheader, rfl, drop_eq_field d₁₀ (length_u16Bytes _)⟩, (),
      u16OfBytes_u16Bytes _, u32SizeBytes descriptors.length,
      ⟨Nat.le_trans (by decide) hheader, length_u32SizeBytes _, drop_eq_field d₁₂ (length_u32SizeBytes _)⟩, ?_⟩
    rw [ofLeBytes_u32SizeBytes hcount]
    refine ⟨(), htables, sizeBytes (manifestPayload descriptors).length,
      ⟨Nat.le_trans (by decide) hheader, length_sizeBytes _, drop_eq_field d₁₆ (length_sizeBytes _)⟩, (),
      by rw [hsize]; omega, u32Bytes (registryManifestChecksum descriptors.length (manifestPayload descriptors)),
      ⟨Nat.le_trans (by decide) hheader, length_u32Bytes _, drop_eq_field d₂₄ (length_u32Bytes _)⟩,
      ⟨manifestPayload descriptors, by have := manifest.property; omega⟩, ⟨hheader, Nat.le_refl _, ?_⟩, (),
      u32OfBytes_u32Bytes _, (), ?_, descriptors, [], ⟨rfl, hshort, hlistable, ?_⟩, (), rfl, rfl⟩
    · show manifestPayload descriptors = (manifest.val.drop 28).take (manifest.val.length - registryManifestHeaderLen)
      rw [d₂₈, hlen, Nat.add_sub_cancel_left, List.take_length]
    · exact (Nat.le_div_iff_mul_le (by decide)).2 hentries
    · exact (List.append_nil _).symm

end

/-! ## The size computed before writing -/

theorem decimalDigits_eq_length (n : Nat) : decimalDigits n = (Nat.toDigits 10 n).length := by
  induction n using decimalDigits.induct with
  | case1 n h => rw [decimalDigits, if_pos h, Nat.toDigits_of_lt_base h, List.length_singleton]
  | case2 n h ih =>
    rw [decimalDigits, if_neg h, Nat.toDigits_of_base_le (by decide) (Nat.not_lt.1 h), List.length_append, ← ih,
      List.length_singleton]

theorem length_registryMemberName (index : Nat) :
    (utf8 (registryMemberName index)).length = generatedRegistryMemberNameLen index := by
  have hdigits : (utf8 (toString index)).length = decimalDigits index := by
    rw [length_utf8_toString, decimalDigits_eq_length]
  have hchars : (toString index).length = decimalDigits index := by
    rw [Nat.toString_eq_ofList_toDigits, decimalDigits_eq_length, String.length_ofList]
  have hzeros : (utf8 (String.ofList (List.replicate (8 - decimalDigits index) '0'))).length =
      8 - decimalDigits index := by
    rw [length_utf8_ofList, List.length_replicate]
    intro c hc
    rw [List.eq_of_mem_replicate hc]
    rfl
  have htable : (utf8 "table-").length = 6 := rfl
  have hwal : (utf8 ".wal").length = 4 := rfl
  rw [registryMemberName, generatedRegistryMemberNameLen, hchars]
  simp only [utf8_append, List.length_append, hdigits, hzeros, htable, hwal]
  omega

theorem decimalDigits_le {n k : Nat} (hk : 0 < k) (h : n < 10 ^ k) : decimalDigits n ≤ k := by
  rw [decimalDigits_eq_length, Nat.length_toDigits_le_iff (by decide) hk]
  exact h

def descriptorBytes : Nat → List Int64WalRegistryTablePreflight → Nat
  | _, [] => 0
  | index, table :: tables =>
    8 + (utf8 table.tableName).length + generatedRegistryMemberNameLen index + descriptorBytes (index + 1) tables

theorem preflightBytes_manifest {limits : Int64WriteAheadLogRegistryLimits} :
    ∀ {tables : List Int64WalRegistryTablePreflight} {index bootstrapBytes manifest bootstrapBytes' manifest' : Nat},
      preflightBytes limits index bootstrapBytes manifest tables = .ok (bootstrapBytes', manifest') →
      manifest + descriptorBytes index tables ≤ usizeMax → manifest' = manifest + descriptorBytes index tables
  | [], _, _, _, _, _, h, _ => by
    rw [preflightBytes, Except.ok.injEq, Prod.mk.injEq] at h
    rw [descriptorBytes, Nat.add_zero, h.2]
  | table :: tables, index, bootstrapBytes, manifest, bootstrapBytes', manifest', h, hfits => by
    rw [descriptorBytes] at hfits ⊢
    rw [preflightBytes] at h
    split at h
    · cases h
    · have hsum : saturatingAdd (saturatingAdd (saturatingAdd (saturatingAdd manifest 4) (utf8 table.tableName).length) 4)
          (generatedRegistryMemberNameLen index) =
          manifest + (8 + (utf8 table.tableName).length + generatedRegistryMemberNameLen index) := by
        unfold saturatingAdd; omega
      rw [hsum] at h
      rw [preflightBytes_manifest h (by omega), Nat.add_assoc]

theorem descriptorBytes_perm {tables tables' : List Int64WalRegistryTablePreflight} (h : tables.Perm tables') :
    ∀ index, descriptorBytes index tables = descriptorBytes index tables' := by
  induction h with
  | nil => exact fun _ => rfl
  | cons table _ ih => exact fun index => by rw [descriptorBytes, descriptorBytes, ih]
  | swap table table' tables => exact fun index => by simp only [descriptorBytes]; omega
  | trans _ _ ih ih' => exact fun index => (ih index).trans (ih' index)

theorem length_manifestPayload_generated : ∀ (bootstraps : List Int64WalBootstrap) (index : Nat),
    (manifestPayload (bootstraps.mapIdx fun i bootstrap => ⟨bootstrap.tableName, registryMemberName (index + i)⟩)).length =
      descriptorBytes index (bootstraps.map Int64WalBootstrap.preflight)
  | [], _ => rfl
  | bootstrap :: bootstraps, index => by
    have ih := length_manifestPayload_generated bootstraps (index + 1)
    simp only [Nat.add_assoc, Nat.add_comm 1] at ih
    rw [manifestPayload] at ih ⊢
    rw [List.mapIdx_cons, List.flatMap_cons, List.length_append, ih, RegistryDescriptor.length_bytes,
      length_registryMemberName, List.map_cons, descriptorBytes]
    rfl

theorem descriptorBytes_le : ∀ (bootstraps : List Int64WalBootstrap) (index : Nat),
    index + bootstraps.length ≤ 10 ^ 20 →
    descriptorBytes index (bootstraps.map Int64WalBootstrap.preflight) + registryManifestHeaderLen * bootstraps.length ≤
      (bootstraps.map Int64WalBootstrap.memoryBytes).sum
  | [], _, _ => Nat.le_refl _
  | bootstrap :: bootstraps, index, h => by
    rw [List.length_cons] at h ⊢
    have ih := descriptorBytes_le bootstraps (index + 1) (by omega)
    have hdigits := decimalDigits_le (n := index) (k := 20) (by decide) (by omega)
    rw [List.map_cons, descriptorBytes, List.map_cons, List.sum_cons]
    unfold generatedRegistryMemberNameLen Int64WalBootstrap.memoryBytes registryManifestHeaderLen at *
    show 8 + (utf8 bootstrap.tableName).length + _ + _ + _ ≤ _
    omega

theorem length_le_memoryBytes : ∀ bootstraps : List Int64WalBootstrap,
    bootstraps.length ≤ (bootstraps.map Int64WalBootstrap.memoryBytes).sum
  | [] => Nat.le_refl _
  | bootstrap :: bootstraps => by
    have ih := length_le_memoryBytes bootstraps
    rw [List.length_cons, List.map_cons, List.sum_cons]
    unfold Int64WalBootstrap.memoryBytes at *
    omega

theorem preflight_exact {bootstraps : BootstrapVec} {limits : Int64WriteAheadLogRegistryLimits} {manifest : ByteSpan}
    {bootstrapBytes manifestLen : Nat} (hmanifest : createdManifest bootstraps.tables = .ok manifest)
    (hpreflight : preflightBytes limits 0 0 registryManifestHeaderLen (bootstraps.tables.map Int64WalBootstrap.preflight) =
      .ok (bootstrapBytes, manifestLen)) : manifestLen = manifest.val.length := by
  have hmemory := bootstraps.addressable
  have hcount := length_le_memoryBytes bootstraps.tables
  have hsmall := descriptorBytes_le bootstraps.tables 0 (by unfold usizeMax at hmemory; omega)
  have hfits : registryManifestHeaderLen + descriptorBytes 0 (bootstraps.tables.map Int64WalBootstrap.preflight) ≤
      usizeMax := by
    cases htables : bootstraps.tables with
    | nil => decide
    | cons bootstrap tables =>
      rw [htables, List.length_cons, Nat.mul_succ] at hsmall
      rw [htables] at hmemory
      omega
  rw [preflightBytes_manifest hpreflight hfits, encodeRegistryManifest_eq_ok.1 hmanifest, length_manifestBytes]
  congr 1
  have hsorted := (bootstraps.tables.perm_insertionSort fun left right =>
    toAsciiLowercase left.tableName ≤ toAsciiLowercase right.tableName).map Int64WalBootstrap.preflight
  rw [← descriptorBytes_perm hsorted 0, ← length_manifestPayload_generated, registryDescriptors]
  simp only [Nat.zero_add]

/-! ## The codec -/

/-- **The manifest codec.** The manifest of a listable list decodes to that list exactly when the count and the names
fit 32 bits. What decodes is the encoding of its descriptors, which are listable with members that are plain components.
The size computed before writing is the length of the manifest written. -/
theorem manifest_codec (limits : Int64WriteAheadLogRegistryLimits) :
    (∀ descriptors manifest, Listable descriptors → validateRegistryTableCount descriptors.length limits = .ok () →
      encodeRegistryManifest descriptors = .ok manifest →
      (decodeRegistryManifest manifest limits = .ok descriptors ↔
        descriptors.length < 2 ^ 32 ∧ ∀ descriptor ∈ descriptors, descriptor.Short)) ∧
    (∀ manifest descriptors, decodeRegistryManifest manifest limits = .ok descriptors →
      encodeRegistryManifest descriptors = .ok manifest ∧ Listable descriptors ∧
      ∀ descriptor ∈ descriptors, pathComponents (utf8 descriptor.member) = [.normal (utf8 descriptor.member)]) ∧
    ∀ (bootstraps : BootstrapVec) manifest bootstrapBytes manifestLen,
      preflightBytes limits 0 0 registryManifestHeaderLen (bootstraps.tables.map Int64WalBootstrap.preflight) =
        .ok (bootstrapBytes, manifestLen) →
      createdManifest bootstraps.tables = .ok manifest → manifestLen = manifest.val.length := by
  refine ⟨fun descriptors manifest hlistable hcount hencode => ?_, fun manifest descriptors hdecode => ?_,
    fun bootstraps manifest bootstrapBytes manifestLen hpreflight hmanifest => preflight_exact hmanifest hpreflight⟩
  · rw [decodeRegistryManifest_eq_ok]
    constructor
    · rintro ⟨_, hfew, hshort, _, _⟩
      exact ⟨hfew, hshort⟩
    · rintro ⟨hfew, hshort⟩
      exact ⟨hcount, hfew, hshort, hlistable, encodeRegistryManifest_eq_ok.1 hencode⟩
  · obtain ⟨_, _, _, hlistable, hmanifest⟩ := decodeRegistryManifest_eq_ok.1 hdecode
    exact ⟨encodeRegistryManifest_eq_ok.2 hmanifest, hlistable,
      fun descriptor hmem => pathComponents_of_safe (hlistable.safe descriptor hmem)⟩

def sampleDescriptors : List RegistryDescriptor :=
  [⟨"alpha", "table-00000000.wal"⟩, ⟨sampleBootstrap.tableName, "table-00000001.wal"⟩]

theorem manifest_codec_sample : ∃ manifest, createdManifest sampleBootstraps.tables = .ok manifest ∧
    encodeRegistryManifest sampleDescriptors = .ok manifest ∧
    decodeRegistryManifest manifest sampleRegistryLimits = .ok sampleDescriptors ∧
    (∀ descriptor ∈ sampleDescriptors,
      pathComponents (utf8 descriptor.member) = [.normal (utf8 descriptor.member)]) ∧
    manifest.val.length = 91 := by
  have hcodec := manifest_codec sampleRegistryLimits
  have hencode : encodeRegistryManifest sampleDescriptors = .ok ⟨manifestBytes sampleDescriptors, by decide +kernel⟩ :=
    encodeRegistryManifest_eq_ok.2 rfl
  have hdecode := (hcodec.1 sampleDescriptors _ ⟨by decide +kernel, by decide +kernel, by decide +kernel⟩ rfl hencode).2
    ⟨by decide, by unfold RegistryDescriptor.Short; decide +kernel⟩
  have hcreated : createdManifest sampleBootstraps.tables = encodeRegistryManifest sampleDescriptors := by
    decide +kernel
  exact ⟨_, hcreated.trans hencode, hencode, hdecode, (hcodec.2.1 _ _ hdecode).2.2,
    (hcodec.2.2 sampleBootstraps _ 459 91 (by decide +kernel) (hcreated.trans hencode)).symm⟩

def anyRegistry : Int64WriteAheadLogRegistryLimits :=
  { maxTables := usizeMax, maxManifestBytes := usizeMax, maxTotalWalBytes := usizeMax, maxTotalRecords := usizeMax,
    perTable := { maxFileBytes := usizeMax, maxRecordBytes := usizeMax, maxRecords := usizeMax } }

/-- A table whose name is just too long for a 32-bit length. -/
def longNamed : RegistryDescriptor := ⟨String.ofList (List.replicate (2 ^ 32) 'a'), "table-00000000.wal"⟩

theorem length_replicate_utf8 (n : Nat) : (utf8 (String.ofList (List.replicate n 'a'))).length = n := by
  rw [length_utf8_ofList, List.length_replicate]
  intro c hc
  rw [List.eq_of_mem_replicate hc]
  rfl

theorem length_longNamed : (utf8 longNamed.table).length = 2 ^ 32 := length_replicate_utf8 (2 ^ 32)

/-- The manifest of a table with a name of `2 ^ 32` bytes is written, but does not decode to it. -/
theorem long_name_not_decoded : ∃ manifest, Listable [longNamed] ∧
    validateRegistryTableCount [longNamed].length anyRegistry = .ok () ∧
    encodeRegistryManifest [longNamed] = .ok manifest ∧
    decodeRegistryManifest manifest anyRegistry ≠ .ok [longNamed] := by
  have hmember : (utf8 longNamed.member).length = 18 := rfl
  have hfits : (manifestBytes [longNamed]).length ≤ isizeMax := by
    rw [length_manifestBytes, manifestPayload, List.flatMap_singleton, RegistryDescriptor.length_bytes,
      length_longNamed, hmember]
    decide
  refine ⟨⟨manifestBytes [longNamed], hfits⟩, ⟨List.pairwise_singleton _ _, List.pairwise_singleton _ _, ?_⟩, rfl,
    encodeRegistryManifest_eq_ok.2 rfl, fun hdecode => ?_⟩
  · intro descriptor hmem
    rw [List.mem_singleton.1 hmem]
    decide
  · obtain ⟨_, _, hshort, _⟩ := decodeRegistryManifest_eq_ok.1 hdecode
    have hlen := (hshort longNamed List.mem_cons_self).1
    rw [length_longNamed] at hlen
    exact absurd hlen (Nat.lt_irrefl _)

end RustHouse
