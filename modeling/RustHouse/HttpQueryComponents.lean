import RustHouse.Endings
import RustHouse.HttpQueryParameters
import RustHouse.WebForm

/-!
# Components of a query target

A component is decoded to the one text that it encodes, as far as the limit
allows. The numbers among the texts are decimal numerals of machine words.
-/

namespace RustHouse.Http

open Checked Exec Words Delimited WebForm

/-! ## Parts of a text -/

theorem idxOf?_append_cons {α : Type} [BEq α] [LawfulBEq α] {a : α} {before : List α} (h : a ∉ before)
    (after : List α) : (before ++ a :: after).idxOf? a = some before.length := by
  induction before with
  | nil => simp [List.idxOf?_cons]
  | cons b before ih =>
    rw [List.mem_cons, not_or] at h
    have hb : (b == a) = false := beq_false_of_ne (Ne.symm h.1)
    simp [List.idxOf?_cons, hb, ih h.2]

theorem append_cons_unique {α : Type} [BEq α] [LawfulBEq α] {a : α} {before before' after after' : List α}
    (h : a ∉ before) (h' : a ∉ before') (heq : before ++ a :: after = before' ++ a :: after') :
    before = before' ∧ after = after' := by
  have hindex := idxOf?_append_cons h after
  rw [heq, idxOf?_append_cons h' after', Option.some.injEq] at hindex
  obtain ⟨hbefore, hafter⟩ := List.append_inj heq hindex.symm
  exact ⟨hbefore, (List.cons.inj hafter).2⟩

theorem slice_before (before after : Bytes) (b : UInt8) :
    slice (before ++ b :: after) 0 before.length = some before := by
  rw [slice, if_pos ⟨Nat.zero_le _, by simp⟩, List.drop_zero, Nat.sub_zero, List.take_left]

theorem slice_after (before after : Bytes) (b : UInt8) :
    slice (before ++ b :: after) (before.length + 1) (before ++ b :: after).length = some after := by
  have h := slice_append (before ++ [b]) after []
  rw [List.append_nil, List.append_assoc, List.singleton_append, List.length_append, List.length_singleton] at h
  rw [List.length_append, List.length_cons, ← h]
  congr 1
  omega

/-! ## One byte -/

theorem decodeHexDigit_eq_some {b d : UInt8} : decodeHexDigit b = some d ↔ HexDigit d.toNat b := by
  have h0 : (byte '0').toNat = 0x30 := rfl
  have h9 : (byte '9').toNat = 0x39 := rfl
  have ha : (byte 'a').toNat = 0x61 := rfl
  have hf : (byte 'f').toNat = 0x66 := rfl
  have hA : (byte 'A').toNat = 0x41 := rfl
  have hF : (byte 'F').toNat = 0x46 := rfl
  have h10 : (10 : UInt8).toNat = 10 := rfl
  unfold decodeHexDigit HexDigit
  simp only [UInt8.le_iff_toNat_le, h0, h9, ha, hf, hA, hF]
  by_cases hdigit : 0x30 ≤ b.toNat ∧ b.toNat ≤ 0x39
  · have hsub : (b - byte '0').toNat = b.toNat - 0x30 := UInt8.toNat_sub_of_le _ _ hdigit.1
    rw [if_pos hdigit, Option.some.injEq, ← UInt8.toNat_inj, hsub]
    omega
  · rw [if_neg hdigit]
    by_cases hlower : 0x61 ≤ b.toNat ∧ b.toNat ≤ 0x66
    · have hsub : (b - byte 'a').toNat = b.toNat - 0x61 := UInt8.toNat_sub_of_le _ _ hlower.1
      rw [if_pos hlower, Option.some.injEq, ← UInt8.toNat_inj, UInt8.toNat_add, hsub, h10]
      omega
    · rw [if_neg hlower]
      by_cases hupper : 0x41 ≤ b.toNat ∧ b.toNat ≤ 0x46
      · have hsub : (b - byte 'A').toNat = b.toNat - 0x41 := UInt8.toNat_sub_of_le _ _ hupper.1
        rw [if_pos hupper, Option.some.injEq, ← UInt8.toNat_inj, UInt8.toNat_add, hsub, h10]
        omega
      · rw [if_neg hupper]
        simp only [reduceCtorEq, false_iff]
        omega

theorem combine_toNat {h l : Nat} (hh : h < 16) (hl : l < 16) :
    (UInt8.ofNat h <<< 4 ||| UInt8.ofNat l).toNat = 16 * h + l := by
  have hall : ∀ h l : Fin 16, (UInt8.ofNat h <<< 4 ||| UInt8.ofNat l).toNat = 16 * h.val + l.val := by decide
  exact hall ⟨h, hh⟩ ⟨l, hl⟩

theorem decodeHexDigit_of {v : Nat} {b : UInt8} (h : HexDigit v b) : decodeHexDigit b = some (UInt8.ofNat v) := by
  rw [decodeHexDigit_eq_some, UInt8.toNat_ofNat_of_lt' (Nat.lt_trans h.lt (by decide))]
  exact h

theorem slice_behind (before after : Bytes) (a b c : UInt8) :
    slice (before ++ a :: b :: c :: after) (before.length + 1) (before.length + 3) = some [b, c] := by
  have h := slice_append (before ++ [a]) [b, c] after
  rw [List.length_append, List.append_assoc, List.append_assoc] at h
  exact h

theorem decodeByte_append {b : UInt8} {written : Bytes} (h : EncodesByte b written) (before after : Bytes) :
    decodeByte (before ++ (written ++ after)) before.length = .ok (b, written.length - 1) := by
  cases h with
  | raw hpercent hplus =>
    have hplus : b ≠ byte '+' := hplus
    have hpercent : b ≠ byte '%' := hpercent
    simp [decodeByte, hpercent, hplus]
  | plus hb =>
    subst hb
    simp [decodeByte, byte]
  | @escape high low v w hhigh hlow hb =>
    have hb : b = UInt8.ofNat v <<< 4 ||| UInt8.ofNat w := by
      rw [← UInt8.toNat_inj, combine_toNat hhigh.lt hlow.lt, hb]
    have hfirst : (before ++ ([percent, high, low] ++ after))[before.length]? = some percent := by simp
    rw [decodeByte, hfirst, orPanic_some, Exec.ok_bind, if_neg (by decide), if_pos (by decide), List.cons_append,
      List.cons_append, List.cons_append, List.nil_append, slice_behind, hb]
    simp [decodeHexDigit_of hhigh, decodeHexDigit_of hlow]

theorem decodeByte_eq_ok {before here : Bytes} {b : UInt8} {behind : Nat}
    (h : decodeByte (before ++ here) before.length = .ok (b, behind)) :
    ∃ written after, here = written ++ after ∧ EncodesByte b written ∧ written.length = behind + 1 := by
  cases here with
  | nil => simp [decodeByte, orPanic] at h
  | cons first here =>
    have hfirst : (before ++ first :: here)[before.length]? = some first := by simp
    rw [decodeByte, hfirst, orPanic_some, Exec.ok_bind] at h
    by_cases hplus : first = byte '+'
    · rw [if_pos hplus] at h
      cases h
      exact ⟨[first], here, rfl, hplus ▸ .plus rfl, rfl⟩
    · rw [if_neg hplus] at h
      by_cases hpercent : first = byte '%'
      · rw [if_pos hpercent] at h
        cases here with
        | nil => simp [slice, getOr] at h
        | cons high here =>
          cases here with
          | nil => simp [slice, getOr] at h
          | cons low here =>
            rw [slice_behind, getOr_some, Exec.ok_bind] at h
            obtain ⟨_, hhigh, h⟩ := Exec.bind_eq_ok.1 h
            cases orPanic_eq_ok.1 hhigh
            obtain ⟨v, hv, h⟩ := Exec.bind_eq_ok.1 h
            obtain ⟨_, hlow, h⟩ := Exec.bind_eq_ok.1 h
            cases orPanic_eq_ok.1 hlow
            obtain ⟨w, hw, h⟩ := Exec.bind_eq_ok.1 h
            cases h
            have hv := decodeHexDigit_eq_some.1 (getOr_eq_ok.1 hv)
            have hw := decodeHexDigit_eq_some.1 (getOr_eq_ok.1 hw)
            refine ⟨[first, high, low], here, rfl, ?_, rfl⟩
            have hcombine := combine_toNat hv.lt hw.lt
            rw [UInt8.ofNat_toNat, UInt8.ofNat_toNat] at hcombine
            exact hpercent ▸ .escape hv hw hcombine
      · rw [if_neg hpercent] at h
        cases h
        exact ⟨[b], here, rfl, .raw hpercent hplus, rfl⟩

def Status.all : List Status :=
  [ok, badRequest, unauthorized, notFound, methodNotAllowed, lengthRequired, payloadTooLarge, expectationFailed,
    requestHeaderFieldsTooLarge, internalServerError, serviceUnavailable, httpVersionNotSupported]

/-- A failure that brings no header field along. -/
def RequestFailure.Plain (failure : RequestFailure) : Prop := failure.status ∈ Status.all ∧ failure.extraHeaders = []

instance : Fact (Status.ok ∈ Status.all) := ⟨by decide⟩
instance : Fact (Status.badRequest ∈ Status.all) := ⟨by decide⟩
instance : Fact (Status.notFound ∈ Status.all) := ⟨by decide⟩
instance : Fact (Status.lengthRequired ∈ Status.all) := ⟨by decide⟩
instance : Fact (Status.payloadTooLarge ∈ Status.all) := ⟨by decide⟩
instance : Fact (Status.expectationFailed ∈ Status.all) := ⟨by decide⟩
instance : Fact (Status.requestHeaderFieldsTooLarge ∈ Status.all) := ⟨by decide⟩
instance : Fact (Status.internalServerError ∈ Status.all) := ⟨by decide⟩
instance : Fact (Status.serviceUnavailable ∈ Status.all) := ⟨by decide⟩
instance : Fact (Status.httpVersionNotSupported ∈ Status.all) := ⟨by decide⟩

theorem plain_new (status : Status) (message : String) [h : Fact (status ∈ Status.all)] :
    (RequestFailure.new status message).Plain := ⟨h.out, rfl⟩

theorem decodeByte_ends {encoded : Bytes} {index : Nat} (h : index < encoded.length) :
    (decodeByte encoded index).Ends (fun _ => True) RequestFailure.Plain := by
  rw [decodeByte, List.getElem?_eq_getElem h, orPanic_some, Exec.ok_bind]
  by_cases hplus : encoded[index] = byte '+'
  · rw [if_pos hplus]
    trivial
  · rw [if_neg hplus]
    by_cases hpercent : encoded[index] = byte '%'
    · rw [if_pos hpercent]
      have hplain : malformedPercent.Plain := plain_new _ _
      refine (Ends.getOr hplain).bind fun hex hhex => ?_
      have hlen : hex.length = 2 := by
        rw [slice_length hhex]
        omega
      rw [List.getElem?_eq_getElem (by omega), List.getElem?_eq_getElem (by omega), orPanic_some, orPanic_some,
        Exec.ok_bind]
      refine (Ends.getOr hplain).bind fun high _ => ?_
      rw [Exec.ok_bind]
      exact (Ends.getOr hplain).bind fun low _ => trivial
    · rw [if_neg hpercent]
      trivial

/-! ## A component -/

section
variable {decoded : Bytes} {limit : Option Nat}

def limited (limit : Option Nat) (decoded : Bytes) : Exec RequestFailure Bytes :=
  if ∃ n ∈ limit, n < decoded.length then .error sqlTooLong else .ok decoded

theorem decodeFormFrom_of {bytes rest : Bytes} (h : Encodes bytes rest) (before : Bytes)
    (hlimit : ∀ n ∈ limit, decoded.length ≤ n) :
    decodeFormFrom (before ++ rest) limit before.length decoded = limited limit (decoded ++ bytes) := by
  induction h generalizing before decoded with
  | nil =>
    have hfits : ¬ ∃ n ∈ limit, n < decoded.length := by
      rintro ⟨n, hn, hlt⟩
      have hle := hlimit n hn
      omega
    rw [decodeFormFrom, List.append_nil, if_neg (Nat.lt_irrefl _), List.append_nil, limited, if_neg hfits]
  | @cons b written bytes rest hbyte _ ih =>
    have hpos := hbyte.length_pos
    have hlt : before.length < (before ++ (written ++ rest)).length := by
      rw [List.length_append, List.length_append]
      omega
    rw [decodeFormFrom, if_pos hlt, decodeByte_append hbyte, Exec.ok_bind]
    dsimp only
    by_cases hfull : limit = some decoded.length
    · have hlong : ∃ n ∈ limit, n < (decoded ++ b :: bytes).length := by
        refine ⟨_, hfull, ?_⟩
        rw [List.length_append, List.length_cons]
        omega
      rw [rejectIf_of hfull, Exec.error_bind, limited, if_pos hlong]
    · have hnext : ∀ n ∈ limit, (decoded ++ [b]).length ≤ n := by
        intro n hn
        have hle := hlimit n hn
        have hne : n ≠ decoded.length := fun h => hfull (h ▸ hn)
        rw [List.length_append, List.length_singleton]
        omega
      have hind := ih (before ++ written) hnext
      rw [List.append_assoc, List.append_assoc, List.length_append, List.singleton_append] at hind
      rw [rejectIf_of_not hfull, Exec.ok_bind, ← hind]
      congr 1
      omega

theorem decodeFormComponent_of {bytes encoded : Bytes} (h : Encodes bytes encoded) (limit : Option Nat) :
    decodeFormComponent encoded limit = limited limit bytes :=
  @decodeFormFrom_of [] limit _ _ h [] fun _ _ => Nat.zero_le _

theorem decodeFormComponent_none {bytes encoded : Bytes} (h : Encodes bytes encoded) :
    decodeFormComponent encoded none = .ok bytes := by
  rw [decodeFormComponent_of h, limited, if_neg (by simp)]

theorem decodeFormFrom_eq_ok {rest result : Bytes} (before : Bytes)
    (h : decodeFormFrom (before ++ rest) limit before.length decoded = .ok result) :
    ∃ bytes, Encodes bytes rest ∧ result = decoded ++ bytes := by
  induction hn : rest.length using Nat.strong_induction_on generalizing before rest decoded with
  | _ n ih =>
    rw [decodeFormFrom] at h
    by_cases hlt : before.length < (before ++ rest).length
    · rw [if_pos hlt] at h
      obtain ⟨⟨b, behind⟩, hbyte, h⟩ := Exec.bind_eq_ok.1 h
      obtain ⟨_, _, h⟩ := Exec.bind_eq_ok.1 h
      obtain ⟨written, after, rfl, hwritten, hlen⟩ := decodeByte_eq_ok hbyte
      have hindex : before.length + behind + 1 = (before ++ written).length := by
        rw [List.length_append]
        omega
      have hshorter : after.length < n := by
        rw [← hn, List.length_append]
        omega
      rw [← List.append_assoc] at h
      simp only [hindex] at h
      obtain ⟨bytes, hencodes, hresult⟩ := ih _ hshorter _ h rfl
      refine ⟨b :: bytes, .cons hwritten hencodes, ?_⟩
      rw [hresult, List.append_assoc, List.singleton_append]
    · rw [if_neg hlt] at h
      rw [List.length_append] at hlt
      have hnil : rest = [] := List.length_eq_zero_iff.1 (by omega)
      cases h
      exact ⟨[], hnil ▸ .nil, (List.append_nil _).symm⟩

theorem decodeFormComponent_eq_ok {encoded : Bytes} :
    decodeFormComponent encoded limit = .ok decoded ↔ Encodes decoded encoded ∧ ∀ n ∈ limit, decoded.length ≤ n := by
  have hlimited : limited limit decoded = .ok decoded ↔ ∀ n ∈ limit, decoded.length ≤ n := by
    unfold limited
    by_cases hlong : ∃ n ∈ limit, n < decoded.length
    · rw [if_pos hlong]
      obtain ⟨n, hn, hlt⟩ := hlong
      exact ⟨fun h => (by cases h), fun h => absurd (h n hn) (by omega)⟩
    · rw [if_neg hlong]
      exact ⟨fun _ n hn => Nat.le_of_not_lt fun hlt => hlong ⟨n, hn, hlt⟩, fun _ => rfl⟩
  rw [← hlimited]
  constructor
  · intro h
    obtain ⟨bytes, hencodes, hresult⟩ := decodeFormFrom_eq_ok [] h
    rw [List.nil_append] at hresult
    subst hresult
    exact ⟨hencodes, decodeFormComponent_of hencodes limit ▸ h⟩
  · rintro ⟨hencodes, hfits⟩
    rw [decodeFormComponent_of hencodes, hfits]

theorem encodes_unique {bytes bytes' encoded : Bytes} (h : Encodes bytes encoded) (h' : Encodes bytes' encoded) :
    bytes = bytes' := by
  have hok := decodeFormComponent_none h
  rw [decodeFormComponent_none h'] at hok
  cases hok
  rfl

theorem decodeFormFrom_ends (encoded : Bytes) (index : Nat) :
    (decodeFormFrom encoded limit index decoded).Ends (fun _ => True) RequestFailure.Plain := by
  fun_induction decodeFormFrom encoded limit index decoded with
  | case1 index decoded hlt ih =>
    refine (decodeByte_ends hlt).bind fun next _ => ?_
    have hplain : sqlTooLong.Plain := plain_new _ _
    exact (Ends.reject hplain).bind fun _ _ => ih _ _
  | case2 => trivial

theorem decodeFormComponent_ends (encoded : Bytes) (limit : Option Nat) :
    (decodeFormComponent encoded limit).Ends (fun _ => True) RequestFailure.Plain := decodeFormFrom_ends _ _

end

/-! ## Numbers -/

/-- The number that some digits stand for, behind those that were read before. -/
def decimal (parsed : Nat) (digits : Bytes) : Nat := digits.foldl (fun n b => n * 10 + (b.toNat - 0x30)) parsed

/-- A decimal numeral of a machine word. -/
def Decimal (n : Nat) (text : Bytes) : Prop :=
  (∀ b ∈ text, isAsciiDigit b = true) ∧ decimal 0 text = n ∧ n ≤ usizeMax

theorem le_decimal (parsed : Nat) (digits : Bytes) : parsed ≤ decimal parsed digits := by
  induction digits generalizing parsed with
  | nil => exact Nat.le_refl _
  | cons b digits ih =>
    have h := ih (parsed * 10 + (b.toNat - 0x30))
    rw [decimal, List.foldl_cons]
    unfold decimal at h
    omega

section
variable {malformedMessage overflowMessage : String} {value : Bytes}

theorem digit_toNat {b : UInt8} (h : isAsciiDigit b = true) : (b - byte '0').toNat = b.toNat - 0x30 := by
  rw [isAsciiDigit, Bool.and_eq_true, decide_eq_true_eq] at h
  exact UInt8.toNat_sub_of_le _ _ h.1

theorem parseDecimalFrom_eq_ok {parsed n : Nat} (hparsed : parsed ≤ usizeMax) :
    parseDecimalFrom malformedMessage overflowMessage parsed value = .ok n ↔
      (∀ b ∈ value, isAsciiDigit b = true) ∧ decimal parsed value = n ∧ n ≤ usizeMax := by
  induction value generalizing parsed with
  | nil =>
    rw [parseDecimalFrom, Exec.ok.injEq]
    refine ⟨fun h => ⟨List.forall_mem_nil _, h, h ▸ hparsed⟩, fun h => h.2.1⟩
  | cons b value ih =>
    rw [parseDecimalFrom, List.forall_mem_cons]
    by_cases hdigit : isAsciiDigit b = true
    · have hnot : ¬ isAsciiDigit b = false := by rw [hdigit]; decide
      rw [rejectIf_of_not hnot, Exec.ok_bind, digit_toNat hdigit]
      have hdecimal : decimal parsed (b :: value) = decimal (parsed * 10 + (b.toNat - 0x30)) value := rfl
      rw [hdecimal]
      have hle := le_decimal (parsed * 10 + (b.toNat - 0x30)) value
      by_cases hfits : parsed * 10 + (b.toNat - 0x30) ≤ usizeMax
      · rw [checkedMul_of_le (by omega), Option.bind_some, checkedAdd_of_le hfits, getOr_some, Exec.ok_bind, ih hfits]
        exact ⟨fun h => ⟨⟨hdigit, h.1⟩, h.2⟩, fun h => ⟨h.1.2, h.2⟩⟩
      · have hnone : ((checkedMul parsed 10).bind fun parsed => checkedAdd parsed (b.toNat - 0x30)) = none := by
          rw [Option.eq_none_iff_forall_ne_some]
          intro m hm
          obtain ⟨_, hmul, hadd⟩ := Option.bind_eq_some_iff.1 hm
          obtain ⟨_, rfl⟩ := checkedMul_eq_some.1 hmul
          exact hfits (checkedAdd_eq_some.1 hadd).1
        rw [hnone]
        refine ⟨fun h => (by cases h), fun h => absurd hfits ?_⟩
        have hn := h.2.1 ▸ h.2.2
        omega
    · have hfalse : isAsciiDigit b = false := Bool.eq_false_of_not_eq_true hdigit
      rw [rejectIf_of hfalse]
      exact ⟨fun h => (by cases h), fun h => absurd h.1.1 hdigit⟩

theorem parseDecimalFrom_ends (parsed : Nat) :
    (parseDecimalFrom malformedMessage overflowMessage parsed value).Ends (fun _ => True) RequestFailure.Plain := by
  induction value generalizing parsed with
  | nil => trivial
  | cons b value ih =>
    exact (Ends.reject (plain_new _ _)).bind fun _ _ => (Ends.getOr (plain_new _ _)).bind fun _ _ => ih _

/-- Digits that fit a machine word are parsed, and nothing else. -/
theorem parseDecimalParameter_eq_ok {n : Nat} :
    parseDecimalParameter value malformedMessage overflowMessage = .ok n ↔ Decimal n value :=
  parseDecimalFrom_eq_ok (Nat.zero_le _)

end

theorem parseDecimalReadonly_eq_ok {value : Bytes} {b : Bool} :
    parseDecimalReadonly value = .ok b ↔ Decimal b.toNat value := by
  rw [parseDecimalReadonly, Exec.bind_eq_ok]
  constructor
  · rintro ⟨n, hn, h⟩
    rw [parseDecimalParameter_eq_ok] at hn
    match n, h with
    | 0, h => cases h; exact hn
    | 1, h => cases h; exact hn
    | _ + 2, h => cases h
  · intro h
    refine ⟨_, parseDecimalParameter_eq_ok.2 h, ?_⟩
    cases b <;> rfl

theorem parseDecimalReadonly_ends (value : Bytes) :
    (parseDecimalReadonly value).Ends (fun _ => True) RequestFailure.Plain := by
  refine (parseDecimalFrom_ends _).bind fun n _ => ?_
  split
  · trivial
  · trivial
  · exact plain_new _ _

/-! ## Formats -/

theorem parseDefaultFormat_eq_ok {value : Bytes} {format : QueryResponseFormat} :
    parseDefaultFormat value = .ok format ↔ value = ascii format.name := by
  constructor
  · intro h
    unfold parseDefaultFormat at h
    split_ifs at h with h1 h2 h3 h4 h5 h6 h7 <;> cases h <;> assumption
  · rintro rfl
    cases format <;> decide

theorem parseDefaultFormat_ends (value : Bytes) :
    (parseDefaultFormat value).Ends (fun _ => True) RequestFailure.Plain := by
  unfold parseDefaultFormat
  repeat' refine Ends.ite trivial ?_
  exact plain_new _ _

theorem ofName_eq_some {name : Bytes} {parameter : Parameter} :
    Parameter.ofName name = some parameter ↔ name = ascii parameter.name := by
  constructor
  · intro h
    have hname := List.find?_some h
    exact (of_decide_eq_true hname).symm
  · rintro rfl
    cases parameter with
    | limit workloadLimit => cases workloadLimit <;> decide
    | _ => decide

end RustHouse.Http
