import Mathlib.Data.List.Nodup
import RustHouse.HttpQueryComponents

/-!
# Query targets set parameters

A query target is decoded to what its parameters are set to, in whatever order
they come and however each byte of them is written.
-/

namespace RustHouse.Http

open Checked Exec Words Delimited WebForm

/-! ## Settings -/

inductive Setting where
  | query (sql : Bytes)
  | database
  | defaultFormat (format : QueryResponseFormat)
  | limit (workloadLimit : WorkloadLimit) (value : Nat)
  | readonly (value : Bool)
  deriving DecidableEq, Repr

namespace Setting

def parameter : Setting → Parameter
  | query _ => .query
  | database => .database
  | defaultFormat _ => .defaultFormat
  | limit workloadLimit _ => .limit workloadLimit
  | readonly _ => .readonly

def Value : Setting → Bytes → Prop
  | query sql, text => text = sql
  | database, text => text = ascii "default"
  | defaultFormat format, text => text = ascii format.name
  | limit _ value, text => Decimal value text
  | readonly value, text => Decimal value.toNat text

def Fits (maxSqlBytes : Nat) : Setting → Prop
  | query sql => sql.length ≤ maxSqlBytes
  | _ => True

/-- An encoded parameter, with an encoded value behind an encoded name. -/
def Writes (setting : Setting) (segment : Bytes) : Prop :=
  ∃ name value text, segment = name ++ byte '=' :: value ∧ byte '&' ∉ segment ∧
    Encodes (ascii setting.parameter.name) name ∧ setting.Value text ∧ text ≠ [] ∧ Encodes text value

end Setting

/-- A query target that sets parameters in order. -/
def WritesAll (settings : List Setting) (encodedParameters : Bytes) : Prop :=
  ∃ segments, List.Forall₂ Setting.Writes settings segments ∧ encodedParameters = join (byte '&') segments

structure Describes (settings : List Setting) (decoded : DecodedQuery) : Prop where
  query : ∀ sql, .query sql ∈ settings ↔ decoded.sql = sql
  defaultFormat : ∀ format, .defaultFormat format ∈ settings ↔ decoded.responseFormat = some format
  limit : ∀ workloadLimit value, .limit workloadLimit value ∈ settings ↔
    decoded.workloadLimits.get workloadLimit = some value
  readonly : ∀ value, .readonly value ∈ settings ↔ decoded.readonly = some value

/-! ## Slots -/

namespace QuerySlots

def setting? (slots : QuerySlots) : Parameter → Option Setting
  | .query => slots.query.map .query
  | .database => if slots.databaseSeen then some .database else none
  | .defaultFormat => slots.responseFormat.map .defaultFormat
  | .limit workloadLimit => (slots.workloadLimits.get workloadLimit).map (.limit workloadLimit)
  | .readonly => slots.readonly.map .readonly

def fill (slots : QuerySlots) : Setting → QuerySlots
  | .query sql => { slots with query := some sql }
  | .database => { slots with databaseSeen := true }
  | .defaultFormat format => { slots with responseFormat := some format }
  | .limit workloadLimit value => { slots with workloadLimits := slots.workloadLimits.set workloadLimit value }
  | .readonly value => { slots with readonly := some value }

end QuerySlots

theorem ParameterizedWorkloadLimits.get_set (limits : ParameterizedWorkloadLimits) (limit limit' : WorkloadLimit)
    (value : Nat) : (limits.set limit value).get limit' = if limit' = limit then some value else limits.get limit' := by
  cases limit <;> cases limit' <;> rfl

theorem ParameterizedWorkloadLimits.get_default (limit : WorkloadLimit) : default.get limit = none := by
  cases limit <;> rfl

section
variable {slots : QuerySlots} {setting : Setting} {parameter : Parameter}

theorem QuerySlots.setting?_fill :
    (slots.fill setting).setting? parameter = if parameter = setting.parameter then some setting
      else slots.setting? parameter := by
  cases setting with
  | limit workloadLimit value =>
    cases parameter with
    | limit workloadLimit' =>
      simp only [fill, setting?, ParameterizedWorkloadLimits.get_set, Setting.parameter, Parameter.limit.injEq]
      by_cases h : workloadLimit' = workloadLimit
      · rw [if_pos h, if_pos h, h, Option.map_some]
      · rw [if_neg h, if_neg h]
    | _ => rfl
  | _ => cases parameter <;> rfl

theorem QuerySlots.setting?_empty : empty.setting? parameter = none := by
  cases parameter with
  | limit workloadLimit => rw [setting?, empty, ParameterizedWorkloadLimits.get_default, Option.map_none]
  | _ => rfl

end

/-! ## One parameter -/

def readSetting (maxSqlBytes : Nat) (encodedValue : Bytes) : Parameter → Exec RequestFailure Setting
  | .query => do
    let sql ← decodeFormComponent encodedValue (some maxSqlBytes)
    .ok (.query sql)
  | .database => do
    let value ← decodeFormComponent encodedValue none
    rejectIf (value ≠ ascii "default") (.new .badRequest "database query parameter must be default")
    .ok .database
  | .defaultFormat => do
    let value ← decodeFormComponent encodedValue none
    let format ← parseDefaultFormat value
    .ok (.defaultFormat format)
  | .limit workloadLimit => do
    let value ← decodeFormComponent encodedValue none
    let value ← workloadLimit.parseDecimal value
    .ok (.limit workloadLimit value)
  | .readonly => do
    let value ← decodeFormComponent encodedValue none
    let readonly ← parseDecimalReadonly value
    .ok (.readonly readonly)

def setParameter (maxSqlBytes : Nat) (slots : QuerySlots) (parameter : Parameter) (encodedValue : Bytes) :
    Exec RequestFailure QuerySlots := do
  rejectIf ((slots.setting? parameter).isSome = true) (.new .badRequest (duplicateMessage parameter))
  let setting ← readSetting maxSqlBytes encodedValue parameter
  .ok (slots.fill setting)

theorem decodeParameter_eq (method : ParameterizedQueryMethod) (maxSqlBytes : Nat) (slots : QuerySlots)
    {parameter : Parameter} {name : Bytes} (hname : name = ascii parameter.name) (encodedValue : Bytes) :
    decodeParameter method maxSqlBytes slots name encodedValue =
      setParameter maxSqlBytes slots parameter encodedValue := by
  rw [decodeParameter, ofName_eq_some.2 hname, setParameter]
  by_cases hfilled : (slots.setting? parameter).isSome = true
  · rw [rejectIf_of hfilled, Exec.error_bind]
    cases parameter with
    | database =>
      have hseen : slots.databaseSeen = true := by
        cases hseen : slots.databaseSeen <;> simp [QuerySlots.setting?, hseen] at hfilled ⊢
      exact congrArg (· >>= _) (rejectIf_of hseen)
    | _ =>
      rw [QuerySlots.setting?, Option.isSome_map] at hfilled
      simp only [fillSlot, rejectIf_of hfilled, Exec.error_bind]
  · rw [rejectIf_of_not hfilled, Exec.ok_bind]
    cases parameter with
    | database =>
      have hseen : ¬ slots.databaseSeen = true := by
        intro hseen
        exact hfilled (by rw [QuerySlots.setting?, if_pos hseen]; rfl)
      simp only [readSetting, rejectIf_of_not hseen, Exec.ok_bind, Exec.bind_assoc, QuerySlots.fill]
    | _ =>
      rw [QuerySlots.setting?, Option.isSome_map] at hfilled
      simp only [fillSlot, rejectIf_of_not hfilled, Exec.ok_bind, readSetting, Exec.bind_assoc, QuerySlots.fill]

section
variable {maxSqlBytes : Nat} {encodedValue : Bytes} {parameter : Parameter} {setting : Setting}

theorem readSetting_eq_ok : readSetting maxSqlBytes encodedValue parameter = .ok setting ↔
    setting.parameter = parameter ∧ setting.Fits maxSqlBytes ∧
      ∃ text, setting.Value text ∧ Encodes text encodedValue := by
  cases parameter with
  | query =>
    simp only [readSetting, Exec.bind_eq_ok, decodeFormComponent_eq_ok, Exec.ok.injEq]
    constructor
    · rintro ⟨sql, ⟨hencodes, hfits⟩, rfl⟩
      exact ⟨rfl, hfits _ rfl, sql, rfl, hencodes⟩
    · rintro ⟨hparameter, hfits, text, hvalue, hencodes⟩
      cases setting <;> cases hparameter
      cases hvalue
      exact ⟨_, ⟨hencodes, fun n hn => by cases hn; exact hfits⟩, rfl⟩
  | database =>
    simp only [readSetting, Exec.bind_eq_ok, decodeFormComponent_eq_ok, Exec.ok.injEq, rejectIf_eq_ok, not_not]
    constructor
    · rintro ⟨text, ⟨hencodes, _⟩, _, rfl, rfl⟩
      exact ⟨rfl, trivial, _, rfl, hencodes⟩
    · rintro ⟨hparameter, _, text, hvalue, hencodes⟩
      cases setting <;> cases hparameter
      exact ⟨text, ⟨hencodes, fun _ hn => by cases hn⟩, (), hvalue, rfl⟩
  | defaultFormat =>
    simp only [readSetting, Exec.bind_eq_ok, decodeFormComponent_eq_ok, Exec.ok.injEq, parseDefaultFormat_eq_ok]
    constructor
    · rintro ⟨text, ⟨hencodes, _⟩, format, hformat, rfl⟩
      exact ⟨rfl, trivial, text, hformat, hencodes⟩
    · rintro ⟨hparameter, _, text, hvalue, hencodes⟩
      cases setting <;> cases hparameter
      exact ⟨text, ⟨hencodes, fun _ hn => by cases hn⟩, _, hvalue, rfl⟩
  | limit workloadLimit =>
    simp only [readSetting, Exec.bind_eq_ok, decodeFormComponent_eq_ok, Exec.ok.injEq, WorkloadLimit.parseDecimal,
      parseDecimalParameter_eq_ok]
    constructor
    · rintro ⟨text, ⟨hencodes, _⟩, n, hn, rfl⟩
      exact ⟨rfl, trivial, text, hn, hencodes⟩
    · rintro ⟨hparameter, _, text, hvalue, hencodes⟩
      cases setting <;> cases hparameter
      exact ⟨text, ⟨hencodes, fun _ hn => by cases hn⟩, _, hvalue, rfl⟩
  | readonly =>
    simp only [readSetting, Exec.bind_eq_ok, decodeFormComponent_eq_ok, Exec.ok.injEq, parseDecimalReadonly_eq_ok]
    constructor
    · rintro ⟨text, ⟨hencodes, _⟩, b, hb, rfl⟩
      exact ⟨rfl, trivial, text, hb, hencodes⟩
    · rintro ⟨hparameter, _, text, hvalue, hencodes⟩
      cases setting <;> cases hparameter
      exact ⟨text, ⟨hencodes, fun _ hn => by cases hn⟩, _, hvalue, rfl⟩

theorem readSetting_ends (parameter : Parameter) :
    (readSetting maxSqlBytes encodedValue parameter).Ends (fun _ => True) RequestFailure.Plain := by
  have hdecode := decodeFormComponent_ends encodedValue
  cases parameter with
  | query => exact (hdecode _).bind fun _ _ => trivial
  | database => exact (hdecode _).bind fun _ _ => (Ends.reject (plain_new _ _)).bind fun _ _ => trivial
  | defaultFormat => exact (hdecode _).bind fun _ _ => (parseDefaultFormat_ends _).bind fun _ _ => trivial
  | limit workloadLimit => exact (hdecode _).bind fun _ _ => (parseDecimalFrom_ends _).bind fun _ _ => trivial
  | readonly => exact (hdecode _).bind fun _ _ => (parseDecimalReadonly_ends _).bind fun _ _ => trivial

theorem readSetting_of_not_fits {text : Bytes} (hfits : ¬ setting.Fits maxSqlBytes) (hvalue : setting.Value text)
    (hencodes : Encodes text encodedValue) :
    readSetting maxSqlBytes encodedValue setting.parameter = .error sqlTooLong := by
  cases setting with
  | query sql =>
    cases hvalue
    have hlong : ∃ n ∈ some maxSqlBytes, n < text.length := ⟨_, rfl, Nat.lt_of_not_le hfits⟩
    rw [Setting.parameter, readSetting, decodeFormComponent_of hencodes, limited, if_pos hlong, Exec.error_bind]
  | _ => exact absurd trivial hfits

end

/-! ## One segment -/

theorem equals_notMem {parameter : Parameter} {name : Bytes} (h : Encodes (ascii parameter.name) name) :
    byte '=' ∉ name := by
  intro hmem
  have hdigit : ∀ v, ¬ HexDigit v (byte '=') := fun v hv => hv.bounds.2 rfl
  have hname := h.mem hmem (by decide) (by decide) hdigit
  revert hname
  cases parameter with
  | limit workloadLimit => cases workloadLimit <;> decide
  | _ => decide

theorem ascii_name_ne_nil (parameter : Parameter) : ascii parameter.name ≠ [] := by
  cases parameter with
  | limit workloadLimit => cases workloadLimit <;> decide
  | _ => decide

section
variable {method : ParameterizedQueryMethod} {maxSqlBytes : Nat} {slots : QuerySlots} {setting : Setting}
  {segment name value : Bytes}

def emptyParameter (method : ParameterizedQueryMethod) : RequestFailure :=
  .new .badRequest method.emptyParameterMessage

theorem decodeEncodedParameter_append (hname : byte '=' ∉ name) :
    decodeEncodedParameter method maxSqlBytes slots (name ++ byte '=' :: value) =
      rejectIf (name = [] ∨ value = []) (emptyParameter method) >>= fun _ =>
        decodeFormComponent name none >>= fun name => decodeParameter method maxSqlBytes slots name value := by
  rw [decodeEncodedParameter, idxOf?_append_cons hname]
  simp only [getOr_some, Exec.ok_bind, slice_before, slice_after, orPanic_some]
  rfl

theorem decodeEncodedParameter_writes (method : ParameterizedQueryMethod) (maxSqlBytes : Nat)
    (h : setting.Writes segment) (hfree : slots.setting? setting.parameter = none) :
    ∃ value text, setting.Value text ∧ Encodes text value ∧
      decodeEncodedParameter method maxSqlBytes slots segment =
        readSetting maxSqlBytes value setting.parameter >>= fun setting => .ok (slots.fill setting) := by
  obtain ⟨name, value, text, rfl, _, hname, hvalue, htext, hencodes⟩ := h
  refine ⟨value, text, hvalue, hencodes, ?_⟩
  have hnonempty : ¬ (name = [] ∨ value = []) := by
    rw [hname.eq_nil_iff, hencodes.eq_nil_iff, not_or]
    exact ⟨ascii_name_ne_nil _, htext⟩
  have hnotFilled : ¬ (slots.setting? setting.parameter).isSome = true := by
    rw [hfree]
    decide
  rw [decodeEncodedParameter_append (equals_notMem hname), rejectIf_of_not hnonempty, Exec.ok_bind,
    decodeFormComponent_none hname, Exec.ok_bind, decodeParameter_eq method maxSqlBytes slots rfl, setParameter,
    rejectIf_of_not hnotFilled, Exec.ok_bind]

theorem decodeEncodedParameter_of (h : setting.Writes segment) (hfree : slots.setting? setting.parameter = none)
    (hfits : setting.Fits maxSqlBytes) :
    decodeEncodedParameter method maxSqlBytes slots segment = .ok (slots.fill setting) := by
  obtain ⟨value, text, hvalue, hencodes, heq⟩ :=
    decodeEncodedParameter_writes method maxSqlBytes h hfree
  rw [heq, readSetting_eq_ok.2 ⟨rfl, hfits, text, hvalue, hencodes⟩, Exec.ok_bind]

theorem decodeEncodedParameter_of_not_fits (h : setting.Writes segment)
    (hfree : slots.setting? setting.parameter = none) (hfits : ¬ setting.Fits maxSqlBytes) :
    decodeEncodedParameter method maxSqlBytes slots segment = .error sqlTooLong := by
  obtain ⟨value, text, hvalue, hencodes, heq⟩ :=
    decodeEncodedParameter_writes method maxSqlBytes h hfree
  rw [heq, readSetting_of_not_fits hfits hvalue hencodes, Exec.error_bind]

theorem decodeEncodedParameter_eq_ok {slots' : QuerySlots} (hsegment : byte '&' ∉ segment)
    (h : decodeEncodedParameter method maxSqlBytes slots segment = .ok slots') :
    ∃ setting : Setting, setting.Writes segment ∧ slots.setting? setting.parameter = none ∧
      setting.Fits maxSqlBytes ∧ slots' = slots.fill setting := by
  by_cases hequals : byte '=' ∈ segment
  · obtain ⟨name, value, rfl, hname⟩ := List.eq_append_cons_of_mem hequals
    rw [decodeEncodedParameter_append hname] at h
    obtain ⟨_, hnonempty, h⟩ := Exec.bind_eq_ok.1 h
    obtain ⟨decoded, hdecoded, h⟩ := Exec.bind_eq_ok.1 h
    rw [rejectIf_eq_ok, not_or] at hnonempty
    have hencodes := (decodeFormComponent_eq_ok.1 hdecoded).1
    cases hparameter : Parameter.ofName decoded with
    | none =>
      rw [decodeParameter, hparameter] at h
      cases h
    | some parameter =>
      have hdecodedName := ofName_eq_some.1 hparameter
      rw [decodeParameter_eq method maxSqlBytes slots hdecodedName, setParameter] at h
      obtain ⟨_, hfree, h⟩ := Exec.bind_eq_ok.1 h
      obtain ⟨setting, hsetting, h⟩ := Exec.bind_eq_ok.1 h
      cases h
      obtain ⟨rfl, hfits, text, hvalue, htext⟩ := readSetting_eq_ok.1 hsetting
      rw [rejectIf_eq_ok, Bool.not_eq_true, Option.isSome_eq_false_iff, Option.isNone_iff_eq_none] at hfree
      refine ⟨setting, ⟨name, value, text, rfl, hsegment, hdecodedName ▸ hencodes, hvalue, ?_, htext⟩, hfree, hfits, rfl⟩
      exact fun hnil => hnonempty.2 (htext.eq_nil_iff.2 hnil)
  · rw [decodeEncodedParameter, List.idxOf?_eq_none_iff.2 hequals] at h
    cases h

theorem decodeEncodedParameter_ends (segment : Bytes) :
    (decodeEncodedParameter method maxSqlBytes slots segment).Ends (fun _ => True) RequestFailure.Plain := by
  by_cases hequals : byte '=' ∈ segment
  · obtain ⟨name, value, rfl, hname⟩ := List.eq_append_cons_of_mem hequals
    rw [decodeEncodedParameter_append hname]
    refine (Ends.reject (plain_new _ _)).bind fun _ _ => (decodeFormComponent_ends _ _).bind fun decoded _ => ?_
    cases hparameter : Parameter.ofName decoded with
    | none =>
      rw [decodeParameter, hparameter]
      exact plain_new _ _
    | some parameter =>
      rw [decodeParameter_eq method maxSqlBytes slots (ofName_eq_some.1 hparameter), setParameter]
      exact (Ends.reject (plain_new _ _)).bind fun _ _ => (readSetting_ends _).bind fun _ _ => trivial
  · rw [decodeEncodedParameter, List.idxOf?_eq_none_iff.2 hequals]
    exact plain_new _ _

end

/-! ## Segments in a row -/

theorem exists_left_of_forall₂ {α β : Type} {R : α → β → Prop} {as : List α} {bs : List β} {b : β}
    (h : List.Forall₂ R as bs) (hb : b ∈ bs) : ∃ a ∈ as, R a b := by
  induction h with
  | nil => cases hb
  | cons hr _ ih =>
    cases hb with
    | head => exact ⟨_, List.mem_cons_self, hr⟩
    | tail _ hb =>
      obtain ⟨a, ha, hr⟩ := ih hb
      exact ⟨a, List.mem_cons_of_mem _ ha, hr⟩

theorem pairwise_of_forall₂ {α β : Type} {R : α → β → Prop} {P : α → α → Prop} {Q : β → β → Prop} {as : List α}
    {bs : List β} (h : List.Forall₂ R as bs) (hP : as.Pairwise P)
    (hQ : ∀ a a' b b', R a b → R a' b' → P a a' → Q b b') : bs.Pairwise Q := by
  induction h with
  | nil => exact .nil
  | cons hr hrest ih =>
    rw [List.pairwise_cons] at hP ⊢
    refine ⟨fun b hb => ?_, ih hP.2⟩
    obtain ⟨a, ha, hr'⟩ := exists_left_of_forall₂ hrest hb
    exact hQ _ _ _ _ hr hr' (hP.1 a ha)

section
variable {method : ParameterizedQueryMethod} {maxSqlBytes : Nat} {slots : QuerySlots} {setting : Setting}
  {settings : List Setting} {segments : List Bytes}

theorem setting?_foldl_fill {parameter : Parameter} (settings : List Setting) (slots : QuerySlots)
    (h : ∀ s ∈ settings, s.parameter ≠ parameter) :
    (settings.foldl QuerySlots.fill slots).setting? parameter = slots.setting? parameter := by
  induction settings generalizing slots with
  | nil => rfl
  | cons s settings ih =>
    obtain ⟨hs, hrest⟩ := List.forall_mem_cons.1 h
    rw [List.foldl_cons, ih (slots.fill s) hrest, QuerySlots.setting?_fill, if_neg (Ne.symm hs)]

theorem setting?_foldl_of_mem (slots : QuerySlots) (hnodup : (settings.map Setting.parameter).Nodup)
    (h : setting ∈ settings) :
    (settings.foldl QuerySlots.fill slots).setting? setting.parameter = some setting := by
  induction settings generalizing slots with
  | nil => cases h
  | cons s settings ih =>
    rw [List.map_cons, List.nodup_cons] at hnodup
    rw [List.foldl_cons]
    cases h with
    | head =>
      have hothers : ∀ s ∈ settings, s.parameter ≠ setting.parameter :=
        fun s hs heq => hnodup.1 (heq ▸ List.mem_map_of_mem hs)
      rw [setting?_foldl_fill settings _ hothers, QuerySlots.setting?_fill, if_pos rfl]
    | tail _ h => exact ih (slots.fill s) hnodup.2 h

theorem setting?_foldl_empty (hnodup : (settings.map Setting.parameter).Nodup) :
    (settings.foldl QuerySlots.fill .empty).setting? setting.parameter = some setting ↔ setting ∈ settings := by
  refine ⟨fun h => ?_, setting?_foldl_of_mem _ hnodup⟩
  by_cases hany : ∃ s ∈ settings, s.parameter = setting.parameter
  · obtain ⟨s, hs, heq⟩ := hany
    rw [← heq, setting?_foldl_of_mem _ hnodup hs] at h
    cases h
    exact hs
  · rw [setting?_foldl_fill settings _ (fun s hs heq => hany ⟨s, hs, heq⟩), QuerySlots.setting?_empty] at h
    cases h

def Free (slots : QuerySlots) (settings : List Setting) : Prop :=
  (settings.map Setting.parameter).Nodup ∧ ∀ s ∈ settings, slots.setting? s.parameter = none

theorem Free.cons_iff : Free slots (setting :: settings) ↔
    slots.setting? setting.parameter = none ∧ Free (slots.fill setting) settings := by
  unfold Free
  rw [List.map_cons, List.nodup_cons, List.forall_mem_cons]
  constructor
  · rintro ⟨⟨hnot, hnodup⟩, hfree, hothers⟩
    refine ⟨hfree, hnodup, fun s hs => ?_⟩
    have hne : s.parameter ≠ setting.parameter := fun heq => hnot (heq ▸ List.mem_map_of_mem hs)
    rw [QuerySlots.setting?_fill, if_neg hne]
    exact hothers s hs
  · rintro ⟨hfree, hnodup, hothers⟩
    have hne : ∀ s ∈ settings, s.parameter ≠ setting.parameter ∧ slots.setting? s.parameter = none := by
      intro s hs
      have hnone := hothers s hs
      rw [QuerySlots.setting?_fill] at hnone
      by_cases heq : s.parameter = setting.parameter
      · rw [if_pos heq] at hnone
        cases hnone
      · rw [if_neg heq] at hnone
        exact ⟨heq, hnone⟩
    refine ⟨⟨fun hmem => ?_, hnodup⟩, hfree, fun s hs => (hne s hs).2⟩
    obtain ⟨s, hs, heq⟩ := List.mem_map.1 hmem
    exact (hne s hs).1 heq

theorem foldlM_decode_of (hwrites : List.Forall₂ Setting.Writes settings segments) (hfree : Free slots settings)
    (hfits : ∀ s ∈ settings, s.Fits maxSqlBytes) :
    segments.foldlM (decodeEncodedParameter method maxSqlBytes) slots =
      .ok (settings.foldl QuerySlots.fill slots) := by
  induction hwrites generalizing slots with
  | nil => rfl
  | cons hwrite _ ih =>
    rw [Free.cons_iff] at hfree
    obtain ⟨hfit, hfits⟩ := List.forall_mem_cons.1 hfits
    rw [List.foldlM_cons, decodeEncodedParameter_of hwrite hfree.1 hfit, Exec.ok_bind, ih hfree.2 hfits]
    rfl

theorem foldlM_decode_of_not_fits (hwrites : List.Forall₂ Setting.Writes settings segments)
    (hfree : Free slots settings) (hfits : ∃ s ∈ settings, ¬ s.Fits maxSqlBytes) :
    segments.foldlM (decodeEncodedParameter method maxSqlBytes) slots = .error sqlTooLong := by
  induction hwrites generalizing slots with
  | nil => exact absurd hfits (by simp)
  | @cons s segment settings segments hwrite _ ih =>
    rw [Free.cons_iff] at hfree
    rw [List.foldlM_cons]
    by_cases hfit : s.Fits maxSqlBytes
    · have hrest : ∃ s ∈ settings, ¬ s.Fits maxSqlBytes := by
        obtain ⟨t, ht, hnot⟩ := hfits
        cases ht with
        | head => exact absurd hfit hnot
        | tail _ ht => exact ⟨t, ht, hnot⟩
      rw [decodeEncodedParameter_of hwrite hfree.1 hfit, Exec.ok_bind, ih hfree.2 hrest]
    · rw [decodeEncodedParameter_of_not_fits hwrite hfree.1 hfit, Exec.error_bind]

theorem foldlM_decode_eq_ok {slots' : QuerySlots} (hsegments : ∀ segment ∈ segments, byte '&' ∉ segment)
    (h : segments.foldlM (decodeEncodedParameter method maxSqlBytes) slots = .ok slots') :
    ∃ settings : List Setting, List.Forall₂ Setting.Writes settings segments ∧ Free slots settings ∧
      (∀ s ∈ settings, s.Fits maxSqlBytes) ∧ slots' = settings.foldl QuerySlots.fill slots := by
  induction segments generalizing slots with
  | nil =>
    cases h
    exact ⟨[], .nil, ⟨List.nodup_nil, List.forall_mem_nil _⟩, List.forall_mem_nil _, rfl⟩
  | cons segment segments ih =>
    obtain ⟨hsegment, hsegments⟩ := List.forall_mem_cons.1 hsegments
    rw [List.foldlM_cons] at h
    obtain ⟨next, hnext, h⟩ := Exec.bind_eq_ok.1 h
    obtain ⟨setting, hwrite, hfree, hfit, rfl⟩ := decodeEncodedParameter_eq_ok hsegment hnext
    obtain ⟨settings, hwrites, hrest, hfits, heq⟩ := ih hsegments h
    exact ⟨setting :: settings, .cons hwrite hwrites, Free.cons_iff.2 ⟨hfree, hrest⟩,
      List.forall_mem_cons.2 ⟨hfit, hfits⟩, heq⟩

theorem foldlM_decode_ends (segments : List Bytes) (slots : QuerySlots) :
    (segments.foldlM (decodeEncodedParameter method maxSqlBytes) slots).Ends (fun _ => True) RequestFailure.Plain := by
  induction segments generalizing slots with
  | nil => trivial
  | cons segment segments ih =>
    rw [List.foldlM_cons]
    exact (decodeEncodedParameter_ends segment).bind fun slots _ => ih slots

end

/-! ## Query targets -/

def QuerySlots.decoded (slots : QuerySlots) (sql : Bytes) : DecodedQuery :=
  ⟨sql, slots.responseFormat, slots.workloadLimits, slots.readonly⟩

theorem ParameterizedWorkloadLimits.ext_get {limits limits' : ParameterizedWorkloadLimits}
    (h : ∀ limit, limits.get limit = limits'.get limit) : limits = limits' := by
  cases limits
  cases limits'
  rw [mk.injEq]
  exact ⟨h .maxResultBytes, h .maxResultRows, h .maxResultValues, h .maxRowsToRead, h .maxRowsToGroupBy,
    h .maxGroupKeyCells, h .maxGroupKeyBytes, h .maxOrderingStateBytes, h .maxAggregateStateCells,
    h .maxAggregateStateBytes, h .maxThreads⟩

theorem Describes.unique {settings settings' : List Setting} {decoded decoded' : DecodedQuery}
    (h : Describes settings decoded) (h' : Describes settings' decoded')
    (hmem : ∀ setting, setting ∈ settings ↔ setting ∈ settings') : decoded = decoded' := by
  have hquery : decoded'.sql = decoded.sql := (h'.query _).1 ((hmem _).1 ((h.query _).2 rfl))
  have hformat : decoded.responseFormat = decoded'.responseFormat :=
    Option.ext fun format => by rw [← h.defaultFormat, ← h'.defaultFormat, hmem]
  have hlimits : decoded.workloadLimits = decoded'.workloadLimits :=
    ParameterizedWorkloadLimits.ext_get fun limit => Option.ext fun value => by rw [← h.limit, ← h'.limit, hmem]
  have hreadonly : decoded.readonly = decoded'.readonly :=
    Option.ext fun value => by rw [← h.readonly, ← h'.readonly, hmem]
  cases decoded
  cases decoded'
  cases hquery
  cases hformat
  cases hlimits
  cases hreadonly
  rfl

section
variable {method : ParameterizedQueryMethod} {maxSqlBytes : Nat} {settings : List Setting} {sql : Bytes}
  {encodedParameters : Bytes}

theorem describes_decoded (hnodup : (settings.map Setting.parameter).Nodup) (hquery : .query sql ∈ settings) :
    Describes settings ((settings.foldl QuerySlots.fill .empty).decoded sql) := by
  have hmem : ∀ setting, setting ∈ settings ↔ (settings.foldl QuerySlots.fill .empty).setting? setting.parameter =
      some setting := fun setting => (setting?_foldl_empty hnodup).symm
  have hsome : (settings.foldl QuerySlots.fill .empty).query = some sql := by
    have h := (hmem _).1 hquery
    rw [Setting.parameter, QuerySlots.setting?, Option.map_eq_some_iff] at h
    obtain ⟨_, h, heq⟩ := h
    cases heq
    exact h
  constructor
  · intro sql'
    rw [hmem, Setting.parameter, QuerySlots.setting?, hsome, Option.map_some, Option.some.injEq, Setting.query.injEq]
    rfl
  · intro format
    rw [hmem, Setting.parameter, QuerySlots.setting?, Option.map_eq_some_iff]
    simp [QuerySlots.decoded]
  · intro workloadLimit value
    rw [hmem, Setting.parameter, QuerySlots.setting?, Option.map_eq_some_iff]
    simp [QuerySlots.decoded]
  · intro value
    rw [hmem, Setting.parameter, QuerySlots.setting?, Option.map_eq_some_iff]
    simp [QuerySlots.decoded]

theorem splitOn_of_writes {segments : List Bytes} (h : List.Forall₂ Setting.Writes settings segments)
    (hne : settings ≠ []) : (join (byte '&') segments).splitOn (byte '&') = segments := by
  refine splitOn_join (fun segment hsegment => ?_) fun hnil => ?_
  · obtain ⟨setting, _, hwrite⟩ := exists_left_of_forall₂ h hsegment
    obtain ⟨_, _, _, _, hnot, _⟩ := hwrite
    exact hnot
  · subst hnil
    cases h
    exact hne rfl

theorem decodeQueryParameters_of (hnodup : (settings.map Setting.parameter).Nodup) (hquery : .query sql ∈ settings)
    (hwrites : WritesAll settings encodedParameters) :
    decodeQueryParameters encodedParameters method maxSqlBytes =
      if sql.length ≤ maxSqlBytes then .ok ((settings.foldl QuerySlots.fill .empty).decoded sql)
      else .error sqlTooLong := by
  obtain ⟨segments, hsegments, rfl⟩ := hwrites
  have hfree : Free .empty settings := ⟨hnodup, fun _ _ => QuerySlots.setting?_empty⟩
  have honly : ∀ s ∈ settings, s.parameter = .query → s = .query sql := by
    intro s hs heq
    exact List.inj_on_of_nodup_map hnodup hs hquery heq
  rw [decodeQueryParameters, splitOn_of_writes hsegments (List.ne_nil_of_mem hquery)]
  by_cases hfits : sql.length ≤ maxSqlBytes
  · have hall : ∀ s ∈ settings, s.Fits maxSqlBytes := by
      intro s hs
      cases s with
      | query sql' => cases honly _ hs rfl; exact hfits
      | _ => trivial
    have hsome := setting?_foldl_of_mem .empty hnodup hquery
    rw [Setting.parameter, QuerySlots.setting?, Option.map_eq_some_iff] at hsome
    obtain ⟨_, hsome, heq⟩ := hsome
    cases heq
    rw [if_pos hfits, foldlM_decode_of hsegments hfree hall, Exec.ok_bind, hsome]
    rfl
  · rw [if_neg hfits, foldlM_decode_of_not_fits hsegments hfree ⟨_, hquery, hfits⟩, Exec.error_bind]

theorem decodeQueryParameters_eq_ok {decoded : DecodedQuery}
    (h : decodeQueryParameters encodedParameters method maxSqlBytes = .ok decoded) :
    ∃ settings sql, (settings.map Setting.parameter).Nodup ∧ .query sql ∈ settings ∧ sql.length ≤ maxSqlBytes ∧
      List.Forall₂ Setting.Writes settings (encodedParameters.splitOn (byte '&')) ∧
        decoded = (settings.foldl QuerySlots.fill .empty).decoded sql := by
  obtain ⟨slots, hslots, h⟩ := Exec.bind_eq_ok.1 h
  obtain ⟨sql, hsql, h⟩ := Exec.bind_eq_ok.1 h
  cases h
  obtain ⟨settings, hwrites, hfree, hfits, rfl⟩ := foldlM_decode_eq_ok (notMem_of_mem_splitOn encodedParameters) hslots
  have hquery : .query sql ∈ settings := by
    rw [← setting?_foldl_empty hfree.1, Setting.parameter, QuerySlots.setting?, getOr_eq_ok.1 hsql, Option.map_some]
  exact ⟨settings, sql, hfree.1, hquery, hfits _ hquery, hwrites, rfl⟩

end

/-! ## Malformed targets -/

/-- The name that stands before the first equals sign. -/
def Named (name segment : Bytes) : Prop :=
  ∃ encodedName rest, segment = encodedName ++ byte '=' :: rest ∧ byte '=' ∉ encodedName ∧ Encodes name encodedName

def Escapes (after : Bytes) : Prop :=
  ∃ high low rest, after = high :: low :: rest ∧ (∃ v, HexDigit v high) ∧ ∃ v, HexDigit v low

inductive Malformed (encodedParameters : Bytes) : Prop where
  | escape {segment before after : Bytes} (hsegment : segment ∈ encodedParameters.splitOn (byte '&'))
      (hpercent : segment = before ++ byte '%' :: after) (hafter : ¬ Escapes after)
  | missing {segment : Bytes} (hsegment : segment ∈ encodedParameters.splitOn (byte '&'))
      (hequals : byte '=' ∉ segment)
  | emptyName {value : Bytes} (hsegment : byte '=' :: value ∈ encodedParameters.splitOn (byte '&'))
  | emptyValue {name : Bytes} (hsegment : name ++ [byte '='] ∈ encodedParameters.splitOn (byte '&'))
      (hname : byte '=' ∉ name)
  | duplicate {before between after : List Bytes} {first second name : Bytes}
      (hsplit : encodedParameters.splitOn (byte '&') = before ++ first :: (between ++ second :: after))
      (hfirst : Named name first) (hsecond : Named name second)
  | unknown {segment name : Bytes} (hsegment : segment ∈ encodedParameters.splitOn (byte '&'))
      (hnamed : Named name segment) (hname : ∀ parameter : Parameter, name ≠ ascii parameter.name)
  | overflow {name value text : Bytes} {parameter : Parameter}
      (hsegment : name ++ byte '=' :: value ∈ encodedParameters.splitOn (byte '&'))
      (hname : Encodes (ascii parameter.name) name) (hnumber : parameter = .readonly ∨ ∃ limit, parameter = .limit limit)
      (hvalue : Encodes text value) (hdigits : ∀ b ∈ text, isAsciiDigit b = true) (hlarge : usizeMax < decimal 0 text)

section
variable {setting : Setting} {settings : List Setting} {segment name : Bytes}

theorem Setting.Writes.named (h : setting.Writes segment) (hnamed : Named name segment) :
    name = ascii setting.parameter.name := by
  obtain ⟨encodedName, value, _, rfl, _, hname, _⟩ := h
  obtain ⟨encodedName', rest, heq, hnot, hencodes⟩ := hnamed
  obtain ⟨rfl, _⟩ := append_cons_unique (equals_notMem hname) hnot heq
  exact encodes_unique hencodes hname

theorem ascii_name_injective {parameter parameter' : Parameter} (h : ascii parameter.name = ascii parameter'.name) :
    parameter = parameter' := by
  have hsome := ofName_eq_some.2 h
  rw [ofName_eq_some.2 rfl] at hsome
  exact Option.some.inj hsome

theorem Setting.Writes.escapes (h : setting.Writes segment) {before after : Bytes}
    (hpercent : segment = before ++ byte '%' :: after) : Escapes after := by
  obtain ⟨encodedName, value, text, rfl, _, hname, _, _, hencodes⟩ := h
  rcases List.append_eq_append_iff.1 hpercent with ⟨middle, hbefore, hvalue⟩ | ⟨middle, hmiddle, hafter⟩
  · cases middle with
    | nil => exact absurd (List.cons.inj hvalue).1 (by decide)
    | cons b middle => exact hencodes.escape (List.cons.inj hvalue).2
  · cases middle with
    | nil => exact absurd (List.cons.inj hafter).1 (by decide)
    | cons b middle =>
      obtain ⟨rfl, rfl⟩ := List.cons.inj hafter
      obtain ⟨high, low, rest, rfl, hdigits⟩ := hname.escape hmiddle
      exact ⟨high, low, rest ++ byte '=' :: value, rfl, hdigits⟩

theorem not_malformed {encodedParameters : Bytes} (hnodup : (settings.map Setting.parameter).Nodup)
    (hwrites : List.Forall₂ Setting.Writes settings (encodedParameters.splitOn (byte '&'))) :
    ¬ Malformed encodedParameters := by
  intro h
  cases h with
  | escape hsegment hpercent hafter =>
    obtain ⟨_, _, hwrite⟩ := exists_left_of_forall₂ hwrites hsegment
    exact hafter (hwrite.escapes hpercent)
  | missing hsegment hequals =>
    obtain ⟨_, _, _, _, _, rfl, _⟩ := exists_left_of_forall₂ hwrites hsegment
    exact hequals (List.mem_append_right _ List.mem_cons_self)
  | @emptyName value hsegment =>
    obtain ⟨_, _, hwrite⟩ := exists_left_of_forall₂ hwrites hsegment
    have hempty := hwrite.named ⟨[], value, rfl, List.not_mem_nil, .nil⟩
    exact ascii_name_ne_nil _ hempty.symm
  | emptyValue hsegment hname =>
    obtain ⟨_, _, _, _, _, heq, _, hencoded, _, htext, hencodes⟩ := exists_left_of_forall₂ hwrites hsegment
    obtain ⟨_, hnil⟩ := append_cons_unique hname (equals_notMem hencoded) heq
    exact htext (hencodes.eq_nil_iff.1 hnil.symm)
  | @duplicate before between after first second name hsplit hfirst hsecond =>
    have hdistinct : (encodedParameters.splitOn (byte '&')).Pairwise fun s s' =>
        ∀ name, Named name s → ¬ Named name s' := by
      refine pairwise_of_forall₂ hwrites (List.pairwise_map.1 hnodup) fun _ _ _ _ hs hs' hne name h h' => ?_
      exact hne (ascii_name_injective ((hs.named h).symm.trans (hs'.named h')))
    rw [hsplit, List.pairwise_append] at hdistinct
    obtain ⟨_, hdistinct, _⟩ := hdistinct
    have hsecondMem : second ∈ between ++ second :: after := List.mem_append_right _ List.mem_cons_self
    exact (List.pairwise_cons.1 hdistinct).1 second hsecondMem name hfirst hsecond
  | unknown hsegment hnamed hname =>
    obtain ⟨_, _, hwrite⟩ := exists_left_of_forall₂ hwrites hsegment
    exact hname _ (hwrite.named hnamed)
  | @overflow name value text parameter hsegment hname hnumber hvalue hdigits hlarge =>
    obtain ⟨s, _, hwrite⟩ := exists_left_of_forall₂ hwrites hsegment
    have hparameter := hwrite.named ⟨name, value, rfl, equals_notMem hname, hname⟩
    obtain ⟨name', value', text', heq, _, hname', hvalue', _, hencodes'⟩ := hwrite
    obtain ⟨_, rfl⟩ := append_cons_unique (equals_notMem hname) (equals_notMem hname') heq
    obtain rfl := encodes_unique hvalue hencodes'
    have hparameter := ascii_name_injective hparameter
    have hdecimal : ∃ n, Decimal n text := by
      rcases hnumber with rfl | ⟨limit, rfl⟩
      · cases s <;> cases hparameter
        exact ⟨_, hvalue'⟩
      · cases s <;> cases hparameter
        exact ⟨_, hvalue'⟩
    obtain ⟨_, _, rfl, hle⟩ := hdecimal
    omega

end

theorem decodeQueryParameters_ends (encodedParameters : Bytes) (method : ParameterizedQueryMethod) (maxSqlBytes : Nat) :
    (decodeQueryParameters encodedParameters method maxSqlBytes).Ends (fun _ => True) RequestFailure.Plain :=
  (foldlM_decode_ends _ _).bind fun _ _ => (Ends.getOr (plain_new _ _)).bind fun _ _ => trivial

/-- **Decoding of query targets.** Distinct parameters decode to what they are
set to, in every order and encoding, unless the SQL text is longer than its
limit. Only such targets are accepted, and no target makes the decoder panic. -/
theorem decode_query_parameters (method : ParameterizedQueryMethod) (maxSqlBytes : Nat) :
    (∀ (settings : List Setting) (sql : Bytes), (settings.map Setting.parameter).Nodup → .query sql ∈ settings →
      ∃ decoded, Describes settings decoded ∧ ∀ reordered encodedParameters, reordered.Perm settings →
        WritesAll reordered encodedParameters →
          decodeQueryParameters encodedParameters method maxSqlBytes =
            if sql.length ≤ maxSqlBytes then .ok decoded else .error sqlTooLong) ∧
    (∀ encodedParameters decoded, decodeQueryParameters encodedParameters method maxSqlBytes = .ok decoded →
      ∃ settings sql, (settings.map Setting.parameter).Nodup ∧ .query sql ∈ settings ∧ sql.length ≤ maxSqlBytes ∧
        WritesAll settings encodedParameters ∧ Describes settings decoded) ∧
    (∀ encodedParameters, Malformed encodedParameters →
      ∃ failure, decodeQueryParameters encodedParameters method maxSqlBytes = .error failure) ∧
    ∀ encodedParameters, decodeQueryParameters encodedParameters method maxSqlBytes ≠ .panic := by
  have hnoPanic : ∀ encodedParameters, decodeQueryParameters encodedParameters method maxSqlBytes ≠ .panic :=
    fun _ => (decodeQueryParameters_ends _ _ _).ne_panic
  refine ⟨fun settings sql hnodup hquery => ?_, fun encodedParameters decoded h => ?_, fun encodedParameters h => ?_,
    hnoPanic⟩
  · refine ⟨_, describes_decoded hnodup hquery, fun reordered encodedParameters hperm hwrites => ?_⟩
    have hnodup' : (reordered.map Setting.parameter).Nodup := (hperm.map _).nodup_iff.2 hnodup
    have hquery' : .query sql ∈ reordered := hperm.mem_iff.2 hquery
    rw [decodeQueryParameters_of hnodup' hquery' hwrites]
    rw [(describes_decoded hnodup' hquery').unique (describes_decoded hnodup hquery) fun _ => hperm.mem_iff]
  · obtain ⟨settings, sql, hnodup, hquery, hfits, hwrites, rfl⟩ := decodeQueryParameters_eq_ok h
    refine ⟨settings, sql, hnodup, hquery, hfits, ⟨_, hwrites, ?_⟩, describes_decoded hnodup hquery⟩
    rw [join_splitOn]
  · cases hdecoded : decodeQueryParameters encodedParameters method maxSqlBytes with
    | ok decoded =>
      obtain ⟨settings, sql, hnodup, _, _, hwrites, _⟩ := decodeQueryParameters_eq_ok hdecoded
      exact absurd h (not_malformed hnodup hwrites)
    | error failure => exact ⟨failure, rfl⟩
    | panic => exact absurd hdecoded (hnoPanic _)

theorem decode_query_parameters_reordered : ∃ decoded : DecodedQuery, decoded.sql = ascii "SELECT 1" ∧
    decodeQueryParameters (ascii "query=SELECT+1&max_threads=04") .get 8 = .ok decoded ∧
    decodeQueryParameters (ascii "max%5Fthreads=%34&qu%65ry=SELECT%201") .get 8 = .ok decoded := by
  have encodes : ∀ {text encoded : Bytes}, decodeFormComponent encoded none = .ok text → Encodes text encoded :=
    fun h => (decodeFormComponent_eq_ok.1 h).1
  have hquery : (Setting.query (ascii "SELECT 1")).Writes (ascii "query=SELECT+1") :=
    ⟨ascii "query", ascii "SELECT+1", _, by decide, by decide, encodes (by decide +kernel), rfl, by decide,
      encodes (by decide +kernel)⟩
  have hquery' : (Setting.query (ascii "SELECT 1")).Writes (ascii "qu%65ry=SELECT%201") :=
    ⟨ascii "qu%65ry", ascii "SELECT%201", _, by decide, by decide, encodes (by decide +kernel), rfl, by decide,
      encodes (by decide +kernel)⟩
  have hthreads : (Setting.limit .maxThreads 4).Writes (ascii "max_threads=04") :=
    ⟨ascii "max_threads", ascii "04", ascii "04", by decide, by decide, encodes (by decide +kernel),
      ⟨List.all_eq_true.1 (by decide), by decide, by decide⟩, by decide, encodes (by decide +kernel)⟩
  have hthreads' : (Setting.limit .maxThreads 4).Writes (ascii "max%5Fthreads=%34") :=
    ⟨ascii "max%5Fthreads", ascii "%34", ascii "4", by decide, by decide, encodes (by decide +kernel),
      ⟨List.all_eq_true.1 (by decide), by decide, by decide⟩, by decide, encodes (by decide +kernel)⟩
  obtain ⟨decoded, hdescribes, h⟩ := (decode_query_parameters .get 8).1
    [.query (ascii "SELECT 1"), .limit .maxThreads 4] (ascii "SELECT 1") (by decide) (by decide)
  refine ⟨decoded, (hdescribes.query _).1 (by decide), ?_, ?_⟩
  · exact h _ _ (List.Perm.refl _) ⟨_, .cons hquery (.cons hthreads .nil), by decide⟩
  · exact h _ _ (List.Perm.swap _ _ _) ⟨_, .cons hthreads' (.cons hquery' .nil), by decide⟩

end RustHouse.Http
