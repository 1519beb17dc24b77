import RustHouse.HttpFailures

/-!
# Framing of requests

What reading a request takes off a transport: a header block up to the first
empty line, and then as many bytes as the header block announces. It makes no
difference in what pieces the bytes arrive.
-/

namespace RustHouse.Http

open Batch (FloatText)
open Checked Exec Method Transport Words

variable {ι : Type}

/-! ## Header blocks -/

/-- A carriage return is followed by a line feed, and a line feed follows one. -/
def Framing (bytes : Bytes) : Prop := ∀ before b, before ++ [b] <+: bytes → ¬ breaksFraming before.getLast? b

/-- No empty line has been read. -/
def Unterminated (bytes : Bytes) : Prop := ∀ before, before <+: bytes → ¬ terminator <:+ before

/-- Everything up to the first empty line. -/
structure HeaderBlock (maxHeaderBytes : Nat) (header : Bytes) : Prop where
  terminated : terminator <:+ header
  shortest : ∀ before, before <+: header → terminator <:+ before → before = header
  framing : Framing header
  length_le : header.length ≤ maxHeaderBytes

section
variable {before bytes : Bytes} {b : UInt8}

theorem framing_nil : Framing [] := by
  intro before b h
  exact absurd (List.prefix_nil.1 h) (List.append_ne_nil_of_right_ne_nil _ (List.cons_ne_nil _ _))

theorem Framing.concat (h : Framing bytes) (hb : ¬ breaksFraming bytes.getLast? b) : Framing (bytes ++ [b]) := by
  intro before c hbefore
  rcases List.prefix_concat_iff.1 hbefore with heq | hbefore
  · obtain ⟨rfl, hc⟩ := List.append_inj' heq rfl
    cases hc
    exact hb
  · exact h before c hbefore

theorem unterminated_nil : Unterminated [] := by
  intro before h hterminated
  rw [List.prefix_nil.1 h] at hterminated
  exact absurd (List.suffix_nil.1 hterminated) (by decide)

theorem Unterminated.concat (h : Unterminated bytes) (hb : ¬ terminator <:+ bytes ++ [b]) :
    Unterminated (bytes ++ [b]) := by
  intro before hbefore
  rcases List.prefix_concat_iff.1 hbefore with rfl | hbefore
  · exact hb
  · exact h before hbefore

theorem not_terminated_of_breaks (h : breaksFraming bytes.getLast? b) : ¬ terminator <:+ bytes ++ [b] := by
  rintro ⟨before, heq⟩
  have hsplit : before ++ terminator = (before ++ [byte '\r', byte '\n', byte '\r']) ++ [byte '\n'] := by
    rw [List.append_assoc]
    rfl
  rw [hsplit] at heq
  obtain ⟨rfl, hb⟩ := List.append_inj' heq rfl
  cases hb
  have hlast : (before ++ [byte '\r', byte '\n', byte '\r']).getLast? = some (byte '\r') := by simp
  rw [hlast] at h
  rcases h with ⟨_, h⟩ | ⟨_, h⟩
  · exact h rfl
  · exact h rfl

end

/-! ## One byte at a time -/

section
variable {t : Transport ι} {Q : Bytes → Transport ι → Prop} {E : RequestReadError ι → Transport ι → Prop}

theorem readSome_nil (h : t.bytes = []) (count : Nat) :
    readSome count t = some (t.failure.elim (.ok []) (fun e => .error (.io e)), t) := by
  rw [readSome, Method.mapError, read_nil h]
  cases t.failure <;> rfl

theorem readSome_of_read {count : Nat} {taken : Bytes} {t' : Transport ι} (h : read count t = some (.ok taken, t')) :
    readSome count t = some (.ok taken, t') := by
  rw [readSome, Method.mapError, h]

/-- A read of one byte returns it, or finds the end of the stream or the error there. -/
theorem wp_readSome_one (hnil : t.bytes = [] → t.failure = none → Q [] t)
    (hio : ∀ e, t.bytes = [] → t.failure = some e → E (.io e) t)
    (hcons : ∀ b t', t.Advances [b] t' → Q [b] t') : wp (readSome 1) Q E t := by
  cases hbytes : t.bytes with
  | nil =>
    rw [wp, readSome_nil hbytes]
    cases hfailure : t.failure with
    | none => exact hnil hbytes hfailure
    | some e => exact hio e hbytes hfailure
  | cons b rest =>
    obtain ⟨t', hread, hadvances⟩ := read_one hbytes
    rw [wp, readSome_of_read hread]
    exact hcons b t' hadvances

theorem blind_readSome_one : Blind (readSome 1 : Method (Transport ι) (RequestReadError ι) Bytes) := by
  intro t u h
  cases hbytes : t.bytes with
  | nil =>
    refine .of_eq (readSome_nil hbytes 1) ?_ h
    rw [readSome_nil (h.bytes_eq ▸ hbytes), h.failure_eq]
  | cons b rest =>
    obtain ⟨t', ht, htt⟩ := read_one hbytes
    obtain ⟨u', hu, huu⟩ := read_one (h.bytes_eq ▸ hbytes)
    exact .of_eq (readSome_of_read ht) (readSome_of_read hu) (.of_advances h htt huu)

theorem blind_protocol {α : Type} (x : Exec RequestFailure α) :
    Blind (protocol x : Method (Transport ι) (RequestReadError ι) α) := blind_call _

end

section
variable {maxHeaderBytes : Nat} {t : Transport ι}

theorem blind_readHeaderFrom (header : Bytes) :
    Blind (readHeaderFrom maxHeaderBytes header : Method (Transport ι) (RequestReadError ι) Bytes) := by
  induction header using readHeaderFrom.induct maxHeaderBytes with
  | case1 header ih =>
    rw [readHeaderFrom]
    refine blind_readSome_one.bind fun taken => ?_
    cases taken with
    | nil => exact blind_protocol _
    | cons b taken =>
      dsimp only
      by_cases hbreaks : breaksFraming header.getLast? b
      · rw [if_pos hbreaks]
        exact blind_protocol _
      · rw [if_neg hbreaks]
        by_cases hterminated : terminator.isSuffixOf (header ++ [b])
        · rw [if_pos hterminated]
          exact blind_pure _
        · rw [if_neg hterminated]
          by_cases hfull : maxHeaderBytes ≤ header.length + 1
          · rw [if_pos hfull]
            exact blind_protocol _
          · rw [if_neg hfull]
            exact ih b hfull

theorem blind_readHeaderBlock :
    Blind (readHeaderBlock maxHeaderBytes : Method (Transport ι) (RequestReadError ι) Bytes) := by
  unfold readHeaderBlock
  by_cases h : maxHeaderBytes = 0
  · rw [if_pos h]
    exact blind_protocol _
  · rw [if_neg h]
    exact blind_readHeaderFrom []

/-- What has been read of a header block that is not there or is not accepted. -/
structure Incomplete (maxHeaderBytes : Nat) (bytes : Bytes) : Prop where
  unterminated : Unterminated bytes
  length_le : bytes.length ≤ maxHeaderBytes

/-- Why reading stopped before there was an empty line. -/
inductive Stopped (maxHeaderBytes : Nat) (t' : Transport ι) : Bytes → RequestReadError ι → Prop where
  | broken {before : Bytes} {b : UInt8} (framing : Framing before) (h : breaksFraming before.getLast? b) :
      Stopped maxHeaderBytes t' (before ++ [b]) (.protocol crlfRequired)
  | full {taken : Bytes} (framing : Framing taken) (h : taken.length = maxHeaderBytes) :
      Stopped maxHeaderBytes t' taken (.protocol headersTooLong)
  | ended {taken : Bytes} (framing : Framing taken) (hend : t'.bytes = []) (hfailure : t'.failure = none) :
      Stopped maxHeaderBytes t' taken (.protocol (badRequest "request headers are incomplete"))
  | failed {taken : Bytes} {e : ι} (framing : Framing taken) (hend : t'.bytes = []) (hfailure : t'.failure = some e) :
      Stopped maxHeaderBytes t' taken (.io e)

theorem readHeaderFrom_wp {header : Bytes} (hlen : header.length < maxHeaderBytes) (hframing : Framing header)
    (hunterminated : Unterminated header) :
    wp (readHeaderFrom maxHeaderBytes header)
      (fun block t' => ∃ taken, block = header ++ taken ∧ t.Advances taken t' ∧ HeaderBlock maxHeaderBytes block)
      (fun e t' => ∃ taken, t.Advances taken t' ∧ Incomplete maxHeaderBytes (header ++ taken) ∧
        Stopped maxHeaderBytes t' (header ++ taken) e) t := by
  induction header using readHeaderFrom.induct maxHeaderBytes generalizing t with
  | case1 header ih =>
    have hnothing : Incomplete maxHeaderBytes (header ++ []) := by
      rw [List.append_nil]
      exact ⟨hunterminated, Nat.le_of_lt hlen⟩
    have hlen' (b : UInt8) : (header ++ [b]).length ≤ maxHeaderBytes := by
      rw [List.length_append, List.length_singleton]
      exact hlen
    have hkept : Framing (header ++ []) := by
      rw [List.append_nil]
      exact hframing
    rw [readHeaderFrom, wp_bind]
    refine wp_readSome_one (fun hend hfailure => ?_) (fun e hend hfailure => ?_) fun b t' hadvances => ?_
    · exact ⟨[], .refl t, hnothing, .ended hkept hend hfailure⟩
    · exact ⟨[], .refl t, hnothing, .failed hkept hend hfailure⟩
    dsimp only
    by_cases hbreaks : breaksFraming header.getLast? b
    · rw [if_pos hbreaks]
      have hunterminated' := hunterminated.concat (not_terminated_of_breaks hbreaks)
      exact ⟨[b], hadvances, ⟨hunterminated', hlen' b⟩, .broken hframing hbreaks⟩
    · rw [if_neg hbreaks]
      by_cases hterminated : terminator.isSuffixOf (header ++ [b])
      · rw [if_pos hterminated]
        refine ⟨[b], rfl, hadvances, List.isSuffixOf_iff_suffix.1 hterminated, fun before hbefore hends => ?_,
          hframing.concat hbreaks, hlen' b⟩
        rcases List.prefix_concat_iff.1 hbefore with heq | hbefore
        · exact heq
        · exact absurd hends (hunterminated before hbefore)
      · rw [if_neg hterminated]
        have hunterminated' := hunterminated.concat fun h => hterminated (List.isSuffixOf_iff_suffix.2 h)
        by_cases hfull : maxHeaderBytes ≤ header.length + 1
        · rw [if_pos hfull]
          have hlength : (header ++ [b]).length = maxHeaderBytes := by
            rw [List.length_append, List.length_singleton]
            omega
          exact ⟨[b], hadvances, ⟨hunterminated', hlen' b⟩, .full (hframing.concat hbreaks) hlength⟩
        · rw [if_neg hfull]
          have hshort : (header ++ [b]).length < maxHeaderBytes := by
            rw [List.length_append, List.length_singleton]
            omega
          refine wp_mono (ih b hfull hshort (hframing.concat hbreaks) hunterminated') ?_ ?_
          · rintro block t'' ⟨taken, rfl, hmore, hblock⟩
            exact ⟨b :: taken, by rw [List.append_assoc, List.singleton_append], hadvances.trans hmore, hblock⟩
          · rintro e t'' ⟨taken, hmore, hincomplete, hstopped⟩
            rw [List.append_assoc, List.singleton_append] at hincomplete hstopped
            exact ⟨b :: taken, hadvances.trans hmore, hincomplete, hstopped⟩

theorem readHeaderBlock_wp :
    wp (readHeaderBlock maxHeaderBytes)
      (fun header t' => t.Advances header t' ∧ HeaderBlock maxHeaderBytes header)
      (fun e t' => ∃ taken, t.Advances taken t' ∧ Incomplete maxHeaderBytes taken ∧ Stopped maxHeaderBytes t' taken e)
      t := by
  unfold readHeaderBlock
  by_cases h : maxHeaderBytes = 0
  · rw [if_pos h]
    exact ⟨[], .refl t, ⟨unterminated_nil, Nat.zero_le _⟩, .full framing_nil h.symm⟩
  · rw [if_neg h]
    refine wp_mono (readHeaderFrom_wp (Nat.pos_of_ne_zero h) framing_nil unterminated_nil) ?_ fun _ _ h => h
    rintro header t' ⟨taken, rfl, hadvances, hblock⟩
    exact ⟨hadvances, hblock⟩

end

/-! ## Bodies -/

section
variable {contentLength : Nat}

theorem readBodyFrom_exact {body : Bytes} (hlen : body.length ≤ contentLength) (t : Transport ι) :
    (∃ taken t', readBodyFrom contentLength body t = some (.ok (body ++ taken), t') ∧ t.Advances taken t' ∧
      (body ++ taken).length = contentLength) ∨
    ∃ t', body.length + t.bytes.length < contentLength ∧ t.Advances t.bytes t' ∧
      readBodyFrom contentLength body t = some (.error (t.failure.elim
        (.protocol (badRequest "request body is shorter than Content-Length")) .io), t') := by
  induction body using readBodyFrom.induct contentLength generalizing t with
  | case2 body hfull =>
    rw [readBodyFrom, if_neg hfull]
    refine .inl ⟨[], t, ?_, .refl t, ?_⟩
    · rw [List.append_nil]
      rfl
    · rw [List.append_nil]
      omega
  | case1 body hmore ih =>
    rw [readBodyFrom, if_pos hmore]
    by_cases hbytes : t.bytes = []
    · refine .inr ⟨t, by rw [hbytes]; exact hmore, by rw [hbytes]; exact .refl t, ?_⟩
      have hread := readSome_nil hbytes (contentLength - body.length)
      cases hfailure : t.failure with
      | none =>
        rw [hfailure] at hread
        rw [Method.bind_of_ok hread]
        rfl
      | some e =>
        rw [hfailure] at hread
        rw [Method.bind_of_error hread]
        rfl
    · obtain ⟨taken, t', hread, hne, hle, hadvances⟩ :=
        read_cons hbytes (Nat.sub_ne_zero_of_lt hmore : contentLength - body.length ≠ 0)
      rw [Method.bind_of_ok (readSome_of_read hread)]
      cases taken with
      | nil => exact absurd rfl hne
      | cons b taken =>
        have hlen' : (body ++ b :: taken).length ≤ contentLength := by
          rw [List.length_append]
          omega
        rcases ih b taken hlen' t' with ⟨more, t'', hbody, hmore, htotal⟩ | ⟨t'', hshort, hall, hbody⟩
        · rw [List.append_assoc] at hbody htotal
          exact .inl ⟨b :: taken ++ more, t'', hbody, hadvances.trans hmore, htotal⟩
        · refine .inr ⟨t'', ?_, hadvances.bytes_eq ▸ hadvances.trans hall, ?_⟩
          · rw [hadvances.bytes_eq, List.length_append]
            rw [List.length_append] at hshort
            omega
          · rw [← hadvances.failure_eq]
            exact hbody

theorem readBody_exact (contentLength : Nat) (t : Transport ι) :
    (∃ taken t', readBodyFrom contentLength [] t = some (.ok taken, t') ∧ t.Advances taken t' ∧
      taken.length = contentLength) ∨
    ∃ t', t.bytes.length < contentLength ∧ t.Advances t.bytes t' ∧
      readBodyFrom contentLength [] t = some (.error (t.failure.elim
        (.protocol (badRequest "request body is shorter than Content-Length")) .io), t') := by
  have h := @readBodyFrom_exact ι contentLength [] (Nat.zero_le _) t
  simpa using h

theorem blind_readBodyFrom :
    Blind (readBodyFrom contentLength [] : Method (Transport ι) (RequestReadError ι) Bytes) := by
  intro t u h
  rcases readBody_exact contentLength t with ⟨taken, t', ht, htt, hlen⟩ | ⟨t', hshort, htt, ht⟩
  · rcases readBody_exact contentLength u with ⟨taken', u', hu, huu, hlen'⟩ | ⟨u', hshort, _, _⟩
    · have hsplit := h.bytes_eq
      rw [htt.bytes_eq, huu.bytes_eq] at hsplit
      obtain ⟨rfl, _⟩ := List.append_inj hsplit (hlen.trans hlen'.symm)
      exact .of_eq ht hu (.of_advances h htt huu)
    · rw [← h.bytes_eq, htt.bytes_eq, List.length_append] at hshort
      omega
  · rcases readBody_exact contentLength u with ⟨taken', u', _, huu, hlen'⟩ | ⟨u', _, huu, hu⟩
    · rw [h.bytes_eq, huu.bytes_eq, List.length_append] at hshort
      omega
    · rw [← h.failure_eq] at hu
      exact .of_eq ht hu (.of_advances h htt (h.bytes_eq ▸ huu))

theorem blind_readBodyWithLength :
    Blind (readBodyWithLength contentLength : Method (Transport ι) (RequestReadError ι) Bytes) := by
  unfold readBodyWithLength
  by_cases h : contentLength ≤ isizeMax
  · rw [if_pos h]
    exact blind_readBodyFrom
  · rw [if_neg h]
    exact blind_call _

end

/-! ## What a request takes -/

/-- A body that makes a request be rejected once it has been read. -/
inductive Unfit (body : Bytes) : RequestFailure → Prop where
  | notUtf8 (h : fromUtf8 body = none) : Unfit body (badRequest "SQL body is not valid UTF-8")
  | combined {sql cut : String} {format : QueryResponseFormat} (h : fromUtf8 body = some sql)
      (hclause : takeTerminalQueryFormat sql = (.ok (cut, some format) : Exec RequestFailure _)) :
      Unfit body (combinedFormats format)

theorem Unfit.known {body : Bytes} {failure : RequestFailure} (h : Unfit body failure) : failure.Known := by
  cases h with
  | notUtf8 => exact known_new _ _
  | combined => exact known_new _ _

/-- What has been taken of the body of a rejected request, and the error: nothing, a body that was not fit, or what
was left of a stream too short for the body. -/
inductive BodyRejected (contentLength : Option Nat) (maxBodyBytes : Nat) (t t' : Transport ι) :
    RequestReadError ι → Prop where
  | unread {failure : RequestFailure} (advances : t.Advances [] t') (known : failure.Known) :
      BodyRejected contentLength maxBodyBytes t t' (.protocol failure)
  | unfit {body : Bytes} {failure : RequestFailure} (advances : t.Advances body t')
      (length_eq : body.length = contentLength.getD 0) (length_le : body.length ≤ maxBodyBytes)
      (unfit : Unfit body failure) : BodyRejected contentLength maxBodyBytes t t' (.protocol failure)
  | short {taken : Bytes} {n : Nat} (advances : t.Advances taken t') (length_eq : contentLength = some n)
      (length_le : n ≤ maxBodyBytes) (length_lt : taken.length < n) (ended : t'.bytes = []) :
      BodyRejected contentLength maxBodyBytes t t'
        (t'.failure.elim (.protocol (badRequest "request body is shorter than Content-Length")) .io)

/-- A body is announced that no buffer can hold, and the limit has nothing against it. -/
def Overlong (contentLength : Option Nat) (maxBodyBytes : Nat) : Prop :=
  ∃ n, contentLength = some n ∧ n ≤ maxBodyBytes ∧ isizeMax < n

/-- What a method has taken that succeeds in reading a body. -/
structure BodyTaken {α : Type} (contentLength : Option Nat) (maxBodyBytes : Nat) (holds : α → Bytes → Prop)
    (t : Transport ι) (a : α) (t' : Transport ι) (body : Bytes) : Prop where
  advances : t.Advances body t'
  length_eq : body.length = contentLength.getD 0
  length_le : body.length ≤ maxBodyBytes
  holds : holds a body

/-- A method that takes a body of the announced length, as far as it succeeds, and never more. -/
structure TakesBody {α : Type} (contentLength : Option Nat) (maxBodyBytes : Nat) (holds : α → Bytes → Prop)
    (m : Method (Transport ι) (RequestReadError ι) α) : Prop where
  blind : Blind m
  outcome : ∀ t, wlp m (fun a t' => ∃ body, BodyTaken contentLength maxBodyBytes holds t a t' body)
    (fun e t' => BodyRejected contentLength maxBodyBytes t t' e) t
  overlong : ∀ t, m t = none → Overlong contentLength maxBodyBytes

section
variable {α β : Type} {contentLength : Option Nat} {maxBodyBytes : Nat} {holds : α → Bytes → Prop}
  {holds' : β → Bytes → Prop}

theorem TakesBody.after {x : Exec RequestFailure α} {f : α → Method (Transport ι) (RequestReadError ι) β} {P : α → Prop}
    (hx : x.Ends P RequestFailure.Known) (hf : ∀ a, P a → TakesBody contentLength maxBodyBytes holds' (f a)) :
    TakesBody contentLength maxBodyBytes holds' (protocol x >>= f) := by
  cases x with
  | ok a => exact hf a hx
  | error e => exact ⟨fun _ _ h => .of_eq rfl rfl h, fun t => .unread (.refl t) hx, fun _ h => by cases h⟩
  | panic => exact hx.elim

theorem TakesBody.bind {m : Method (Transport ι) (RequestReadError ι) α} {x : α → Exec RequestFailure β}
    (hm : TakesBody contentLength maxBodyBytes holds m)
    (hx : ∀ a body, holds a body → (x a).Ends (fun b => holds' b body) (Unfit body)) :
    TakesBody contentLength maxBodyBytes holds' (m >>= fun a => protocol (x a)) := by
  refine ⟨hm.blind.bind fun a => blind_protocol _, fun t => ?_, fun t h => ?_⟩
  · rw [wlp_bind]
    refine wlp_mono (hm.outcome t) ?_ fun _ _ h => h
    rintro a t' ⟨body, htaken⟩
    have hends := hx a body htaken.holds
    rw [protocol]
    cases hxa : x a with
    | ok b =>
      rw [hxa] at hends
      exact ⟨body, htaken.advances, htaken.length_eq, htaken.length_le, hends⟩
    | error e =>
      rw [hxa] at hends
      exact .unfit htaken.advances htaken.length_eq htaken.length_le hends
    | panic => trivial
  · rcases bind_eq_none.1 h with h | ⟨a, t', ha, h⟩
    · exact hm.overlong t h
    · obtain ⟨body, htaken⟩ := (wlp_iff.1 (hm.outcome t)).1 a t' ha
      have hends := hx a body htaken.holds
      cases hxa : x a with
      | ok b =>
        rw [hxa] at h
        cases h
      | error e =>
        rw [hxa] at h
        cases h
      | panic =>
        rw [hxa] at hends
        exact hends.elim

theorem TakesBody.map {m : Method (Transport ι) (RequestReadError ι) α} {f : α → β}
    (hm : TakesBody contentLength maxBodyBytes holds m) (hf : ∀ a body, holds a body → holds' (f a) body) :
    TakesBody contentLength maxBodyBytes holds' (m >>= fun a => pure (f a)) := by
  refine ⟨hm.blind.bind fun a => blind_pure _, fun t => ?_, fun t h => ?_⟩
  · rw [wlp_bind]
    refine wlp_mono (hm.outcome t) ?_ fun _ _ h => h
    rintro a t' ⟨body, htaken⟩
    exact ⟨body, htaken.advances, htaken.length_eq, htaken.length_le, hf a body htaken.holds⟩
  · rcases bind_eq_none.1 h with h | ⟨a, t', _, h⟩
    · exact hm.overlong t h
    · cases h

theorem takesBody_protocol {x : Exec RequestFailure β} (hzero : contentLength.getD 0 = 0)
    (hx : x.Ends (fun b => holds' b []) RequestFailure.Known) :
    TakesBody contentLength maxBodyBytes holds' (protocol x : Method (Transport ι) (RequestReadError ι) β) := by
  cases x with
  | ok b => exact ⟨blind_protocol _, fun t => ⟨[], .refl t, hzero.symm, Nat.zero_le _, hx⟩, fun _ h => by cases h⟩
  | error e => exact ⟨blind_protocol _, fun t => .unread (.refl t) hx, fun _ h => by cases h⟩
  | panic => exact hx.elim

theorem takesBody_readBodyWithLength {n : Nat} (hcontent : contentLength = some n) (hle : n ≤ maxBodyBytes) :
    TakesBody contentLength maxBodyBytes (fun body taken => body = taken)
      (readBodyWithLength n : Method (Transport ι) (RequestReadError ι) Bytes) := by
  subst hcontent
  refine ⟨blind_readBodyWithLength, fun t => ?_, fun t h => ?_⟩
  · unfold readBodyWithLength
    by_cases hfits : n ≤ isizeMax
    · rw [if_pos hfits]
      rcases readBody_exact n t with ⟨taken, t', ht, hadvances, hlen⟩ | ⟨t', hshort, hadvances, ht⟩
      · rw [wlp, ht]
        exact ⟨taken, hadvances, hlen, hlen ▸ hle, rfl⟩
      · have hended : t'.bytes = [] := by
          have hbytes := hadvances.bytes_eq
          rwa [List.self_eq_append_right] at hbytes
        rw [wlp, ht, ← hadvances.failure_eq]
        exact .short hadvances rfl hle hshort hended
    · rw [if_neg hfits]
      trivial
  · unfold readBodyWithLength at h
    by_cases hfits : n ≤ isizeMax
    · rw [if_pos hfits] at h
      rcases readBody_exact n t with ⟨taken, t', ht, _, _⟩ | ⟨t', _, _, ht⟩
      · rw [h] at ht
        cases ht
      · rw [h] at ht
        cases ht
    · exact ⟨n, rfl, hle, Nat.lt_of_not_le hfits⟩

end

/-! ## Requests and their bodies -/

/-- Where the bytes of a body are found in a request; a FORMAT clause has been cut off its query. -/
inductive Carries : HttpRequest → Bytes → Prop where
  | tableInsert (table : String) (body : Bytes) (format : TableInsertFormat) :
      Carries (.tableInsert table body format) body
  | insert {sql : String} {body : Bytes} (h : fromUtf8 body = some sql) : Carries (.insert sql) body
  | query {sql text : String} {body : Bytes} {format : QueryResponseFormat} {limits : ParameterizedWorkloadLimits}
      (h : fromUtf8 body = some text) (hsql : sql.toList <+: text.toList) : Carries (.query sql format limits) body
  | nothing {request : HttpRequest} (h : ∀ table body format, request ≠ .tableInsert table body format) :
      Carries request []

theorem truncate_prefix {length : Nat} {text cut : List Char} (h : truncate length text = some cut) : cut <+: text := by
  induction text generalizing length cut with
  | nil =>
    rw [truncate] at h
    cases h
    exact List.prefix_refl _
  | cons c text ih =>
    rw [truncate] at h
    split_ifs at h
    · cases h
      exact List.nil_prefix
    · obtain ⟨cut', hcut, rfl⟩ := Option.map_eq_some_iff.1 h
      exact List.cons_prefix_cons.2 ⟨rfl, ih hcut⟩

theorem takeTerminalQueryFormat_eq_ok {sql cut : String} {format : Option QueryResponseFormat}
    (h : takeTerminalQueryFormat sql = (.ok (cut, format) : Exec RequestFailure _)) :
    cut.toList <+: sql.toList ∧ (format = none → cut = sql) := by
  unfold takeTerminalQueryFormat at h
  cases hterminal : terminalQueryFormat sql with
  | none =>
    rw [hterminal] at h
    cases h
    exact ⟨List.prefix_refl _, fun _ => rfl⟩
  | some clause =>
    rw [hterminal] at h
    obtain ⟨text, htext, h⟩ := Exec.bind_eq_ok.1 h
    cases h
    rw [String.toList_ofList]
    exact ⟨ truncate_prefix (orPanic_eq_ok.1 htext), fun hnone => by cases hnone⟩

theorem classify_ends {float : FloatText} {sql : String} {responseFormat : Option QueryResponseFormat}
    {workloadLimits : ParameterizedWorkloadLimits} {insertEnabled : Bool} :
    (classifyStandardQueryRequest float sql responseFormat workloadLimits insertEnabled).Ends
      (fun request => request = .insert sql ∨
        ∃ cut format, request = .query cut format workloadLimits ∧ cut.toList <+: sql.toList)
      (fun failure => ∃ cut format, takeTerminalQueryFormat sql = (.ok (cut, some format) : Exec RequestFailure _) ∧
        failure = combinedFormats format) := by
  have hends := takeTerminalQueryFormat_ends (E := fun _ => False) sql
  unfold classifyStandardQueryRequest
  cases hclause : (takeTerminalQueryFormat sql : Exec RequestFailure _) with
  | panic => exact absurd hclause hends.ne_panic
  | error failure =>
    rw [hclause] at hends
    exact hends.elim
  | ok clause =>
    obtain ⟨cut, sqlFormat⟩ := clause
    obtain ⟨hbefore, hnone⟩ := takeTerminalQueryFormat_eq_ok hclause
    rw [Exec.ok_bind]
    refine Ends.bind ((rejectCombinedFormats_ends _ _).mono (fun _ h => h) ?_) fun _ _ => ?_
    · rintro failure ⟨format, rfl, rfl⟩
      exact ⟨cut, format, rfl, rfl⟩
    · refine (routesToInsert_ends _ _ _).bind fun insert hinsert => ?_
      cases insert with
      | false => exact .inr ⟨cut, _, rfl, hbefore⟩
      | true =>
        -- Only a text without a FORMAT clause is looked into.
        have hplain := (Bool.and_eq_true_iff.1 (hinsert rfl)).2
        rw [Option.isNone_iff_eq_none] at hplain
        exact .inl (congrArg HttpRequest.insert (hnone hplain))

section
variable {float : FloatText} {limits : HttpQueryLimits} {request : ParsedRequest} {access : HttpAccess}
  {contentLength : Option Nat}

theorem takesBody_without {message : String} {request : HttpRequest}
    (hrequest : ∀ table body format, request ≠ .tableInsert table body format) {maxBodyBytes : Nat} :
    TakesBody contentLength maxBodyBytes Carries
      (protocol (rejectBody contentLength message) >>= fun _ => pure request :
        Method (Transport ι) (RequestReadError ι) HttpRequest) :=
  .after (rejectBody_ends _ _) fun _ hzero => takesBody_protocol (x := .ok request) hzero (.nothing hrequest)

theorem takesBody_readSqlBody :
    TakesBody contentLength limits.maxSqlBytes (fun sql body => fromUtf8 body = some sql)
      (readSqlBody contentLength limits.maxSqlBytes : Method (Transport ι) (RequestReadError ι) String) := by
  have hbounded : TakesBody contentLength limits.maxSqlBytes (fun body taken => body = taken)
      (readBoundedBody contentLength limits.maxSqlBytes : Method (Transport ι) (RequestReadError ι) Bytes) :=
    .after (boundedBodyLength_ends _ _) fun n hn => takesBody_readBodyWithLength hn.1 hn.2
  refine hbounded.bind fun body taken hbody => ?_
  rw [hbody]
  cases hutf8 : fromUtf8 taken with
  | none => exact .notUtf8 hutf8
  | some sql => rfl

theorem takesBody_readImportBody {format : String} {maxHttpBodyBytes maxBytes : Nat} :
    TakesBody contentLength maxHttpBodyBytes (fun body taken => body = taken)
      (readImportBody format contentLength maxHttpBodyBytes maxBytes :
        Method (Transport ι) (RequestReadError ι) Bytes) :=
  .after (boundedBodyLength_ends _ _) fun _ hn => .after (Ends.reject (known_new _ _)) fun _ _ =>
    takesBody_readBodyWithLength hn.1 hn.2

theorem takesBody_readTableInsertBody {format : TableInsertFormat} :
    TakesBody contentLength limits.maxSqlBytes (fun body taken => body = taken)
      (readTableInsertBody contentLength format limits : Method (Transport ι) (RequestReadError ι) Bytes) := by
  cases format <;> exact takesBody_readImportBody

theorem takesBody_tableInsert {table : String} {format : TableInsertFormat} :
    TakesBody contentLength limits.maxSqlBytes Carries
      (readTableInsertBody contentLength format limits >>= fun body => pure (.tableInsert table body format) :
        Method (Transport ι) (RequestReadError ι) HttpRequest) := by
  refine takesBody_readTableInsertBody.map fun body taken hbody => ?_
  rw [← hbody]
  exact .tableInsert table body format

theorem takesBody_readStandardQuery :
    TakesBody request.contentLength limits.maxSqlBytes Carries
      (readStandardQuery float limits request access : Method (Transport ι) (RequestReadError ι) HttpRequest) := by
  refine takesBody_readSqlBody.bind fun sql body hbody => classify_ends.mono ?_ ?_
  · rintro result (rfl | ⟨cut, format, rfl, hbefore⟩)
    · exact .insert hbody
    · exact .query hbody hbefore
  · rintro failure ⟨cut, format, hclause, rfl⟩
    exact .combined hbody hclause

theorem takesBody_readParameterizedQuery {encodedParameters : Bytes} {method : ParameterizedQueryMethod} :
    TakesBody request.contentLength limits.maxSqlBytes Carries
      (readParameterizedQuery float limits request access encodedParameters method :
        Method (Transport ι) (RequestReadError ι) HttpRequest) := by
  have hdecoded := (decodeQueryParameters_ends encodedParameters method limits.maxSqlBytes).mono
    (fun _ _ => trivial) fun _ h => RequestFailure.Plain.known h
  refine .after hdecoded fun decoded _ => .after (combinedResponseFormat_ends _ _) fun responseFormat _ => ?_
  refine .after (Ends.getOr (known_new _ _)) fun sql _ => ?_
  cases parameterizedImport method (access.tightenForRequest decoded.readonly) sql with
  | some target => exact .after (Ends.reject (known_new _ _)) fun _ _ => takesBody_tableInsert
  | none =>
    refine .after (rejectBody_ends _ _) fun _ hzero => takesBody_protocol hzero (classify_ends.mono ?_ ?_)
    · rintro result (rfl | ⟨cut, format, rfl, _⟩)
      · exact .nothing fun _ _ _ h => by cases h
      · exact .nothing fun _ _ _ h => by cases h
    · rintro failure ⟨cut, format, _, rfl⟩
      exact known_new _ _

theorem takesBody_readByKind :
    TakesBody request.contentLength limits.maxSqlBytes Carries
      (readByKind float limits request access : Method (Transport ι) (RequestReadError ι) HttpRequest) := by
  unfold readByKind
  cases request.kind with
  | ping => exact takesBody_without fun _ _ _ h => by cases h
  | ready => exact takesBody_without fun _ _ _ h => by cases h
  | metrics => exact takesBody_without fun _ _ _ h => by cases h
  | insert => exact takesBody_readSqlBody.map fun sql body hbody => .insert hbody
  | tableInsert table => exact takesBody_tableInsert
  | query source =>
    cases source with
    | body => exact takesBody_readStandardQuery
    | urlEncodedParameters encodedParameters method => exact takesBody_readParameterizedQuery

end

end RustHouse.Http
