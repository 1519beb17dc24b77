import RustHouse.HttpFraming
import RustHouse.HttpMessages
import RustHouse.IngestSound

/-!
# Accepted header blocks

A header block that is accepted is a request line and header fields, each ended
by a line break and none with one in it. It has exactly one host, announces at
most one length, and no encoding of the body.
-/

namespace RustHouse.Http

open Batch (FloatText)
open Checked Delimited Exec Method Transport Words

/-! ## Lines -/

theorem strictHeaderLine_followed {rawLine line : Bytes} (h : strictHeaderLine rawLine true = .ok line) :
    rawLine = line ++ [byte '\r'] := by
  rw [strictHeaderLine, if_pos rfl, getOr_eq_ok, List.isSuffixOf?_eq_some_iff_append_eq] at h
  exact h.symm

theorem strictHeaderLine_last {rawLine line : Bytes} (h : strictHeaderLine rawLine false = .ok line) :
    rawLine = line := by
  rw [strictHeaderLine, if_neg (by decide), Exec.bind_eq_ok] at h
  obtain ⟨_, _, h⟩ := h
  cases h
  rfl

theorem strictHeaderLine_prefix {rawLine line : Bytes} {followed : Bool}
    (h : strictHeaderLine rawLine followed = .ok line) : line <+: rawLine := by
  cases followed with
  | true => exact ⟨[byte '\r'], (strictHeaderLine_followed h).symm⟩
  | false => exact strictHeaderLine_last h ▸ List.prefix_refl _

theorem join_strict {rawLine line : Bytes} {rawLines lines : List Bytes}
    (h : strictHeaderLine rawLine (rawLines ≠ []) = .ok line)
    (hrest : rawLines ≠ [] → join (byte '\n') rawLines ++ crlf = lines.flatMap (· ++ crlf))
    (hnil : rawLines = [] → lines = []) :
    join (byte '\n') (rawLine :: rawLines) ++ crlf = (line :: lines).flatMap (· ++ crlf) := by
  by_cases hlast : rawLines = []
  · subst hlast
    rw [hnil rfl]
    rw [strictHeaderLine_last h]
    simp [join]
  · have hfollowed : decide (rawLines ≠ []) = true := decide_eq_true hlast
    rw [hfollowed] at h
    rw [strictHeaderLine_followed h, join_cons _ _ hlast, List.flatMap_cons, ← hrest hlast]
    simp [crlf]

/-! ## One header field -/

section
variable {authentication : Authentication} {fields fields' : HeaderFields} {name value : Bytes}

theorem splitHeaderLine_eq_ok {line : Bytes} (h : splitHeaderLine line = .ok (name, value)) :
    ∃ field : HeaderField, line = field.line ∧ field.name = name ∧ field.value = value ∧ name ≠ [] ∧
      byte ':' ∉ name := by
  by_cases hcolon : byte ':' ∈ line
  · obtain ⟨before, after, rfl, hbefore⟩ := List.eq_append_cons_of_mem hcolon
    rw [splitHeaderLine, idxOf?_append_cons hbefore] at h
    simp only [getOr_some, Exec.ok_bind, slice_before, slice_after, orPanic_some] at h
    obtain ⟨_, hvalid, h⟩ := Exec.bind_eq_ok.1 h
    cases h
    rw [rejectIf_eq_ok, not_or] at hvalid
    exact ⟨⟨name, after⟩, rfl, rfl, rfl, hvalid.1, hbefore⟩
  · rw [splitHeaderLine, List.idxOf?_eq_none_iff.2 hcolon] at h
    cases h

theorem parseContentLengthFrom_eq {length : Nat} (hdigits : ∀ b ∈ value, isAsciiDigit b = true) {n : Nat} :
    parseContentLengthFrom length value = .ok n ↔ parseDecimalFrom "" "" length value = .ok n := by
  induction value generalizing length with
  | nil => exact Iff.rfl
  | cons b value ih =>
    obtain ⟨hb, hvalue⟩ := List.forall_mem_cons.1 hdigits
    have hnot : ¬ isAsciiDigit b = false := by rw [hb]; decide
    rw [parseContentLengthFrom, parseDecimalFrom, rejectIf_of_not hnot, Exec.ok_bind, Exec.bind_eq_ok,
      Exec.bind_eq_ok]
    simp only [getOr_eq_ok, ih hvalue]

theorem parseContentLength_eq_ok {n : Nat} (h : parseContentLength value = .ok n) : value ≠ [] ∧ Decimal n value := by
  obtain ⟨_, hvalid, h⟩ := Exec.bind_eq_ok.1 h
  rw [rejectIf_eq_ok, not_or, not_not, List.all_eq_true] at hvalid
  exact ⟨hvalid.1, (parseDecimalFrom_eq_ok (Nat.zero_le _)).1 ((parseContentLengthFrom_eq hvalid.2).1 h)⟩

theorem eqIgnoreCase_unique {s : String} (s' : String) (h : eqIgnoreCase name s = true)
    (hne : (ascii s).map eqIgnoreCase.toLowerByte ≠ (ascii s').map eqIgnoreCase.toLowerByte) :
    eqIgnoreCase name s' = false := by
  unfold eqIgnoreCase at h ⊢
  rw [decide_eq_true_eq] at h
  rw [decide_eq_false_iff_not, h]
  exact hne

/-- What a field says of the length of the body, the host and the encoding. -/
structure Recorded (fields : HeaderFields) (name value : Bytes) (fields' : HeaderFields) : Prop where
  transferEncoding : fields'.transferEncodingSeen =
    (fields.transferEncodingSeen || eqIgnoreCase name "transfer-encoding")
  host : fields'.hostSeen = (fields.hostSeen || eqIgnoreCase name "host")
  host_once : eqIgnoreCase name "host" = true → fields.hostSeen = false
  contentLength : eqIgnoreCase name "content-length" = false → fields'.contentLength = fields.contentLength
  contentLength_once : eqIgnoreCase name "content-length" = true →
    fields.contentLength = none ∧ ∃ n, Decimal n value ∧ value ≠ [] ∧ fields'.contentLength = some n

theorem recordHeader_eq_ok (h : recordHeader authentication fields name value = .ok fields') :
    Recorded fields name value fields' := by
  unfold recordHeader at h
  by_cases hlength : eqIgnoreCase name "content-length" = true
  · rw [if_pos hlength] at h
    obtain ⟨_, honce, h⟩ := Exec.bind_eq_ok.1 h
    obtain ⟨n, hn, h⟩ := Exec.bind_eq_ok.1 h
    cases h
    rw [rejectIf_eq_ok, Bool.not_eq_true, Option.isSome_eq_false_iff, Option.isNone_iff_eq_none] at honce
    have hvalue := parseContentLength_eq_ok hn
    have htransfer := eqIgnoreCase_unique "transfer-encoding" hlength (by decide)
    have hhost := eqIgnoreCase_unique "host" hlength (by decide)
    refine ⟨?_, ?_, ?_, ?_, fun _ => ⟨honce, n, hvalue.2, hvalue.1, rfl⟩⟩
    · rw [htransfer, Bool.or_false]
    · rw [hhost, Bool.or_false]
    · rw [hhost]
      exact fun h => absurd h (by decide)
    · rw [hlength]
      exact fun h => absurd h (by decide)
  · rw [if_neg hlength] at h
    have hother : eqIgnoreCase name "content-length" = true →
        fields.contentLength = none ∧ ∃ n, Decimal n value ∧ value ≠ [] ∧ fields'.contentLength = some n :=
      fun h => absurd h hlength
    by_cases htransfer : eqIgnoreCase name "transfer-encoding" = true
    · rw [if_pos htransfer] at h
      cases h
      have hhost := eqIgnoreCase_unique "host" htransfer (by decide)
      refine ⟨by rw [htransfer, Bool.or_true], by rw [hhost, Bool.or_false], ?_, fun _ => rfl, hother⟩
      rw [hhost]
      exact fun h => absurd h (by decide)
    · rw [if_neg htransfer] at h
      have htransfer := Bool.eq_false_of_not_eq_true htransfer
      by_cases hexpect : eqIgnoreCase name "expect" = true
      · rw [if_pos hexpect] at h
        cases h
        have hhost := eqIgnoreCase_unique "host" hexpect (by decide)
        refine ⟨by rw [htransfer, Bool.or_false], by rw [hhost, Bool.or_false], ?_, fun _ => rfl, hother⟩
        rw [hhost]
        exact fun h => absurd h (by decide)
      · rw [if_neg hexpect] at h
        by_cases hhost : eqIgnoreCase name "host" = true
        · rw [if_pos hhost] at h
          obtain ⟨_, honce, h⟩ := Exec.bind_eq_ok.1 h
          cases h
          rw [rejectIf_eq_ok, not_or, Bool.not_eq_true] at honce
          exact ⟨by rw [htransfer, Bool.or_false], by rw [hhost, Bool.or_true], fun _ => honce.1, fun _ => rfl, hother⟩
        · rw [if_neg hhost] at h
          have hsame : fields'.transferEncodingSeen = fields.transferEncodingSeen ∧
              fields'.hostSeen = fields.hostSeen ∧ fields'.contentLength = fields.contentLength := by
            split_ifs at h <;> cases h <;> exact ⟨rfl, rfl, rfl⟩
          obtain ⟨htransfer', hhost', hlength'⟩ := hsame
          refine ⟨by rw [htransfer, Bool.or_false, htransfer'], ?_, fun h => absurd h hhost, fun _ => hlength', hother⟩
          rw [Bool.eq_false_of_not_eq_true hhost, Bool.or_false, hhost']

end

/-! ## All header fields -/

/-- What header fields say of the length of the body, the host and the encoding, behind what is known before. -/
structure Announces (fields : HeaderFields) (headers : List HeaderField) (fields' : HeaderFields) : Prop where
  transferEncoding : fields'.transferEncodingSeen = false → ∀ field ∈ headers, field.isNamed "transfer-encoding" = false
  host : fields'.hostSeen.toNat = fields.hostSeen.toNat + headers.countP (·.isNamed "host")
  contentLength : fields.contentLength.isSome.toNat + headers.countP (·.isNamed "content-length") =
    fields'.contentLength.isSome.toNat
  contentLength_value : ∀ n, fields'.contentLength = some n → fields.contentLength = some n ∨
    ∃ field ∈ headers, field.isNamed "content-length" = true ∧ Decimal n field.value ∧ field.value ≠ []

section
variable {authentication : Authentication} {fields fields' next : HeaderFields} {headers : List HeaderField}
  {field : HeaderField}

theorem announces_nil (fields : HeaderFields) : Announces fields [] fields :=
  ⟨fun _ => List.forall_mem_nil _, rfl, rfl, fun _ h => .inl h⟩

theorem transferEncoding_first
    (hmonotone : next.transferEncodingSeen = true → fields'.transferEncodingSeen = true)
    (hfalse : fields'.transferEncodingSeen = false) : next.transferEncodingSeen = false := by
  cases hnext : next.transferEncodingSeen with
  | false => rfl
  | true =>
    rw [hmonotone hnext] at hfalse
    cases hfalse

theorem Announces.cons (hfirst : Recorded fields field.name field.value next) (hrest : Announces next headers fields')
    (hmonotone : next.transferEncodingSeen = true → fields'.transferEncodingSeen = true) :
    Announces fields (field :: headers) fields' := by
  refine ⟨fun hfalse => ?_, ?_, ?_, fun n hn => ?_⟩
  · have hnext := transferEncoding_first hmonotone hfalse
    rw [hfirst.transferEncoding, Bool.or_eq_false_iff] at hnext
    exact List.forall_mem_cons.2 ⟨hnext.2, hrest.transferEncoding hfalse⟩
  · rw [hrest.host, hfirst.host, List.countP_cons, HeaderField.isNamed_eq]
    cases hhost : eqIgnoreCase field.name "host" with
    | false =>
      rw [if_neg Bool.false_ne_true, Bool.or_false]
      omega
    | true =>
      rw [if_pos rfl, hfirst.host_once hhost, Bool.or_true]
      simp only [Bool.toNat_true, Bool.toNat_false]
      omega
  · rw [List.countP_cons, ← hrest.contentLength, HeaderField.isNamed_eq]
    cases hlength : eqIgnoreCase field.name "content-length" with
    | false =>
      rw [if_neg Bool.false_ne_true, hfirst.contentLength hlength]
      omega
    | true =>
      obtain ⟨hnone, m, _, _, hsome⟩ := hfirst.contentLength_once hlength
      rw [if_pos rfl, hnone, hsome]
      simp only [Option.isSome_none, Option.isSome_some, Bool.toNat_true, Bool.toNat_false]
      omega
  · rcases hrest.contentLength_value n hn with hsome | ⟨later, hlater, hnamed⟩
    · cases hlength : eqIgnoreCase field.name "content-length" with
      | false => exact .inl (by rw [← hfirst.contentLength hlength, hsome])
      | true =>
        obtain ⟨_, m, hdecimal, hne, hm⟩ := hfirst.contentLength_once hlength
        rw [hsome] at hm
        cases hm
        exact .inr ⟨field, List.mem_cons_self, hlength, hdecimal, hne⟩
    · exact .inr ⟨later, List.mem_cons_of_mem _ hlater, hnamed⟩

theorem parseHeaderLines_transferEncoding {maxHeaderCount headerCount : Nat} {rawLines : List Bytes}
    (h : parseHeaderLines maxHeaderCount authentication headerCount fields rawLines = .ok fields')
    (hseen : fields.transferEncodingSeen = true) : fields'.transferEncodingSeen = true := by
  induction rawLines generalizing fields headerCount with
  | nil =>
    cases h
    exact hseen
  | cons rawLine rawLines ih =>
    rw [parseHeaderLines] at h
    obtain ⟨_, _, h⟩ := Exec.bind_eq_ok.1 h
    obtain ⟨_, _, h⟩ := Exec.bind_eq_ok.1 h
    obtain ⟨⟨name, value⟩, _, h⟩ := Exec.bind_eq_ok.1 h
    obtain ⟨next, hnext, h⟩ := Exec.bind_eq_ok.1 h
    refine ih h ?_
    rw [(recordHeader_eq_ok hnext).transferEncoding, hseen, Bool.true_or]

theorem parseHeaderLines_eq_ok {maxHeaderCount headerCount : Nat} {rawLines : List Bytes}
    (hcount : headerCount + rawLines.length ≤ usizeMax)
    (h : parseHeaderLines maxHeaderCount authentication headerCount fields rawLines = .ok fields') :
    ∃ headers : List HeaderField,
      (rawLines ≠ [] → join (byte '\n') rawLines ++ crlf = (headers.map HeaderField.line).flatMap (· ++ crlf)) ∧
      (rawLines = [] → headers = []) ∧ (rawLines ≠ [] → headerCount + headers.length ≤ maxHeaderCount) ∧
      (∀ field ∈ headers, field.name ≠ [] ∧ byte ':' ∉ field.name) ∧
      (∀ field ∈ headers, ∃ rawLine ∈ rawLines, field.line <+: rawLine) ∧ Announces fields headers fields' := by
  induction rawLines generalizing fields headerCount with
  | nil =>
    cases h
    exact ⟨[], fun h => absurd rfl h, fun _ => rfl, fun h => absurd rfl h, List.forall_mem_nil _,
      List.forall_mem_nil _, announces_nil _⟩
  | cons rawLine rawLines ih =>
    rw [parseHeaderLines] at h
    rw [List.length_cons] at hcount
    have hsaturating : saturatingAdd headerCount 1 = headerCount + 1 := saturatingAdd_of_le (by omega)
    rw [hsaturating] at h
    obtain ⟨line, hline, h⟩ := Exec.bind_eq_ok.1 h
    obtain ⟨_, hallowed, h⟩ := Exec.bind_eq_ok.1 h
    obtain ⟨⟨name, value⟩, hsplit, hrest⟩ := Exec.bind_eq_ok.1 h
    obtain ⟨field, rfl, rfl, rfl, hname, hcolon⟩ := splitHeaderLine_eq_ok hsplit
    obtain ⟨next, hnext, hrest⟩ := Exec.bind_eq_ok.1 hrest
    have hcount' : headerCount + 1 + rawLines.length ≤ usizeMax := by omega
    obtain ⟨headers, hjoin, hnil, hle, hnames, hlines, hannounces⟩ := ih hcount' hrest
    rw [rejectIf_eq_ok, Nat.not_lt] at hallowed
    refine ⟨field :: headers, fun _ => ?_, fun h => absurd h (List.cons_ne_nil _ _), fun _ => ?_,
      List.forall_mem_cons.2 ⟨⟨hname, hcolon⟩, hnames⟩,
      List.forall_mem_cons.2 ⟨⟨rawLine, List.mem_cons_self, strictHeaderLine_prefix hline⟩, fun field hfield => ?_⟩,
      .cons (recordHeader_eq_ok hnext) hannounces (parseHeaderLines_transferEncoding hrest)⟩
    · exact join_strict hline hjoin fun h => by rw [hnil h, List.map_nil]
    · by_cases hlast : rawLines = []
      · rw [hnil hlast]
        exact hallowed
      · have hle := hle hlast
        rw [List.length_cons]
        omega
    · obtain ⟨rawLine, hmem, hbefore⟩ := hlines field hfield
      exact ⟨rawLine, List.mem_cons_of_mem _ hmem, hbefore⟩

end

/-! ## Header blocks -/

/-- The lines of an accepted header block and what they announce. -/
structure Framed (maxHeaderCount : Nat) (header requestLine : Bytes) (headers : List HeaderField)
    (contentLength : Option Nat) : Prop extends Headed header requestLine headers contentLength where
  length_le : headers.length ≤ maxHeaderCount
  host : headers.countP (·.isNamed "host") = 1

section
variable {maxHeaderCount : Nat} {authentication : Authentication} {access access' : HttpAccess} {header : Bytes}

theorem carriageReturn_notMem {lines : List Bytes} (hframing : Framing (lines.flatMap (· ++ crlf) ++ crlf))
    {line : Bytes} (hline : line ∈ lines) (hfeed : byte '\n' ∉ line) : byte '\r' ∉ line := by
  intro hreturn
  obtain ⟨earlier, later, rfl⟩ := List.append_of_mem hline
  obtain ⟨before, after, rfl⟩ := List.append_of_mem hreturn
  have hblock : ∀ (b : UInt8) (rest : Bytes), after ++ crlf = b :: rest → b = byte '\n' := by
    intro b rest hnext
    have hbefore : earlier.flatMap (· ++ crlf) ++ before ++ [byte '\r'] ++ [b] <+:
        (earlier ++ (before ++ byte '\r' :: after) :: later).flatMap (· ++ crlf) ++ crlf := by
      refine ⟨rest ++ later.flatMap (· ++ crlf) ++ crlf, ?_⟩
      rw [List.flatMap_append, List.flatMap_cons, List.append_assoc before, List.cons_append, hnext]
      simp [List.append_assoc]
    have hkept := hframing _ b hbefore
    by_contra hne
    exact hkept (.inr ⟨by simp, hne⟩)
  cases after with
  | nil => exact absurd (hblock (byte '\r') [byte '\n'] rfl) (by decide)
  | cons b after =>
    have hb := hblock b (after ++ crlf) rfl
    exact hfeed (List.mem_append_right _ (List.mem_cons_of_mem _ (hb ▸ List.mem_cons_self)))

theorem checkHeaders_eq_ok {kind : RequestKind} {fields : HeaderFields} (h : checkHeaders kind fields access = .ok ()) :
    fields.transferEncodingSeen = false ∧ fields.hostSeen = true := by
  simp only [checkHeaders, Exec.bind_eq_ok, rejectIf_eq_ok] at h
  obtain ⟨_, _, _, _, _, _, _, htransfer, _, _, hhost⟩ := h
  exact ⟨Bool.eq_false_of_not_eq_true htransfer, Bool.eq_true_of_not_eq_false hhost⟩

theorem parseHeaders_eq_ok {request : ParsedRequest} (hframing : Framing header) (hlen : header.length ≤ usizeMax)
    (h : parseHeaders header maxHeaderCount authentication access = .ok (request, access')) :
    ∃ requestLine headers, Framed maxHeaderCount header requestLine headers request.contentLength := by
  obtain ⟨text, htext, h⟩ := Exec.bind_eq_ok.1 h
  rw [getOr_eq_ok, List.isSuffixOf?_eq_some_iff_append_eq] at htext
  have hfeed := @notMem_of_mem_splitOn _ _ (byte '\n') text
  have hjoin := join_splitOn (byte '\n') text
  have hcount := count_join hfeed (List.splitOn_ne_nil _ _)
  rw [hjoin] at hcount
  cases hlines : text.splitOn (byte '\n') with
  | nil => exact absurd hlines (List.splitOn_ne_nil _ _)
  | cons rawLine rawLines =>
    rw [hlines] at h hfeed hjoin hcount
    obtain ⟨requestLine, hrequestLine, h⟩ := Exec.bind_eq_ok.1 h
    obtain ⟨kind, hkind, h⟩ := Exec.bind_eq_ok.1 h
    obtain ⟨fields, hfields, h⟩ := Exec.bind_eq_ok.1 h
    obtain ⟨access, _, h⟩ := Exec.bind_eq_ok.1 h
    obtain ⟨_, hcheck, h⟩ := Exec.bind_eq_ok.1 h
    obtain ⟨responseFormat, _, h⟩ := Exec.bind_eq_ok.1 h
    obtain ⟨insertFormat, _, h⟩ := Exec.bind_eq_ok.1 h
    cases h
    obtain ⟨hfeedFirst, hfeedRest⟩ := List.forall_mem_cons.1 hfeed
    obtain ⟨htransfer, hhost⟩ := checkHeaders_eq_ok hcheck
    have hfew : 0 + rawLines.length ≤ usizeMax := by
      have hle := List.count_le_length (a := byte '\n') (l := text)
      rw [← htext, List.length_append] at hlen
      rw [List.length_cons] at hcount
      omega
    obtain ⟨headers, hrest, hnil, hle, hnames, hprefixes, hannounces⟩ := parseHeaderLines_eq_ok hfew hfields
    have hblock : header = (requestLine :: headers.map HeaderField.line).flatMap (· ++ crlf) ++ crlf := by
      rw [← join_strict hrequestLine hrest fun h => by rw [hnil h, List.map_nil], hjoin, ← htext, List.append_assoc]
      rfl
    have hunfed : ∀ line ∈ requestLine :: headers.map HeaderField.line, byte '\n' ∉ line := by
      refine List.forall_mem_cons.2 ⟨fun hmem => hfeedFirst (List.IsPrefix.subset ( strictHeaderLine_prefix hrequestLine) hmem), ?_⟩
      intro line hline hmem
      obtain ⟨field, hfield, rfl⟩ := List.mem_map.1 hline
      obtain ⟨rawLine, hraw, hbefore⟩ := hprefixes field hfield
      exact hfeedRest rawLine hraw (List.IsPrefix.subset hbefore hmem)
    have hnotEmpty : requestLine ≠ [] := by
      rintro rfl
      cases hkind
    refine ⟨requestLine, headers, ⟨hblock, fun line hline => ?_, hnotEmpty, hnames,
      hannounces.transferEncoding htransfer, ?_, ?_⟩, ?_, ?_⟩
    · exact ⟨carriageReturn_notMem (hblock ▸ hframing) hline (hunfed line hline), hunfed line hline⟩
    · simpa [HeaderFields.empty] using hannounces.contentLength
    · intro n hn
      rcases hannounces.contentLength_value n hn with hempty | hfield
      · cases hempty
      · exact hfield
    · by_cases hlast : rawLines = []
      · rw [hnil hlast]
        exact Nat.zero_le _
      · have hle := hle hlast
        omega
    · have hcountHost := hannounces.host
      rw [hhost] at hcountHost
      simpa [HeaderFields.empty] using hcountHost.symm

end

/-! ## Requests -/

section
variable {ι : Type} {float : FloatText} {limits : HttpQueryLimits} {authentication : Authentication}
  {access : HttpAccess}

theorem blind_readRequest :
    Blind (readRequest float limits authentication access : Method (Transport ι) (RequestReadError ι) HttpRequest) :=
  blind_readHeaderBlock.bind fun _ => (blind_protocol _).bind fun _ => takesBody_readByKind.blind

structure Accepted (limits : HttpQueryLimits) (t t' : Transport ι) (request : HttpRequest) (header body : Bytes)
    (contentLength : Option Nat) : Prop where
  advances : t.Advances (header ++ body) t'
  block : HeaderBlock limits.maxHeaderBytes header
  framed : ∃ requestLine headers, Framed limits.maxHeaderCount header requestLine headers contentLength
  length_eq : body.length = contentLength.getD 0
  length_le : body.length ≤ limits.maxSqlBytes
  carries : Carries request body

/-- What a rejected request has taken, and why it was rejected: a part of a header block where reading stopped, a
header block that is not accepted, or an accepted one and what was read of its body. -/
inductive Rejected (limits : HttpQueryLimits) (authentication : Authentication) (access : HttpAccess)
    (t t' : Transport ι) : RequestReadError ι → Prop where
  | inHeader {error : RequestReadError ι} (taken : Bytes) (advances : t.Advances taken t')
      (incomplete : Incomplete limits.maxHeaderBytes taken) (stopped : Stopped limits.maxHeaderBytes t' taken error) :
      Rejected limits authentication access t t' error
  | behindHeader {failure : RequestFailure} (header : Bytes) (advances : t.Advances header t')
      (block : HeaderBlock limits.maxHeaderBytes header)
      (rejected : parseHeaders header limits.maxHeaderCount authentication access = .error failure) :
      Rejected limits authentication access t t' (.protocol failure)
  | inBody {error : RequestReadError ι} (header : Bytes) (behind : Transport ι) (contentLength : Option Nat)
      (advances : t.Advances header behind) (block : HeaderBlock limits.maxHeaderBytes header)
      (framed : ∃ requestLine headers, Framed limits.maxHeaderCount header requestLine headers contentLength)
      (body : BodyRejected contentLength limits.maxSqlBytes behind t' error) :
      Rejected limits authentication access t t' error

/-- A failure by the protocol brings along a header field that there is for failures, or none. -/
def RequestReadError.Known : RequestReadError ι → Prop
  | .io _ => True
  | .protocol rejection => rejection.Known

section
variable {t t' : Transport ι} {error : RequestReadError ι}

theorem Stopped.known {maxHeaderBytes : Nat} {taken : Bytes} (h : Stopped maxHeaderBytes t' taken error) :
    error.Known := by
  cases h with
  | broken => exact known_new _ _
  | full => exact known_new _ _
  | ended => exact known_new _ _
  | failed => trivial

theorem BodyRejected.bounded {contentLength : Option Nat} {maxBodyBytes : Nat}
    (h : BodyRejected contentLength maxBodyBytes t t' error) :
    ∃ taken, t.Advances taken t' ∧ taken.length ≤ maxBodyBytes := by
  cases h with
  | unread advances => exact ⟨[], advances, Nat.zero_le _⟩
  | unfit advances _ length_le => exact ⟨_, advances, length_le⟩
  | short advances _ length_le length_lt => exact ⟨_, advances, by omega⟩

theorem BodyRejected.known {contentLength : Option Nat} {maxBodyBytes : Nat}
    (h : BodyRejected contentLength maxBodyBytes t t' error) : error.Known := by
  cases h with
  | unread _ known => exact known
  | unfit _ _ _ unfit => exact unfit.known
  | short =>
    cases t'.failure with
    | none => exact known_new _ _
    | some e => trivial

theorem Rejected.bounded (h : Rejected limits authentication access t t' error) :
    ∃ taken, t.Advances taken t' ∧ taken.length ≤ limits.maxHeaderBytes + limits.maxSqlBytes := by
  cases h with
  | inHeader taken advances incomplete => exact ⟨taken, advances, Nat.le_add_right_of_le incomplete.length_le⟩
  | behindHeader header advances block => exact ⟨header, advances, Nat.le_add_right_of_le block.length_le⟩
  | inBody header behind contentLength advances block _ body =>
    obtain ⟨taken, hbody, hle⟩ := body.bounded
    refine ⟨header ++ taken, advances.trans hbody, ?_⟩
    rw [List.length_append]
    exact Nat.add_le_add block.length_le hle

end

theorem readRequest_known (t : Transport ι) :
    wlp (readRequest float limits authentication access) (fun _ _ => True) (fun error _ => error.Known) t := by
  rw [readRequest, wlp_bind]
  refine wlp_mono (wlp_of_wp readHeaderBlock_wp) ?_ ?_
  · rintro header t' _
    rw [wlp_bind, protocol, wlp_call]
    refine ⟨fun parsed _ => ?_, fun e hrejected => ?_⟩
    · exact wlp_mono (takesBody_readByKind.outcome t') (fun _ _ _ => trivial) fun _ _ h => h.known
    · obtain ⟨failure, hfailure, rfl⟩ := mapError_eq_error.1 hrejected
      have hends := parseHeaders_ends header limits.maxHeaderCount authentication access
      rw [hfailure] at hends
      exact hends
  · rintro e t' ⟨taken, _, _, hstopped⟩
    exact hstopped.known

theorem readRequest_wlp (hbytes : limits.maxHeaderBytes ≤ usizeMax) (t : Transport ι) :
    wlp (readRequest float limits authentication access)
      (fun request t' => ∃ header body contentLength, Accepted limits t t' request header body contentLength)
      (fun error t' => Rejected limits authentication access t t' error) t := by
  rw [readRequest, wlp_bind]
  refine wlp_mono (wlp_of_wp readHeaderBlock_wp) ?_ fun e t' h => ?_
  · rintro header t' ⟨hadvances, hblock⟩
    rw [wlp_bind, protocol, wlp_call]
    refine ⟨fun parsed hparsed => ?_, fun e hrejected => ?_⟩
    · obtain ⟨request, access'⟩ := parsed
      have hlen := Nat.le_trans hblock.length_le hbytes
      have hframed := parseHeaders_eq_ok hblock.framing hlen (mapError_eq_ok.1 hparsed)
      refine wlp_mono (takesBody_readByKind.outcome t') ?_ ?_
      · rintro result t'' ⟨body, htaken⟩
        exact ⟨header, body, request.contentLength, hadvances.trans htaken.advances, hblock, hframed,
          htaken.length_eq, htaken.length_le, htaken.holds⟩
      · intro e t'' hbody
        exact .inBody header t' request.contentLength hadvances hblock hframed hbody
    · obtain ⟨failure, hfailure, rfl⟩ := mapError_eq_error.1 hrejected
      exact .behindHeader header hadvances hblock hfailure
  · obtain ⟨taken, hadvances, hincomplete, hstopped⟩ := h
    exact .inHeader taken hadvances hincomplete hstopped

/-- Reading a request only panics where a body is announced that no buffer can hold. -/
theorem readRequest_eq_none (hbytes : limits.maxHeaderBytes ≤ usizeMax) {t : Transport ι}
    (h : readRequest float limits authentication access t = none) :
    ∃ header behind contentLength, t.Advances header behind ∧ HeaderBlock limits.maxHeaderBytes header ∧
      (∃ requestLine headers, Framed limits.maxHeaderCount header requestLine headers contentLength) ∧
      Overlong contentLength limits.maxSqlBytes := by
  have hheader := wp_iff.1 (@readHeaderBlock_wp ι limits.maxHeaderBytes t)
  rcases bind_eq_none.1 h with h | ⟨header, behind, hread, h⟩
  · exact absurd h hheader.1
  · obtain ⟨hadvances, hblock⟩ := hheader.2.1 header behind hread
    have hends := parseHeaders_ends header limits.maxHeaderCount authentication access
    rcases bind_eq_none.1 h with h | ⟨parsed, behind', hparsed, h⟩
    · cases hparse : parseHeaders header limits.maxHeaderCount authentication access with
      | panic => exact absurd hparse hends.ne_panic
      | ok parsed =>
        rw [hparse] at h
        cases h
      | error failure =>
        rw [hparse] at h
        cases h
    · obtain ⟨haccepted, rfl⟩ := call_eq_ok.1 hparsed
      obtain ⟨request, access'⟩ := parsed
      have hlen := Nat.le_trans hblock.length_le hbytes
      have hframed := parseHeaders_eq_ok hblock.framing hlen (mapError_eq_ok.1 haccepted)
      exact ⟨header, behind, request.contentLength, hadvances, hblock, hframed, takesBody_readByKind.overlong _ h⟩

end

/-- **Framing.** Reading a request does not depend on how the stream is cut
into pieces, and it returns a request or an error, unless a body is announced
that no buffer can hold and the limit lets it through. An accepted request has
taken its header block up to the first empty line and the announced body, no
more. A rejected one has taken what was read up to the place that it was
rejected for. -/
theorem read_request_framing {ι : Type} (float : FloatText) (limits : HttpQueryLimits)
    (authentication : Authentication) (access : HttpAccess) (hbytes : limits.maxHeaderBytes ≤ usizeMax) :
    Blind (readRequest float limits authentication access : Method (Transport ι) (RequestReadError ι) HttpRequest) ∧
    (∀ t : Transport ι, readRequest float limits authentication access t = none →
      ∃ header behind contentLength, t.Advances header behind ∧ HeaderBlock limits.maxHeaderBytes header ∧
        (∃ requestLine headers, Framed limits.maxHeaderCount header requestLine headers contentLength) ∧
        Overlong contentLength limits.maxSqlBytes) ∧
    (limits.maxSqlBytes ≤ isizeMax → ∀ t : Transport ι,
      ∃ result t', readRequest float limits authentication access t = some (result, t')) ∧
    (∀ (t t' : Transport ι) (request : HttpRequest),
      readRequest float limits authentication access t = some (.ok request, t') →
        ∃ header body contentLength, Accepted limits t t' request header body contentLength ∧
          (header ++ body).length ≤ limits.maxHeaderBytes + limits.maxSqlBytes) ∧
    ∀ (t t' : Transport ι) (error : RequestReadError ι),
      readRequest float limits authentication access t = some (.error error, t') →
        Rejected limits authentication access t t' error ∧
          ∃ taken, t.Advances taken t' ∧ taken.length ≤ limits.maxHeaderBytes + limits.maxSqlBytes := by
  refine ⟨blind_readRequest, fun t h => readRequest_eq_none hbytes h, fun hfits t => ?_, fun t t' request h => ?_,
    fun t t' error h => ?_⟩
  · cases hrun : readRequest float limits authentication access t with
    | some outcome => exact ⟨outcome.1, outcome.2, rfl⟩
    | none =>
      obtain ⟨_, _, _, _, _, _, n, _, hle, hlt⟩ := readRequest_eq_none hbytes hrun
      omega
  · obtain ⟨header, body, contentLength, haccepted⟩ := (wlp_iff.1 (readRequest_wlp hbytes t)).1 request t' h
    refine ⟨header, body, contentLength, haccepted, ?_⟩
    rw [List.length_append]
    exact Nat.add_le_add haccepted.block.length_le haccepted.length_le
  · have hrejected := (wlp_iff.1 (readRequest_wlp hbytes t)).2 error t' h
    exact ⟨hrejected, hrejected.bounded⟩

def sampleLimits : HttpQueryLimits := ⟨100, 4, 100, ⟨100, 10, 10⟩, ⟨100, 10, 10⟩, 1000⟩

/-- A ping in two pieces. -/
def pingTransport : Transport Unit :=
  ⟨[⟨ascii "GET /ping HTTP/1.1\r\nHost:", by decide⟩, ⟨ascii " a\r\n\r\n", by decide⟩], none⟩

/-- A query whose body is not UTF-8. -/
def brokenTransport : Transport Unit :=
  ⟨[⟨ascii "POST / HTTP/1.1\r\nHost: a\r\nContent-Length: 1\r\n\r\n" ++ [0xFF], by decide⟩], none⟩

theorem read_request_framing_ping :
    (∃ header body contentLength, Accepted sampleLimits pingTransport ⟨[], none⟩ .ping header body contentLength ∧
      (header ++ body).length ≤ 200) ∧
    Rejected sampleLimits .none .readWrite brokenTransport ⟨[], none⟩
      (.protocol (badRequest "SQL body is not valid UTF-8")) ∧
    ∀ t : Transport Unit, ∃ result t', readRequest Batch.sampleFloatText sampleLimits .none .readWrite t = some (result, t') := by
  obtain ⟨_, _, hreturns, haccepted, hrejected⟩ := @read_request_framing Unit Batch.sampleFloatText sampleLimits .none .readWrite
    (by decide)
  refine ⟨haccepted pingTransport ⟨[], none⟩ .ping (by decide +kernel), ?_, hreturns (by decide)⟩
  exact (hrejected brokenTransport ⟨[], none⟩ _ (by decide +kernel)).1

/-- What comes behind a line feed without its carriage return. -/
def unreadTransport : Transport Unit := ⟨[⟨ascii " /ping HTTP/1.1\r\nHost: a\r\n\r\n", by decide⟩], none⟩

def unframedTransport : Transport Unit := ⟨⟨ascii "GET\n", by decide⟩ :: unreadTransport.chunks, none⟩

/-- More than a buffer can hold. -/
def overlongTransport : Transport Unit :=
  ⟨[⟨ascii "POST / HTTP/1.1\r\nHost: a\r\nContent-Length: 9223372036854775808\r\n\r\n", by decide⟩], none⟩

/-- The body of a rejected request is taken, too, a header block is not read to its end where its framing is broken,
and a body may be announced that no buffer can hold. -/
theorem read_request_exceptions :
    (¬ ∀ (t t' : Transport Unit) (result : Except (RequestReadError Unit) HttpRequest),
      readRequest Batch.sampleFloatText sampleLimits .none .readWrite t = some (result, t') →
        ∃ header body, t.Advances (header ++ body) t' ∧ HeaderBlock sampleLimits.maxHeaderBytes header ∧
          (body ≠ [] → ∃ request, result = .ok request)) ∧
    (¬ ∀ (t t' : Transport Unit) (result : Except (RequestReadError Unit) HttpRequest),
      readRequest Batch.sampleFloatText sampleLimits .none .readWrite t = some (result, t') → terminator <:+ t.bytes →
        ∃ header body, t.Advances (header ++ body) t' ∧ terminator <:+ header) ∧
    ¬ ∀ (limits : HttpQueryLimits) (t : Transport Unit), ∃ result t',
      readRequest Batch.sampleFloatText limits .none .readWrite t = some (result, t') := by
  refine ⟨fun h => ?_, fun h => ?_, fun h => ?_⟩
  · have hrun : readRequest Batch.sampleFloatText sampleLimits .none .readWrite brokenTransport =
        some (.error (.protocol (badRequest "SQL body is not valid UTF-8")), ⟨[], none⟩) := by decide +kernel
    obtain ⟨header, body, hadvances, hblock, haccepted⟩ := h _ _ _ hrun
    have hbody : body = [] := by
      by_contra hne
      obtain ⟨request, hrequest⟩ := haccepted hne
      cases hrequest
    have hheader : header = brokenTransport.bytes := by
      rw [hadvances.bytes_eq, hbody]
      simp [bytes]
    have hterminated := hblock.terminated
    rw [hheader] at hterminated
    exact absurd hterminated (by decide)
  · have hrun : readRequest Batch.sampleFloatText sampleLimits .none .readWrite unframedTransport =
        some (.error (.protocol crlfRequired), unreadTransport) := by decide +kernel
    obtain ⟨header, body, hadvances, hterminated⟩ := h _ _ _ hrun (by decide)
    have htaken : header ++ body = ascii "GET\n" := by
      refine (List.append_left_inj unreadTransport.bytes).1 ?_
      rw [← hadvances.bytes_eq]
      decide
    have hlong := hterminated.length_le
    have hshort := congrArg List.length htaken
    rw [List.length_append] at hshort
    have hfour : terminator.length = (ascii "GET\n").length := by decide
    have hheader : header = ascii "GET\n" := by
      have hnil : body = [] := List.length_eq_zero_iff.1 (by omega)
      rw [← htaken, hnil, List.append_nil]
    rw [hheader] at hterminated
    exact absurd hterminated (by decide)
  · obtain ⟨result, t', hrun⟩ := h { sampleLimits with maxSqlBytes := usizeMax } overlongTransport
    have hnone : readRequest Batch.sampleFloatText { sampleLimits with maxSqlBytes := usizeMax } .none .readWrite
        overlongTransport = none := by decide +kernel
    rw [hnone] at hrun
    cases hrun

end RustHouse.Http
