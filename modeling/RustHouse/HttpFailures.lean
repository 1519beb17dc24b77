import RustHouse.HttpQueryParametersSound
import RustHouse.HttpRequest
import RustHouse.SqlStatementTotal

/-!
# Failures of requests

What is computed on the way to a request never panics, and a failure brings
along one of the few header fields that there are for failures, or none.
-/

namespace RustHouse.Http

open Batch (FloatText isWhitespace utf8Len)
open Checked Exec Words

/-! ## Header fields of failures -/

def failureHeaders : List (List Bytes) :=
  [[], [ascii "Allow: POST\r\n"], [ascii "Allow: GET\r\n"], [ascii "Allow: GET, POST\r\n"],
    [ascii "WWW-Authenticate: Bearer\r\n"], [ascii "WWW-Authenticate: X-ClickHouse-Key\r\n"],
    [ascii "WWW-Authenticate: X-ClickHouse-User, X-ClickHouse-Key\r\n"]]

theorem nil_mem_failureHeaders : [] ∈ failureHeaders := List.mem_cons_self

/-- A failure with a status that there is, which brings along one of the header fields, or none. -/
def RequestFailure.Known (failure : RequestFailure) : Prop :=
  failure.status ∈ Status.all ∧ failure.extraHeaders ∈ failureHeaders

instance (failure : RequestFailure) : Decidable failure.Known := by
  unfold RequestFailure.Known
  infer_instance

theorem RequestFailure.Plain.known {failure : RequestFailure} (h : failure.Plain) : failure.Known := by
  rw [Known, h.2]
  exact ⟨h.1, nil_mem_failureHeaders⟩

theorem known_new (status : Status) (message : String) [Fact (status ∈ Status.all)] :
    (RequestFailure.new status message).Known := (plain_new status message).known

theorem known_allow {allow : String} (message : String) (h : [ascii ("Allow: " ++ allow ++ "\r\n")] ∈ failureHeaders) :
    (methodNotAllowed message allow).Known :=
  ⟨(by decide : Status.methodNotAllowed ∈ Status.all), h⟩

/-! ## The terminal FORMAT clause -/

theorem utf8Len_append (left right : List Char) : utf8Len (left ++ right) = utf8Len left + utf8Len right := by
  rw [utf8Len, List.map_append, List.sum_append]
  rfl

theorem behindComment_suffix (text : List Char) : behindComment text <:+ text := by
  induction text with
  | nil => exact List.suffix_refl _
  | cons character rest ih =>
    rw [behindComment]
    split
    · exact List.suffix_cons ..
    · exact ih.trans (List.suffix_cons ..)

theorem behindString_suffix {text after : List Char} (h : behindString text = some after) : after <:+ text := by
  fun_induction behindString text generalizing after with
  | case1 => cases h
  | case2 =>
    cases h
    exact List.suffix_cons ..
  | case3 => cases h
  | case4 rest ih => exact (ih h).trans ((List.suffix_cons ..).trans (List.suffix_cons ..))
  | case5 next rest hne =>
    cases h
    exact List.suffix_cons ..
  | case6 character next rest hne ih => exact (ih h).trans (List.suffix_cons ..)

theorem behindToken_suffix {character : Char} {rest after : List Char} (h : behindToken character rest = some after) :
    after <:+ rest := by
  unfold behindToken at h
  split_ifs at h
  · exact behindString_suffix h
  · cases h
    exact List.dropWhile_suffix _
  · cases h
    exact List.suffix_refl _

theorem textBefore_append {text after : List Char} (h : after <:+ text) : textBefore text after ++ after = text := by
  obtain ⟨before, rfl⟩ := h
  rw [textBefore, List.length_append, Nat.add_sub_cancel, List.take_left]

def IsBoundary (text : List Char) (position : Nat) : Prop := ∃ before, before <+: text ∧ utf8Len before = position

/-- Every token that the scanner keeps starts between two characters. -/
structure FormatScan.Within (text : List Char) (scan : FormatScan) : Prop where
  previous : ∀ token ∈ scan.previous, IsBoundary text token.start
  last : ∀ token ∈ scan.last, IsBoundary text token.start

section
variable {text before : List Char} {scan : FormatScan} (hscan : scan.Within text)
include hscan

theorem FormatScan.Within.recordToken (hbefore : before <+: text) (token : List Char) :
    (scan.recordToken token (utf8Len before)).Within text := by
  refine ⟨hscan.last, fun recorded hrecorded => ?_⟩
  obtain rfl := Option.some.inj hrecorded
  exact ⟨before, hbefore, rfl⟩

theorem scanTokens_within {rest : List Char} {scan' : FormatScan} {index : Nat} (htext : before ++ rest = text)
    (hindex : utf8Len before = index) (h : scanTokens index scan rest = some scan') : scan'.Within text := by
  -- The scanner goes on behind what it passes over.
  have hpass {passed after rest : List Char} {before : List Char} (hrest : passed ++ after = rest)
      (htext : before ++ rest = text) : (before ++ passed) ++ after = text := by
    rw [List.append_assoc, hrest, htext]
  fun_induction scanTokens index scan rest generalizing before with
  | case1 index scan =>
    cases h
    exact hscan
  | case2 index scan character rest hwhite ih =>
    exact ih hscan (@hpass [character] rest _ _ rfl htext) (by rw [utf8Len_append, hindex]; rfl) h
  | case3 index scan character rest _ hcomment ih =>
    have hsuffix := (behindComment_suffix rest).trans (List.suffix_cons character rest)
    exact ih hscan (hpass (textBefore_append hsuffix) htext) (by rw [utf8Len_append, hindex]) h
  | case4 index scan rest _ _ ih =>
    exact ih ⟨hscan.previous, hscan.last⟩ (@hpass [';'] rest _ _ rfl htext) (by rw [utf8Len_append, hindex]; rfl) h
  | case5 => cases h
  | case6 index scan character rest _ _ _ after hafter =>
    rename_i ih
    have hsuffix := (behindToken_suffix hafter).trans (List.suffix_cons character rest)
    have hrecorded := hscan.recordToken ⟨character :: rest, htext⟩ (textBefore (character :: rest) after)
    rw [hindex] at hrecorded
    exact ih hrecorded (hpass (textBefore_append hsuffix) htext) (by rw [utf8Len_append, hindex]) h

end

theorem truncate_eq {before text : List Char} (h : before <+: text) : truncate (utf8Len before) text = some before := by
  induction before generalizing text with
  | nil =>
    cases text with
    | nil => rfl
    | cons character text => exact if_pos rfl
  | cons character before ih =>
    obtain ⟨after, rfl⟩ := h
    have hlength : utf8Len (character :: before) = character.utf8Size + utf8Len before := rfl
    have hpos := character.utf8Size_pos
    rw [List.cons_append, truncate, if_neg (by omega), if_pos (by omega), hlength, Nat.add_sub_cancel_left,
      ih (List.prefix_append _ _)]
    rfl

theorem takeTerminalQueryFormat_ends {E : RequestFailure → Prop} (sql : String) :
    (takeTerminalQueryFormat sql : Exec RequestFailure _).Ends (fun _ => True) E := by
  unfold takeTerminalQueryFormat
  split
  · trivial
  · rename_i start format hformat
    obtain ⟨scan, hscan, hformat⟩ := Option.bind_eq_some_iff.1 hformat
    obtain ⟨token, htoken, hformat⟩ := Option.bind_eq_some_iff.1 hformat
    obtain ⟨name, _, hformat⟩ := Option.bind_eq_some_iff.1 hformat
    have hempty : FormatScan.empty.Within sql.toList :=
      ⟨fun _ h => absurd h (Option.not_mem_none _), fun _ h => absurd h (Option.not_mem_none _)⟩
    obtain ⟨before, hbefore, hstart⟩ := (scanTokens_within hempty (List.nil_append sql.toList) rfl hscan).previous token htoken
    have htoken : token.start = start := by
      split at hformat
      · cases hformat
      · obtain ⟨_, _, hformat⟩ := Option.bind_eq_some_iff.1 hformat
        exact congrArg Prod.fst (Option.some.inj hformat)
    rw [← htoken, ← hstart, truncate_eq hbefore]
    trivial

/-! ## Header blocks -/

theorem requestKind_ends (authenticatedInsertEnabled : Bool) (method target : Bytes) :
    (requestKind authenticatedInsertEnabled method target).Ends (fun _ => True) RequestFailure.Known := by
  have hgetOr : (getOr ((parseTableInsertTarget target).map RequestKind.tableInsert) targetNotFound).Ends (fun _ => True)
      RequestFailure.Known := (Ends.getOr (known_new _ _)).imp fun _ _ => trivial
  unfold requestKind
  dsimp only
  repeat' refine Ends.ite ?_ ?_
  any_goals exact trivial
  any_goals exact known_new _ _
  any_goals exact known_allow _ (by decide)
  exact hgetOr

theorem parseRequestLine_ends (line : Bytes) (authenticatedInsertEnabled : Bool) :
    (parseRequestLine line authenticatedInsertEnabled).Ends (fun _ => True) RequestFailure.Known := by
  unfold parseRequestLine
  split
  · refine (Ends.reject (known_new _ _)).bind fun _ _ => (Ends.reject (known_new _ _)).bind fun _ _ => ?_
    exact requestKind_ends _ _ _
  · exact known_new _ _

theorem parseContentLength_ends (value : Bytes) :
    (parseContentLength value).Ends (fun _ => True) RequestFailure.Known := by
  have hfrom (length : Nat) (value : Bytes) :
      (parseContentLengthFrom length value).Ends (fun _ => True) RequestFailure.Known := by
    induction value generalizing length with
    | nil => trivial
    | cons b value ih => exact (Ends.getOr (known_new _ _)).bind fun _ _ => ih _
  exact (Ends.reject (known_new _ _)).bind fun _ _ => hfrom 0 value

theorem recordHeader_ends (authentication : Authentication) (fields : HeaderFields) (name value : Bytes) :
    (recordHeader authentication fields name value).Ends (fun _ => True) RequestFailure.Known := by
  have hlength : (recordContentLength fields value).Ends (fun _ => True) RequestFailure.Known :=
    (Ends.reject (known_new _ _)).bind fun _ _ => (parseContentLength_ends value).bind fun _ _ => trivial
  have hhost : (recordHost fields value).Ends (fun _ => True) RequestFailure.Known :=
    (Ends.reject (known_new _ _)).bind fun _ _ => trivial
  unfold recordHeader
  repeat' refine Ends.ite ?_ ?_
  · exact hlength
  any_goals exact trivial
  exact hhost

theorem strictHeaderLine_ends (line : Bytes) (followedByLineFeed : Bool) :
    (strictHeaderLine line followedByLineFeed).Ends (fun _ => True) RequestFailure.Known := by
  unfold strictHeaderLine
  split
  · exact (Ends.getOr (known_new _ _)).imp fun _ _ => trivial
  · exact (Ends.reject (known_new _ _)).bind fun _ _ => trivial

theorem splitHeaderLine_ends (line : Bytes) : (splitHeaderLine line).Ends (fun _ => True) RequestFailure.Known := by
  have hmalformed : malformedHeader.Known := known_new _ _
  by_cases hcolon : byte ':' ∈ line
  · obtain ⟨before, after, rfl, hbefore⟩ := List.eq_append_cons_of_mem hcolon
    rw [splitHeaderLine, idxOf?_append_cons hbefore]
    simp only [getOr_some, Exec.ok_bind, slice_before, slice_after, orPanic_some]
    exact (Ends.reject hmalformed).bind fun _ _ => trivial
  · rw [splitHeaderLine, List.idxOf?_eq_none_iff.2 hcolon]
    exact hmalformed

theorem parseHeaderLines_ends (maxHeaderCount : Nat) (authentication : Authentication) (headerCount : Nat)
    (fields : HeaderFields) (lines : List Bytes) :
    (parseHeaderLines maxHeaderCount authentication headerCount fields lines).Ends (fun _ => True)
      RequestFailure.Known := by
  induction lines generalizing headerCount fields with
  | nil => trivial
  | cons line lines ih =>
    refine (strictHeaderLine_ends _ _).bind fun _ _ => (Ends.reject (known_new _ _)).bind fun _ _ => ?_
    refine (splitHeaderLine_ends _).bind fun split _ => ?_
    exact (recordHeader_ends _ _ _ _).bind fun _ _ => ih _ _

theorem authenticate_ends (authentication : Authentication) (fields : HeaderFields) (access : HttpAccess) :
    (authenticate authentication fields access).Ends (fun _ => True) RequestFailure.Known := by
  have hunauthorized {c : Prop} [Decidable c] {failure : RequestFailure} (hknown : failure.Known) (access : HttpAccess) :
      (rejectIf c failure >>= fun _ => .ok access).Ends (fun _ => True) RequestFailure.Known :=
    (Ends.reject hknown).bind fun _ _ => trivial
  cases authentication with
  | none => trivial
  | bearer expected => exact hunauthorized (by decide) _
  | clickHouseKey expected => exact hunauthorized (by decide) _
  | clickHousePrincipal user key => exact hunauthorized (by decide) _
  | clickHousePrincipalSet principals => exact hunauthorized (by decide) _

theorem checkHeaders_ends (kind : RequestKind) (fields : HeaderFields) (access : HttpAccess) :
    (checkHeaders kind fields access).Ends (fun _ => True) RequestFailure.Known := by
  refine (Ends.reject (known_new _ _)).bind fun _ _ => (Ends.reject (known_new _ _)).bind fun _ _ => ?_
  refine (Ends.reject (known_new _ _)).bind fun _ _ => (Ends.reject (known_new _ _)).bind fun _ _ => ?_
  refine (Ends.reject (known_new _ _)).bind fun _ _ => ?_
  exact (Ends.reject (known_new _ _)).imp fun _ _ => trivial

theorem selectedResponseFormat_ends (kind : RequestKind) (fields : HeaderFields) :
    (selectedResponseFormat kind fields).Ends (fun _ => True) RequestFailure.Known := by
  have hheader (format : Bytes) : (headerResponseFormat format).Ends (fun _ => True) RequestFailure.Known := by
    unfold headerResponseFormat
    repeat' refine Ends.ite trivial ?_
    exact known_new _ _
  unfold selectedResponseFormat
  split
  · refine (Ends.reject (known_new _ _)).bind fun _ _ => ?_
    split
    · trivial
    · exact (hheader _).bind fun _ _ => trivial
  · trivial

theorem selectedInsertFormat_ends (kind : RequestKind) (fields : HeaderFields) :
    (selectedInsertFormat kind fields).Ends (fun _ => True) RequestFailure.Known := by
  have hheader (format : Bytes) : (headerInsertFormat format).Ends (fun _ => True) RequestFailure.Known := by
    unfold headerInsertFormat
    repeat' refine Ends.ite trivial ?_
    exact known_new _ _
  unfold selectedInsertFormat
  split
  · refine (Ends.reject (known_new _ _)).bind fun _ _ => ?_
    split
    · trivial
    · exact hheader _
  · trivial

theorem parseHeaders_ends (header : Bytes) (maxHeaderCount : Nat) (authentication : Authentication)
    (access : HttpAccess) :
    (parseHeaders header maxHeaderCount authentication access).Ends (fun _ => True) RequestFailure.Known := by
  refine (Ends.getOr (known_new _ _)).bind fun text _ => ?_
  split
  · exact known_new _ _
  · refine (strictHeaderLine_ends _ _).bind fun _ _ => (parseRequestLine_ends _ _).bind fun _ _ => ?_
    refine (parseHeaderLines_ends _ _ _ _ _).bind fun _ _ => (authenticate_ends _ _ _).bind fun _ _ => ?_
    refine (checkHeaders_ends _ _ _).bind fun _ _ => (selectedResponseFormat_ends _ _).bind fun _ _ => ?_
    exact (selectedInsertFormat_ends _ _).bind fun _ _ => trivial

/-! ## Classification -/

theorem rejectCombinedFormats_ends (sqlFormat responseFormat : Option QueryResponseFormat) :
    (rejectCombinedFormats sqlFormat responseFormat).Ends (fun _ => True)
      (fun failure => ∃ format, sqlFormat = some format ∧ failure = combinedFormats format) := by
  unfold rejectCombinedFormats
  split
  · exact ⟨_, rfl, rfl⟩
  · trivial

theorem routesToInsert_ends {E : RequestFailure → Prop} (float : FloatText) (insertEnabled : Bool) (sql : String) :
    (routesToInsert float insertEnabled sql).Ends (fun insert => insert = true → insertEnabled = true) E := by
  unfold routesToInsert containsInsert
  split
  · rename_i henabled
    split
    · exact fun _ => henabled
    · exact fun _ => henabled
    · rename_i hpanic
      exact absurd hpanic (Batch.parse_ne_panic float sql)
  · exact fun h => absurd h Bool.false_ne_true

theorem rejectBody_ends (contentLength : Option Nat) (message : String) :
    (rejectBody contentLength message).Ends (fun _ => contentLength.getD 0 = 0) RequestFailure.Known :=
  (Ends.reject (known_new .badRequest message)).imp fun _ h => not_not.1 h

theorem combinedResponseFormat_ends (header parameter : Option QueryResponseFormat) :
    (combinedResponseFormat header parameter).Ends (fun _ => True) RequestFailure.Known := by
  rcases header with _ | _ <;> rcases parameter with _ | _
  · trivial
  · trivial
  · trivial
  · exact known_new .badRequest _

theorem boundedBodyLength_ends (contentLength : Option Nat) (maxBodyBytes : Nat) :
    (boundedBodyLength contentLength maxBodyBytes).Ends (fun n => contentLength = some n ∧ n ≤ maxBodyBytes)
      RequestFailure.Known :=
  (Ends.getOr (known_new _ _)).bind fun _ hcontent => (Ends.reject (known_new _ _)).bind fun _ hle =>
    ⟨hcontent, Nat.not_lt.1 hle⟩

end RustHouse.Http
