import RustHouse.Float64Syntax
import RustHouse.HttpExchange
import RustHouse.HttpFailures
import RustHouse.HttpMessages

/-!
# Responses are messages

Whatever it is composed of, a response is a status line and header fields, and
a body whose length is read back from them.
-/

namespace RustHouse.Http

open Batch.ScalarCast (asciiByte utf8_ofList_ascii)
open Checked Words

/-! ## What responses are composed of -/

def contentTypes : List Bytes :=
  [contentTypeCsv, contentTypeJson, contentTypeText, contentTypeTsv, contentTypePrometheus]

theorem contentTypeJson_mem : contentTypeJson ∈ contentTypes := .tail _ (.head _)

theorem contentTypeText_mem : contentTypeText ∈ contentTypes := .tail _ (.tail _ (.head _))

theorem contentTypePrometheus_mem : contentTypePrometheus ∈ contentTypes :=
  .tail _ (.tail _ (.tail _ (.tail _ (.head _))))

theorem contentTypeOf_mem (format : QueryResponseFormat) : contentTypeOf format ∈ contentTypes := by
  cases format with
  | json | jsonEachRow | jsonCompactEachRow => exact contentTypeJson_mem
  | csv | csvWithNames => exact .head _
  | tabSeparated | tabSeparatedWithNames => exact .tail _ (.tail _ (.tail _ (.head _)))

def authenticationHeaders : List (List Bytes) := [[], [ascii "Cache-Control: private, no-store\r\n"]]

theorem responseHeaders_mem (authentication : Authentication) :
    authentication.responseHeaders ∈ authenticationHeaders := by
  have hnone : [] ∈ authenticationHeaders := List.mem_cons_self
  have hkey : [ascii "Cache-Control: private, no-store\r\n"] ∈ authenticationHeaders :=
    List.mem_cons_of_mem _ List.mem_cons_self
  cases authentication <;> assumption

/-! ## Decimal numerals -/

theorem toNat_digit {c : Char} (h : c.isDigit = true) : (asciiByte c).toNat = c.toNat := by
  have hle : c.toNat ≤ 57 := (Char.isDigit_iff_toNat.1 h).2
  rw [asciiByte, UInt8.toNat_ofNat']
  exact Nat.mod_eq_of_lt (by omega)

theorem isAsciiDigit_digit {c : Char} (h : c.isDigit = true) : isAsciiDigit (asciiByte c) = true := by
  have hbounds := Char.isDigit_iff_toNat.1 h
  rw [isAsciiDigit, Bool.and_eq_true, decide_eq_true_eq, decide_eq_true_eq, UInt8.le_iff_toNat_le, UInt8.le_iff_toNat_le,
    toNat_digit h]
  exact hbounds

theorem decimal_digits {cs : List Char} (h : ∀ c ∈ cs, c.isDigit = true) (parsed : Nat) :
    decimal parsed (cs.map asciiByte) = Nat.ofDigitChars 10 cs parsed := by
  induction cs generalizing parsed with
  | nil => rfl
  | cons c cs ih =>
    obtain ⟨hc, hcs⟩ := List.forall_mem_cons.1 h
    rw [Nat.ofDigitChars_cons, ← ih hcs, List.map_cons, decimal, List.foldl_cons, toNat_digit hc, Nat.mul_comm]
    rfl

theorem utf8_toString (n : Nat) : utf8 (toString n) = (Nat.toDigits 10 n).map asciiByte := by
  rw [Nat.toString_eq_ofList_toDigits]
  refine utf8_ofList_ascii fun c hc => ?_
  have hle : c.toNat ≤ 57 := (Char.isDigit_iff_toNat.1 (Nat.isDigit_of_mem_toDigits (by decide) (by decide) hc)).2
  exact decide_eq_true (by omega)

theorem isAsciiDigit_toString {n : Nat} {b : UInt8} (h : b ∈ utf8 (toString n)) : isAsciiDigit b = true := by
  rw [utf8_toString] at h
  obtain ⟨c, hc, rfl⟩ := List.mem_map.1 h
  exact isAsciiDigit_digit (Nat.isDigit_of_mem_toDigits (by decide) (by decide) hc)

theorem decimal_toString {n : Nat} (h : n ≤ usizeMax) : Decimal n (utf8 (toString n)) := by
  refine ⟨fun b hb => isAsciiDigit_toString hb, ?_, h⟩
  rw [utf8_toString, decimal_digits fun c hc => Nat.isDigit_of_mem_toDigits (by decide) (by decide) hc]
  exact Nat.ofDigitChars_ten_toDigits

/-! ## Fields -/

def HeaderField.ofLine (bytes : Bytes) : HeaderField :=
  ⟨bytes.takeWhile (· ≠ byte ':'), ((bytes.dropWhile (· ≠ byte ':')).drop 1).dropLast.dropLast⟩

def HeaderField.Aside (field : HeaderField) : Prop :=
  (byte '\r' ∉ field.line ∧ byte '\n' ∉ field.line) ∧ (field.name ≠ [] ∧ byte ':' ∉ field.name) ∧
    field.isNamed "transfer-encoding" = false ∧ field.isNamed "content-length" = false

instance (field : HeaderField) : Decidable field.Aside := by
  unfold HeaderField.Aside
  infer_instance

/-- A whole line of a header field that has nothing to do with the body. -/
def AsideLine (bytes : Bytes) : Prop :=
  (HeaderField.ofLine bytes).line ++ crlf = bytes ∧ (HeaderField.ofLine bytes).Aside

instance (bytes : Bytes) : Decidable (AsideLine bytes) := inferInstanceAs (Decidable (_ ∧ _))

/-- A status line is not empty and has no line break in it. -/
def UnbrokenStatus (status : Status) : Prop :=
  (byte '\r' ∉ utf8 s!"HTTP/1.1 {status.code} {status.reason}" ∧
    byte '\n' ∉ utf8 s!"HTTP/1.1 {status.code} {status.reason}") ∧
      utf8 s!"HTTP/1.1 {status.code} {status.reason}" ≠ []

instance (status : Status) : Decidable (UnbrokenStatus status) := inferInstanceAs (Decidable (_ ∧ _))

/-- The lines that responses are made of. -/
theorem fixedLines :
    (∀ bytes ∈ ascii "Connection: close\r\n" :: (failureHeaders ++ authenticationHeaders).flatten, AsideLine bytes) ∧
    (∀ contentType ∈ contentTypes, AsideLine (ascii "Content-Type: " ++ contentType ++ ascii "\r\n")) ∧
    (∀ status ∈ Status.all, UnbrokenStatus status) ∧
    utf8 "\r\n" = crlf ∧ utf8 "Content-Length: " = ascii "Content-Length" ++ [byte ':', byte ' '] := by
  decide +kernel

theorem asideLine_of_mem {extraHeaders responseHeaders : List Bytes} (hextra : extraHeaders ∈ failureHeaders)
    (hresponse : responseHeaders ∈ authenticationHeaders) :
    ∀ bytes ∈ ascii "Connection: close\r\n" :: (extraHeaders ++ responseHeaders), AsideLine bytes := by
  intro bytes hbytes
  refine fixedLines.1 bytes ?_
  rw [List.mem_cons, List.mem_append] at hbytes
  rw [List.mem_cons, List.flatten_append, List.mem_append]
  exact hbytes.imp_right (Or.imp (fun h => List.mem_flatten_of_mem hextra h) fun h => List.mem_flatten_of_mem hresponse h)

theorem utf8_lineBreak : utf8 "\r\n" = crlf := fixedLines.2.2.2.1

theorem flatMap_ofLine {lines : List Bytes} (h : ∀ bytes ∈ lines, AsideLine bytes) :
    (lines.map fun bytes => (HeaderField.ofLine bytes).line).flatMap (· ++ crlf) = lines.flatten := by
  induction lines with
  | nil => rfl
  | cons bytes lines ih =>
    obtain ⟨hbytes, hlines⟩ := List.forall_mem_cons.1 h
    rw [List.map_cons, List.flatMap_cons, List.flatten_cons, ih hlines, hbytes.1]

theorem countP_aside {lines : List Bytes} (h : ∀ bytes ∈ lines, AsideLine bytes) :
    (lines.map HeaderField.ofLine).countP (·.isNamed "content-length") = 0 := by
  rw [List.countP_eq_zero]
  intro field hfield
  obtain ⟨bytes, hbytes, rfl⟩ := List.mem_map.1 hfield
  rw [(h bytes hbytes).2.2.2.2]
  exact Bool.false_ne_true

/-! ## The length of the body -/

def contentLengthField (n : Nat) : HeaderField := ⟨ascii "Content-Length", byte ' ' :: utf8 (toString n)⟩

theorem utf8_toString_ne_nil (n : Nat) : utf8 (toString n) ≠ [] := by
  rw [utf8_toString, Ne, List.map_eq_nil_iff]
  exact Nat.toDigits_ne_nil

theorem value_contentLengthField (n : Nat) : (contentLengthField n).value = utf8 (toString n) := by
  have hdigit : ∀ b ∈ utf8 (toString n), isOptionalWhitespace b = false := by
    intro b hb
    rw [Bool.eq_false_iff]
    intro hwhite
    have hdigit := isAsciiDigit_toString hb
    rcases Bool.or_eq_true_iff.1 hwhite with h | h
    · rw [of_decide_eq_true h] at hdigit
      cases hdigit
    · rw [of_decide_eq_true h] at hdigit
      cases hdigit
  have hspace : isOptionalWhitespace (byte ' ') = true := rfl
  have hstart : (utf8 (toString n)).dropWhile isOptionalWhitespace = utf8 (toString n) := by
    rw [List.dropWhile_eq_self_iff]
    intro hlength
    rw [hdigit _ (List.getElem_mem hlength)]
    exact Bool.false_ne_true
  have hend : (utf8 (toString n)).rdropWhile isOptionalWhitespace = utf8 (toString n) := by
    rw [List.rdropWhile_eq_self_iff]
    intro hne
    rw [hdigit _ (List.getLast_mem hne)]
    exact Bool.false_ne_true
  rw [HeaderField.value, contentLengthField, trimOptionalWhitespace, List.dropWhile_cons_of_pos hspace, hstart, hend]

theorem line_contentLengthField (n : Nat) : (contentLengthField n).line ++ crlf = utf8 s!"Content-Length: {n}\r\n" := by
  have htext : s!"Content-Length: {n}\r\n" = "Content-Length: " ++ toString n ++ "\r\n" := rfl
  have hname : utf8 "Content-Length: " = ascii "Content-Length" ++ [byte ':', byte ' '] := fixedLines.2.2.2.2
  rw [htext, utf8_append, utf8_append, hname, utf8_lineBreak, HeaderField.line, contentLengthField]
  simp only [List.append_assoc, List.cons_append, List.nil_append]

theorem contentLengthField_unbroken (n : Nat) :
    byte '\r' ∉ (contentLengthField n).line ∧ byte '\n' ∉ (contentLengthField n).line := by
  have hname : (byte '\r' ∉ ascii "Content-Length" ∧ byte '\n' ∉ ascii "Content-Length") := by decide
  have hdigits (b : UInt8) (hb : isAsciiDigit b = false) : b ∉ utf8 (toString n) := by
    intro hmem
    rw [isAsciiDigit_toString hmem] at hb
    cases hb
  have hline (b : UInt8) (hb : b ∉ ascii "Content-Length") (hdigit : isAsciiDigit b = false) (hcolon : b ≠ byte ':')
      (hspace : b ≠ byte ' ') : b ∉ (contentLengthField n).line := by
    intro hmem
    rcases List.mem_append.1 hmem with hmem | hmem
    · exact hb hmem
    · rcases List.mem_cons.1 hmem with hmem | hmem
      · exact hcolon hmem
      · rcases List.mem_cons.1 hmem with hmem | hmem
        · exact hspace hmem
        · exact hdigits b hdigit hmem
  exact ⟨hline _ hname.1 (by decide) (by decide) (by decide), hline _ hname.2 (by decide) (by decide) (by decide)⟩

/-! ## The header block -/

/-- The length of the body is read back from the header block of a response. -/
theorem responseHeader_headed {status : Status} {extraHeaders responseHeaders : List Bytes} {contentType : Bytes}
    (hstatus : status ∈ Status.all) (hextra : extraHeaders ∈ failureHeaders)
    (hresponse : responseHeaders ∈ authenticationHeaders) (hcontent : contentType ∈ contentTypes) {n : Nat}
    (hn : n ≤ usizeMax) :
    ∃ startLine headers,
      Headed (responseHeader status extraHeaders responseHeaders contentType n) startLine headers (some n) := by
  have hcontent := fixedLines.2.1 contentType hcontent
  have hrest := asideLine_of_mem hextra hresponse
  obtain ⟨hstart, hne⟩ := fixedLines.2.2.1 status hstatus
  generalize htype : ascii "Content-Type: " ++ contentType ++ ascii "\r\n" = typeLine at hcontent
  generalize hmore : ascii "Connection: close\r\n" :: (extraHeaders ++ responseHeaders) = moreLines at hrest
  have haside : ∀ field ∈ HeaderField.ofLine typeLine :: moreLines.map HeaderField.ofLine, field.Aside := by
    refine List.forall_mem_cons.2 ⟨hcontent.2, fun field hfield => ?_⟩
    obtain ⟨bytes, hbytes, rfl⟩ := List.mem_map.1 hfield
    exact (hrest bytes hbytes).2
  -- The field that announces the length stands behind the one of the content type.
  have hfields (P : HeaderField → Prop) (hlength : P (contentLengthField n)) (hall : ∀ field, field.Aside → P field) :
      ∀ field ∈ HeaderField.ofLine typeLine :: contentLengthField n :: moreLines.map HeaderField.ofLine, P field := by
    obtain ⟨htypeAside, hmoreAside⟩ := List.forall_mem_cons.1 haside
    exact List.forall_mem_cons.2 ⟨hall _ htypeAside,
      List.forall_mem_cons.2 ⟨hlength, fun field hfield => hall _ (hmoreAside field hfield)⟩⟩
  refine ⟨utf8 s!"HTTP/1.1 {status.code} {status.reason}",
    HeaderField.ofLine typeLine :: contentLengthField n :: moreLines.map HeaderField.ofLine, ?_, ?_, hne, ?_, ?_, ?_, ?_⟩
  · have hstatusLine : utf8 s!"HTTP/1.1 {status.code} {status.reason}\r\n" =
        utf8 s!"HTTP/1.1 {status.code} {status.reason}" ++ crlf := by
      rw [← utf8_lineBreak, ← utf8_append]
      rfl
    have hflat := flatMap_ofLine hrest
    rw [← hmore, List.flatten_cons, List.flatten_append, hmore] at hflat
    have hempty : ascii "\r\n" = crlf := rfl
    rw [responseHeader, hstatusLine, ← line_contentLengthField, List.map_cons, List.map_cons, List.map_map,
      List.flatMap_cons, List.flatMap_cons, List.flatMap_cons, hcontent.1, ← htype, hempty]
    have hjoined : (moreLines.map (HeaderField.line ∘ HeaderField.ofLine)).flatMap (· ++ crlf) =
        ascii "Connection: close\r\n" ++ (extraHeaders.flatten ++ responseHeaders.flatten) := hflat
    rw [hjoined]
    simp only [List.append_assoc]
  · refine List.forall_mem_cons.2 ⟨hstart, fun line hline => ?_⟩
    obtain ⟨field, hfield, rfl⟩ := List.mem_map.1 hline
    exact hfields (fun field => byte '\r' ∉ field.line ∧ byte '\n' ∉ field.line) (contentLengthField_unbroken n)
      (fun _ h => h.1) field hfield
  · exact hfields (fun field => field.name ≠ [] ∧ byte ':' ∉ field.name)
      (show ascii "Content-Length" ≠ [] ∧ byte ':' ∉ ascii "Content-Length" by decide) fun _ h => h.2.1
  · exact hfields (fun field => field.isNamed "transfer-encoding" = false)
      (show eqIgnoreCase (ascii "Content-Length") "transfer-encoding" = false by decide) fun _ h => h.2.2.1
  · have htypeNamed := (List.forall_mem_cons.1 haside).1.2.2.2
    have hlengthNamed : (contentLengthField n).isNamed "content-length" = true := rfl
    rw [List.countP_cons, List.countP_cons, countP_aside hrest, htypeNamed, hlengthNamed]
    rfl
  · intro m hm
    obtain rfl := Option.some.inj hm
    refine ⟨contentLengthField n, List.mem_cons_of_mem _ List.mem_cons_self, rfl, ?_, ?_⟩
    · rw [value_contentLengthField]
      exact decimal_toString hn
    · rw [value_contentLengthField]
      exact utf8_toString_ne_nil n

end RustHouse.Http
