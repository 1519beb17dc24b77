import RustHouse.HttpQueryComponents
import RustHouse.HttpRequest

/-!
# HTTP messages

A message is a start line and header fields, each ended by a line break and
none with one in it, an empty line, and a body of the length that one of the
header fields announces. There is only one way to read a message off the front
of a stream.
-/

namespace RustHouse.Http

open Words

/-! ## Header fields -/

def crlf : Bytes := [byte '\r', byte '\n']

structure HeaderField where
  name : Bytes
  padded : Bytes

namespace HeaderField

def line (field : HeaderField) : Bytes := field.name ++ byte ':' :: field.padded

def value (field : HeaderField) : Bytes := trimOptionalWhitespace field.padded

/-- In any letter case. -/
def isNamed (field : HeaderField) (name : String) : Bool := eqIgnoreCase field.name name

theorem isNamed_eq (field : HeaderField) (name : String) : field.isNamed name = eqIgnoreCase field.name name := rfl

theorem line_ne_nil (field : HeaderField) : field.line ≠ [] :=
  List.append_ne_nil_of_right_ne_nil _ (List.cons_ne_nil _ _)

theorem eq_of_line_eq {field field' : HeaderField} (h : byte ':' ∉ field.name) (h' : byte ':' ∉ field'.name)
    (hline : field.line = field'.line) : field = field' := by
  cases field
  cases field'
  obtain ⟨rfl, rfl⟩ := append_cons_unique h h' hline
  rfl

end HeaderField

/-! ## Header blocks -/

/-- The lines of a header block, and the length of the body that they announce, if there is to be one. -/
structure Headed (header startLine : Bytes) (headers : List HeaderField) (contentLength : Option Nat) : Prop where
  lines : header = (startLine :: headers.map HeaderField.line).flatMap (· ++ crlf) ++ crlf
  unbroken : ∀ line ∈ startLine :: headers.map HeaderField.line, byte '\r' ∉ line ∧ byte '\n' ∉ line
  startLine_ne_nil : startLine ≠ []
  names : ∀ field ∈ headers, field.name ≠ [] ∧ byte ':' ∉ field.name
  transferEncoding : ∀ field ∈ headers, field.isNamed "transfer-encoding" = false
  contentLength_once : headers.countP (·.isNamed "content-length") = contentLength.isSome.toNat
  contentLength_value : ∀ n, contentLength = some n →
    ∃ field ∈ headers, field.isNamed "content-length" = true ∧ Decimal n field.value ∧ field.value ≠ []

section
variable {header header' startLine startLine' rest rest' : Bytes} {headers headers' : List HeaderField}
  {contentLength contentLength' : Option Nat}

/-- A line is not empty, as the one behind the last header field is. -/
theorem line_ne_crlf {line : Bytes} (hne : line ≠ []) (hreturn : byte '\r' ∉ line) : crlf ++ rest ≠ line ++ rest' := by
  intro heq
  cases line with
  | nil => exact hne rfl
  | cons b line =>
    obtain ⟨rfl, _⟩ := List.cons.inj heq
    exact hreturn List.mem_cons_self

/-- Lines up to an empty one are read back from the front of a stream. -/
theorem lines_unique {lines lines' : List Bytes} (h : ∀ line ∈ lines, line ≠ [] ∧ byte '\r' ∉ line)
    (h' : ∀ line ∈ lines', line ≠ [] ∧ byte '\r' ∉ line)
    (heq : lines.flatMap (· ++ crlf) ++ crlf ++ rest = lines'.flatMap (· ++ crlf) ++ crlf ++ rest') :
    lines = lines' ∧ rest = rest' := by
  induction lines generalizing lines' with
  | nil =>
    cases lines' with
    | nil => exact ⟨rfl, List.append_cancel_left heq⟩
    | cons line' lines' =>
      obtain ⟨hne, hreturn⟩ := h' line' List.mem_cons_self
      simp only [List.flatMap_nil, List.flatMap_cons, List.nil_append, List.append_assoc] at heq
      exact absurd heq (line_ne_crlf hne hreturn)
  | cons line lines ih =>
    obtain ⟨⟨hne, hreturn⟩, hlines⟩ := List.forall_mem_cons.1 h
    cases lines' with
    | nil =>
      simp only [List.flatMap_nil, List.flatMap_cons, List.nil_append, List.append_assoc] at heq
      exact absurd heq.symm (line_ne_crlf hne hreturn)
    | cons line' lines' =>
      obtain ⟨⟨_, hreturn'⟩, hlines'⟩ := List.forall_mem_cons.1 h'
      simp only [List.flatMap_cons, List.append_assoc] at heq
      obtain ⟨rfl, hbehind⟩ := append_cons_unique hreturn hreturn' heq
      have hmore := (List.cons.inj hbehind).2
      rw [← List.append_assoc, ← List.append_assoc] at hmore
      obtain ⟨rfl, hrest⟩ := ih hlines hlines' hmore
      exact ⟨rfl, hrest⟩

theorem decimal_unique {m n : Nat} {text : Bytes} (hm : Decimal m text) (hn : Decimal n text) : m = n :=
  hm.2.1.symm.trans hn.2.1

theorem eq_of_countP_one {α : Type} {p : α → Bool} {as : List α} (h : as.countP p = 1) {a b : α} (ha : a ∈ as)
    (hb : b ∈ as) (hpa : p a = true) (hpb : p b = true) : a = b := by
  rw [List.countP_eq_length_filter, List.length_eq_one_iff] at h
  obtain ⟨c, hc⟩ := h
  have hsingle (d : α) (hd : d ∈ as) (hpd : p d = true) : d = c := by
    have hmem := List.mem_filter.2 ⟨hd, hpd⟩
    rwa [hc, List.mem_singleton] at hmem
  rw [hsingle a ha hpa, hsingle b hb hpb]

theorem Headed.nonempty (h : Headed header startLine headers contentLength) :
    ∀ line ∈ startLine :: headers.map HeaderField.line, line ≠ [] ∧ byte '\r' ∉ line := by
  intro line hline
  refine ⟨?_, (h.unbroken line hline).1⟩
  rcases List.mem_cons.1 hline with rfl | hline
  · exact h.startLine_ne_nil
  · obtain ⟨field, _, rfl⟩ := List.mem_map.1 hline
    exact field.line_ne_nil

theorem headers_unique (h : ∀ field ∈ headers, byte ':' ∉ field.name) (h' : ∀ field ∈ headers', byte ':' ∉ field.name)
    (heq : headers.map HeaderField.line = headers'.map HeaderField.line) : headers = headers' := by
  induction headers generalizing headers' with
  | nil => exact (List.map_eq_nil_iff.1 heq.symm).symm
  | cons field headers ih =>
    cases headers' with
    | nil => cases heq
    | cons field' headers' =>
      obtain ⟨hfield, hheaders⟩ := List.forall_mem_cons.1 h
      obtain ⟨hfield', hheaders'⟩ := List.forall_mem_cons.1 h'
      obtain ⟨hline, hlines⟩ := List.cons.inj heq
      rw [HeaderField.eq_of_line_eq hfield hfield' hline, ih hheaders hheaders' hlines]

theorem Headed.contentLength_unique (h : Headed header startLine headers contentLength)
    (h' : Headed header' startLine' headers contentLength') : contentLength = contentLength' := by
  have hsome := h.contentLength_once.symm.trans h'.contentLength_once
  cases hlength : contentLength with
  | none =>
    cases hlength' : contentLength' with
    | none => rfl
    | some n' =>
      rw [hlength, hlength'] at hsome
      cases hsome
  | some n =>
    cases hlength' : contentLength' with
    | none =>
      rw [hlength, hlength'] at hsome
      cases hsome
    | some n' =>
      obtain ⟨field, hfield, hnamed, hdecimal, _⟩ := h.contentLength_value n hlength
      obtain ⟨field', hfield', hnamed', hdecimal', _⟩ := h'.contentLength_value n' hlength'
      have honce := h.contentLength_once
      rw [hlength] at honce
      obtain rfl := eq_of_countP_one honce hfield hfield' hnamed hnamed'
      rw [decimal_unique hdecimal hdecimal']

theorem Headed.unique (h : Headed header startLine headers contentLength)
    (h' : Headed header' startLine' headers' contentLength') (heq : header ++ rest = header' ++ rest') :
    header = header' ∧ contentLength = contentLength' ∧ rest = rest' := by
  rw [h.lines, h'.lines] at heq
  obtain ⟨hlines, hrest⟩ := lines_unique h.nonempty h'.nonempty heq
  obtain ⟨rfl, hfields⟩ := List.cons.inj hlines
  obtain rfl := headers_unique (fun field hfield => (h.names field hfield).2) (fun field hfield => (h'.names field hfield).2)
    hfields
  exact ⟨h.lines.trans h'.lines.symm, h.contentLength_unique h', hrest⟩

end

/-! ## Messages -/

/-- A message as its reader splits it: the body has the length that is announced. -/
def Message (message startLine : Bytes) (headers : List HeaderField) (body : Bytes) : Prop :=
  ∃ header, Headed header startLine headers (some body.length) ∧ message = header ++ body

theorem Message.unique {message message' startLine startLine' body body' : Bytes} {headers headers' : List HeaderField}
    (h : Message message startLine headers body) (h' : Message message' startLine' headers' body')
    (hbefore : message <+: message') : message = message' := by
  obtain ⟨header, hhead, rfl⟩ := h
  obtain ⟨header', hhead', rfl⟩ := h'
  obtain ⟨rest, heq⟩ := hbefore
  rw [List.append_assoc] at heq
  obtain ⟨rfl, hlength, hbody⟩ := hhead.unique hhead' heq
  have hnil : rest = [] := by
    have hlen := congrArg List.length hbody
    rw [List.length_append, ← Option.some.inj hlength] at hlen
    exact List.length_eq_zero_iff.1 (by omega)
  rw [← hbody, hnil, List.append_nil]

end RustHouse.Http
