import RustHouse.JsonCompactEachRowSound
import RustHouse.JsonRender

/-!
# JSON output decodes to the result

What the three JSON writers send is a text of the grammar with one reading, and
this reading has the names, the types and the values of the result in their
positions. Numbers are read by their literals.
-/

namespace RustHouse.Batch

open Checked Delimited JsonGrammar Words
open JsonCompactEachRow (integerText jsonElementText jsonArrayText jsonCompactEachRowText toDigits_integer
  writeJsonArray_writes writeJsonCompactEachRow_writes)

/-! ## Writing -/

section
variable {σ ε : Type} (sink : Sink σ ε) (float : FloatText)

def writeJsonColumn (column : ResultColumn × Nat) : Method σ ε Unit := do
  if column.2 > 0 then sink.writeAll (ascii ",")
  sink.writeAll (ascii "\x7b\"name\":")
  writeJsonString sink column.1.name
  sink.writeAll (ascii ",\"type\":")
  writeJsonString sink column.1.dataType.asStr
  sink.writeAll (ascii "\x7d")

def writeJsonRow (row : List Value × Nat) : Method σ ε Unit := do
  if row.2 > 0 then sink.writeAll (ascii ",")
  writeJsonArray sink float row.1
  sink.writeAll (ascii "]")

def writeJson (result : QueryResult) : Method σ ε Unit := do
  sink.writeAll (ascii "\x7b\"columns\":[")
  result.columns.zipIdx.forM (writeJsonColumn sink)
  sink.writeAll (ascii "],\"rows\":[")
  result.rows.zipIdx.forM (writeJsonRow sink float)
  sink.writeAll (ascii "]\x7d")

end

/-! ## What a text decodes to -/

def codes (text : String) : List Nat := text.toList.map Char.toNat

def Decodes (float : FloatText) : Value → Json → Prop
  | .null _, .null => True
  | .int64 value, .number literal => parseInt64 literal = some value
  | .float64 value, .number literal => float.parse (.ofList literal) = some value
  | .bool value, .bool value' => value = value'
  | .string value, .string codes' => codes' = codes value
  | _, _ => False

def DecodesRow (float : FloatText) (row : List Value) (json : Json) : Prop :=
  ∃ elements, json = .array elements ∧ List.Forall₂ (Decodes float) row elements

def DecodesMembers (float : FloatText) (columns : List ResultColumn) (row : List Value) (json : Json) : Prop :=
  ∃ members, json = .object members ∧ members.map Prod.fst = (columns.take row.length).map (fun column => codes column.name) ∧
    List.Forall₂ (Decodes float) row (members.map Prod.snd)

def columnJson (column : ResultColumn) : Json :=
  .object [(codes "name", .string (codes column.name)), (codes "type", .string (codes column.dataType.asStr))]

/-- The document of a result: its columns, and its rows by position. -/
def DecodesDocument (float : FloatText) (result : QueryResult) (json : Json) : Prop :=
  ∃ rows, json = .object [(codes "columns", .array (result.columns.map columnJson)), (codes "rows", .array rows)] ∧
    List.Forall₂ (DecodesRow float) result.rows rows

/-- The text of a number with a fraction is a decimal literal that reads back. -/
structure FloatText.Decimal (float : FloatText) (x : F64) : Prop where
  literal : Number (float.toText x).toList []
  readsBack : float.ReadsBack x

/-! ## Strings -/

/-- The value of four hexadecimal digits. -/
def unicodeValue : List Char → Option Nat
  | [a, b, c, d] => do
    let i ← hexValue a
    let j ← hexValue b
    let k ← hexValue c
    let l ← hexValue d
    some (((i * 16 + j) * 16 + k) * 16 + l)
  | _ => none

theorem unicodeValue_hexText {c : Char} (h : isControl c) : unicodeValue (hexText c) = some c.toNat := by
  have hsmall : ∀ n < 0xa0, unicodeValue ((Nat.toDigits 16 n).leftpad 4 '0') = some n := by decide +kernel
  exact hsmall c.toNat (toNat_of_isControl h)

/-- How a character is written in a string: as it is, or behind a backslash, or as its code. -/
inductive EscapedAs : Char → List Char → Prop where
  | plain {c : Char} : ¬ isControl c → c ≠ '"' → c ≠ '\\' → EscapedAs c [c]
  | escape {c d : Char} : escapeCode d = some c.toNat → EscapedAs c ['\\', d]
  | unicode {c : Char} {digits : List Char} : unicodeValue digits = some c.toNat → EscapedAs c ('\\' :: 'u' :: digits)

theorem escapeChar_jsonEscape (c : Char) : EscapedAs c (escapeChar jsonEscape c) := by
  unfold escapeChar jsonEscape
  by_cases hquote : c = '"'
  · subst hquote; exact .escape rfl
  by_cases hbackslash : c = '\\'
  · subst hbackslash; exact .escape rfl
  by_cases hback : c = '\x08'
  · subst hback; exact .escape rfl
  by_cases hfeed : c = '\x0c'
  · subst hfeed; exact .escape rfl
  by_cases hline : c = '\n'
  · subst hline; exact .escape rfl
  by_cases hreturn : c = '\r'
  · subst hreturn; exact .escape rfl
  by_cases htab : c = '\t'
  · subst htab; exact .escape rfl
  simp only [hquote, hbackslash, hback, hfeed, hline, hreturn, htab, if_false]
  by_cases hcontrol : isControl c
  · rw [if_pos hcontrol, Option.getD_some]
    exact .unicode (unicodeValue_hexText hcontrol)
  · rw [if_neg hcontrol, Option.getD_none]
    exact .plain hcontrol hquote hbackslash

theorem EscapedAs.stringRest {c : Char} {text t r : List Char} {codes : List Nat} (h : EscapedAs c text)
    (hrest : StringRest t codes r) : StringRest (text ++ t) (c.toNat :: codes) r := by
  cases h with
  | plain hcontrol hquote hbackslash =>
    refine .plain ?_ hrest
    rw [isControl, Bool.or_eq_true, not_or, decide_eq_true_eq] at hcontrol
    rw [isUnescaped, Bool.and_eq_true, Bool.and_eq_true, decide_eq_true_eq, bne_iff_ne, bne_iff_ne]
    exact ⟨⟨Nat.not_lt.1 hcontrol.1, hquote⟩, hbackslash⟩
  | escape hcode => exact .escape hcode hrest
  | unicode hvalue =>
    unfold unicodeValue at hvalue
    split at hvalue
    · simp only [Option.bind_eq_bind, Option.bind_eq_some_iff, Option.some.injEq] at hvalue
      obtain ⟨i, hi, j, hj, k, hk, l, hl, hcode⟩ := hvalue
      exact hcode ▸ .unicode hi hj hk hl hrest
    · cases hvalue

theorem rendersString_escapeText (value : String) :
    RendersString (escapeText jsonEscape value.toList ++ ['"']) (codes value) := by
  intro r
  rw [codes, List.append_assoc]
  induction value.toList with
  | nil => exact .close
  | cons c text ih =>
    rw [escapeText, List.flatMap_cons, List.append_assoc]
    exact (escapeChar_jsonEscape c).stringRest ih

theorem codes_injective {value value' : String} (h : codes value = codes value') : value = value' :=
  String.toList_inj.1 ((List.map_injective_iff.2 fun _ _ hcd => Char.toNat_inj.1 hcd) h)

theorem jsonStringText_injective {value value' : String} (h : jsonStringText value = jsonStringText value') :
    value = value' := by
  have htext : escapeText jsonEscape value.toList ++ ['"'] = escapeText jsonEscape value'.toList ++ ['"'] :=
    (List.cons.inj h).2
  have hleft := rendersString_escapeText value []
  rw [htext] at hleft
  exact codes_injective (hleft.unique (rendersString_escapeText value' [])).1

/-! ## Values -/

section
variable {ws : Char → Bool} {float : FloatText}

theorem renders_jsonString (value : String) : Renders ws (jsonStringText value) (.string (codes value)) :=
  renders_string (rendersString_escapeText value)

theorem number_point {literal : List Char} (h : Number literal [])
    (hwhole : ¬ literal.any fun c => c = '.' || c = 'e' || c = 'E') : Number (literal ++ ['.', '0']) [] := by
  have hnot {c : Char} (hc : c ∈ literal) : c ≠ '.' ∧ isExponent c = false := by
    simp only [List.any_eq_true, Bool.or_eq_true, decide_eq_true_eq, not_exists, not_and, not_or] at hwhole
    obtain ⟨⟨hpoint, hsmall⟩, hlarge⟩ := hwhole c hc
    exact ⟨hpoint, by simp [isExponent, hsmall, hlarge]⟩
  have hparts {s t u v : List Char} (hs : literal = s ++ t) (h₁ : Integer t u) (h₂ : Fraction u v) (h₃ : Exponent v []) :
      Integer t [] := by
    obtain ⟨x, rfl⟩ := h₁.suffix
    cases h₂ with
    | digits => exact absurd rfl (hnot (c := '.') (by simp [hs])).1
    | absent =>
      cases h₃ with
      | absent => exact h₁
      | digits he =>
        rw [(hnot (by rw [hs]; simp)).2] at he
        cases he
      | signed he =>
        rw [(hnot (by rw [hs]; simp)).2] at he
        cases he
  have hfraction : Fraction ['.', '0'] [] := .digits (by decide) .nil
  cases h with
  | positive h₁ h₂ h₃ => exact .positive ((hparts (List.nil_append _).symm h₁ h₂ h₃).append _) hfraction .absent
  | negative h₁ h₂ h₃ => exact .negative ((hparts (s := ['-']) rfl h₁ h₂ h₃).append _) hfraction .absent

theorem number_integerText (value : Int64) : Number (integerText value) [] := by
  rw [integerText, int_toList]
  have hinteger := toDigits_integer value.toInt.natAbs []
  rw [List.append_nil] at hinteger
  split
  · exact .negative hinteger .absent .absent
  · exact .positive hinteger .absent .absent

theorem number_formatFloat {x : F64} (h : float.Decimal x) : Number (formatFloat float x).toList [] := by
  unfold formatFloat
  dsimp only
  split
  · rename_i hwhole
    rw [String.toList_append]
    exact number_point h.literal hwhole.2
  · exact h.literal

def valueJson (float : FloatText) : Value → Json
  | .null _ => .null
  | .int64 value => .number (integerText value)
  | .float64 value => .number (formatFloat float value).toList
  | .bool value => .bool value
  | .string value => .string (codes value)

theorem renders_jsonValue {value : Value} (h : ∀ x, value = .float64 x → float.Decimal x) :
    Renders ws (jsonValueText float value) (valueJson float value) := by
  cases value with
  | null => exact fun r => .null
  | int64 value => exact renders_number (number_integerText value)
  | float64 x => exact renders_number (number_formatFloat (h x rfl))
  | bool value =>
    cases value with
    | true => exact fun r => .true
    | false => exact fun r => .false
  | string value => exact renders_jsonString value

theorem decodes_valueJson {value : Value} (h : ∀ x, value = .float64 x → float.Decimal x) :
    Decodes float value (valueJson float value) := by
  cases value with
  | null => exact trivial
  | int64 value => exact parseInt64_toString value
  | float64 x =>
    show float.parse (.ofList (formatFloat float x).toList) = some x
    rw [String.ofList_toList]
    exact (formatFloat_spec (h x rfl).readsBack).1
  | bool value => rfl
  | string value => rfl

theorem Decodes.unique {value value' : Value} {json : Json} (h : Decodes float value json) (h' : Decodes float value' json)
    (htype : value.dataType = value'.dataType) : value = value' := by
  cases value with
  | null dataType =>
    cases value' with
    | null => exact congrArg Value.null htype
    | _ => cases json <;> first | exact h.elim | exact h'.elim
  | int64 x =>
    cases value' with
    | int64 y =>
      cases json with
      | number literal => exact congrArg Value.int64 (Option.some.inj (h.symm.trans h'))
      | _ => exact h.elim
    | null => cases json <;> first | exact h.elim | exact h'.elim
    | _ => cases htype
  | float64 x =>
    cases value' with
    | float64 y =>
      cases json with
      | number literal => exact congrArg Value.float64 (Option.some.inj (h.symm.trans h'))
      | _ => exact h.elim
    | null => cases json <;> first | exact h.elim | exact h'.elim
    | _ => cases htype
  | bool x =>
    cases value' with
    | bool y =>
      cases json with
      | bool z => exact congrArg Value.bool (h.trans h'.symm)
      | _ => exact h.elim
    | null => cases json <;> first | exact h.elim | exact h'.elim
    | _ => cases htype
  | string x =>
    cases value' with
    | string y =>
      cases json with
      | string z => exact congrArg Value.string (codes_injective (h.symm.trans h'))
      | _ => exact h.elim
    | null => cases json <;> first | exact h.elim | exact h'.elim
    | _ => cases htype

end

/-! ## Separators -/

/-- Parts of which each but the first is behind a comma. -/
def separated {α : Type} (f : α → List Char) (part : α × Nat) : List Char :=
  (if part.2 > 0 then [','] else []) ++ f part.1

theorem flatMap_separated {α : Type} (f : α → List Char) (as : List α) :
    as.zipIdx.flatMap (separated f) = join ',' (as.map f) := by
  have hbehind : ∀ (as : List α) (k : Nat), (as.zipIdx (k + 1)).flatMap (separated f) = as.flatMap fun a => ',' :: f a := by
    intro as
    induction as with
    | nil => exact fun _ => rfl
    | cons a as ih =>
      intro k
      rw [List.zipIdx_cons, List.flatMap_cons, List.flatMap_cons, ih (k + 1), separated, if_pos (Nat.succ_pos k)]
      rfl
  cases as with
  | nil => rfl
  | cons a as =>
    rw [List.zipIdx_cons, List.flatMap_cons, hbehind]
    show f a ++ _ = _
    induction as generalizing a with
    | nil => exact List.append_nil _
    | cons b as ih =>
      have hne : (b :: as).map f ≠ [] := List.cons_ne_nil _ _
      rw [List.flatMap_cons, List.map_cons, join_cons _ _ hne, List.cons_append, ih b]

/-! ## Texts of rows and documents -/

/-- The numbers with a fraction that a row holds are decimal. -/
def DecimalRow (float : FloatText) (row : List Value) : Prop := ∀ x, Value.float64 x ∈ row → float.Decimal x

section
variable {ws : Char → Bool} {float : FloatText}

theorem DecimalRow.of_mem {row : List Value} (h : DecimalRow float row) {value : Value} (hmem : value ∈ row) :
    ∀ x, value = .float64 x → float.Decimal x := by
  rintro x rfl
  exact h x hmem

theorem renders_jsonArray {row : List Value} (h : DecimalRow float row) :
    Renders ws (jsonArrayText float row) (.array (row.map (valueJson float))) := by
  have helements : row.zipIdx.flatMap (jsonElementText float) = join ',' (row.map (jsonValueText float)) :=
    flatMap_separated (jsonValueText float) row
  rw [jsonArrayText, helements]
  exact renders_array fun value hmem => renders_jsonValue (h.of_mem hmem)

theorem decodesRow_array {row : List Value} (h : DecimalRow float row) :
    DecodesRow float row (.array (row.map (valueJson float))) := by
  refine ⟨_, rfl, ?_⟩
  rw [List.forall₂_map_right_iff, List.forall₂_same]
  exact fun value hmem => decodes_valueJson (h.of_mem hmem)

def jsonObjectText (float : FloatText) (columns : List ResultColumn) (row : List Value) : List Char :=
  '\x7b' :: (row.zip columns.zipIdx).flatMap (memberText float) ++ ['\x7d']

def pairText (float : FloatText) (pair : Value × ResultColumn) : List Char :=
  jsonStringText pair.2.name ++ ':' :: jsonValueText float pair.1

def pairJson (float : FloatText) (pair : Value × ResultColumn) : List Nat × Json :=
  (codes pair.2.name, valueJson float pair.1)

theorem flatMap_memberText (columns : List ResultColumn) (row : List Value) :
    (row.zip columns.zipIdx).flatMap (memberText float) = join ',' ((row.zip columns).map (pairText float)) := by
  have hzip : ∀ (row : List Value) (columns : List ResultColumn) (k : Nat), (row.zip (columns.zipIdx k)).flatMap (memberText float) =
      ((row.zip columns).zipIdx k).flatMap (separated (pairText float)) := by
    intro row
    induction row with
    | nil => exact fun _ _ => rfl
    | cons value row ih =>
      intro columns k
      cases columns with
      | nil => rfl
      | cons column columns =>
        rw [List.zipIdx_cons, List.zip_cons_cons, List.zip_cons_cons, List.zipIdx_cons, List.flatMap_cons,
          List.flatMap_cons, ih]
        simp only [memberText, memberPrefix, separated, pairText, List.append_assoc, List.singleton_append]
  rw [hzip, flatMap_separated]

theorem renders_jsonObject {columns : List ResultColumn} {row : List Value} (h : DecimalRow float row) :
    Renders ws (jsonObjectText float columns row) (.object ((row.zip columns).map (pairJson float))) := by
  rw [jsonObjectText, flatMap_memberText]
  refine renders_object fun pair hmem => ?_
  obtain ⟨value, column⟩ := pair
  have hmember := @renders_member ws _ _ _ _ (rendersString_escapeText column.name)
    (renders_jsonValue (h.of_mem (List.of_mem_zip hmem).1))
  exact hmember

theorem map_snd_zip_take {α β : Type} {as : List α} {bs : List β} (h : as.length ≤ bs.length) :
    (as.zip bs).map Prod.snd = bs.take as.length := by
  induction as generalizing bs with
  | nil => rfl
  | cons a as ih =>
    cases bs with
    | nil => exact absurd h (Nat.not_succ_le_zero _)
    | cons b bs => rw [List.zip_cons_cons, List.map_cons, ih (Nat.le_of_succ_le_succ h), List.length_cons, List.take_succ_cons]

theorem decodesMembers_object {columns : List ResultColumn} {row : List Value} (h : DecimalRow float row)
    (hle : row.length ≤ columns.length) :
    DecodesMembers float columns row (.object ((row.zip columns).map (pairJson float))) := by
  refine ⟨_, rfl, ?_, ?_⟩
  · rw [← map_snd_zip_take hle, List.map_map, List.map_map]
    rfl
  · have hvalues : ((row.zip columns).map (pairJson float)).map Prod.snd = row.map (valueJson float) := by
      rw [List.map_map]
      have hfst := congrArg (List.map (valueJson float)) (List.map_fst_zip hle)
      rwa [List.map_map] at hfst
    rw [hvalues, List.forall₂_map_right_iff, List.forall₂_same]
    exact fun value hmem => decodes_valueJson (h.of_mem hmem)

def memberOf (key : String) (text : List Char) : List Char := jsonStringText key ++ ':' :: text

def objectOf (members : List (List Char)) : List Char := '\x7b' :: (join ',' members ++ ['\x7d'])

def arrayOf (elements : List (List Char)) : List Char := '[' :: (join ',' elements ++ [']'])

def jsonColumnText (column : ResultColumn) : List Char :=
  objectOf [memberOf "name" (jsonStringText column.name), memberOf "type" (jsonStringText column.dataType.asStr)]

def jsonDocumentText (float : FloatText) (result : QueryResult) : List Char :=
  objectOf [memberOf "columns" (arrayOf (result.columns.map jsonColumnText)),
    memberOf "rows" (arrayOf (result.rows.map (jsonArrayText float)))]

theorem renders_pair {key key' : String} {text text' : List Char} {j j' : Json} (h : Renders ws text j)
    (h' : Renders ws text' j') :
    Renders ws (objectOf [memberOf key text, memberOf key' text']) (.object [(codes key, j), (codes key', j')]) := by
  have hmember {key : String} {text : List Char} {j : Json} (h : Renders ws text j) :
      RendersMember ws (memberOf key text) (codes key, j) := renders_member (rendersString_escapeText key) h
  have hmembers : ∀ m ∈ [(memberOf key text, codes key, j), (memberOf key' text', codes key', j')], RendersMember ws m.1 m.2 :=
    List.forall_mem_cons.2 ⟨hmember h, List.forall_mem_singleton.2 (hmember h')⟩
  exact renders_object hmembers

theorem renders_jsonColumn (column : ResultColumn) : Renders ws (jsonColumnText column) (columnJson column) :=
  renders_pair (renders_jsonString column.name) (renders_jsonString column.dataType.asStr)

theorem renders_jsonDocument {result : QueryResult} (h : ∀ row ∈ result.rows, DecimalRow float row) :
    Renders ws (jsonDocumentText float result) (.object [(codes "columns", .array (result.columns.map columnJson)),
      (codes "rows", .array (result.rows.map fun row => .array (row.map (valueJson float))))]) :=
  renders_pair (renders_array fun column _ => renders_jsonColumn column)
    (renders_array fun row hmem => renders_jsonArray (h row hmem))

theorem decodesDocument_object {result : QueryResult} (h : ∀ row ∈ result.rows, DecimalRow float row) :
    DecodesDocument float result (.object [(codes "columns", .array (result.columns.map columnJson)),
      (codes "rows", .array (result.rows.map fun row => .array (row.map (valueJson float))))]) := by
  refine ⟨_, rfl, ?_⟩
  rw [List.forall₂_map_right_iff, List.forall₂_same]
  exact fun row hmem => decodesRow_array (h row hmem)

end

/-! ## What is decoded is the result -/

section
variable {float : FloatText}

theorem asStr_injective {dataType dataType' : DataType} (h : dataType.asStr = dataType'.asStr) : dataType = dataType' := by
  cases dataType <;> cases dataType' <;> first | rfl | exact absurd h (by decide)

theorem columnJson_injective {column column' : ResultColumn} (h : columnJson column = columnJson column') :
    column = column' := by
  obtain ⟨name, dataType⟩ := column
  obtain ⟨name', dataType'⟩ := column'
  simp only [columnJson, Json.object.injEq, List.cons.injEq, Prod.mk.injEq, Json.string.injEq, true_and, and_true] at h
  rw [codes_injective h.1, asStr_injective (codes_injective h.2)]

theorem Decodes.row_unique {row row' : List Value} {elements : List Json} (h : List.Forall₂ (Decodes float) row elements)
    (h' : List.Forall₂ (Decodes float) row' elements) (htypes : row.map Value.dataType = row'.map Value.dataType) :
    row = row' := by
  induction h generalizing row' with
  | nil =>
    cases h'
    rfl
  | cons hvalue _ ih =>
    cases h' with
    | cons hvalue' hrest' =>
      obtain ⟨htype, htypes⟩ := List.cons.inj htypes
      rw [hvalue.unique hvalue' htype, ih hrest' htypes]

def Typed (columns : List ResultColumn) (row : List Value) : Prop :=
  row.map Value.dataType = columns.map ResultColumn.dataType

theorem DecodesRow.unique {row row' : List Value} {json : Json} (h : DecodesRow float row json)
    (h' : DecodesRow float row' json) (htypes : row.map Value.dataType = row'.map Value.dataType) : row = row' := by
  obtain ⟨elements, rfl, hrow⟩ := h
  obtain ⟨elements', heq, hrow'⟩ := h'
  obtain rfl := Json.array.inj heq
  exact Decodes.row_unique hrow hrow' htypes

theorem DecodesMembers.unique {columns : List ResultColumn} {row row' : List Value} {json : Json}
    (h : DecodesMembers float columns row json) (h' : DecodesMembers float columns row' json)
    (htypes : row.map Value.dataType = row'.map Value.dataType) : row = row' := by
  obtain ⟨members, rfl, _, hrow⟩ := h
  obtain ⟨members', heq, _, hrow'⟩ := h'
  obtain rfl := Json.object.inj heq
  exact Decodes.row_unique hrow hrow' htypes

theorem DecodesRow.rows_unique {columns : List ResultColumn} {rows rows' : List (List Value)} {elements : List Json}
    (h : List.Forall₂ (DecodesRow float) rows elements) (h' : List.Forall₂ (DecodesRow float) rows' elements)
    (htyped : ∀ row ∈ rows, Typed columns row) (htyped' : ∀ row ∈ rows', Typed columns row) : rows = rows' := by
  induction h generalizing rows' with
  | nil =>
    cases h'
    rfl
  | cons hrow _ ih =>
    cases h' with
    | cons hrow' hrest' =>
      obtain ⟨htype, htyped⟩ := List.forall_mem_cons.1 htyped
      obtain ⟨htype', htyped'⟩ := List.forall_mem_cons.1 htyped'
      rw [hrow.unique hrow' (htype.trans htype'.symm), ih hrest' htyped htyped']

theorem DecodesDocument.unique {result result' : QueryResult} {json : Json} (h : DecodesDocument float result json)
    (h' : DecodesDocument float result' json) (htyped : ∀ row ∈ result.rows, Typed result.columns row)
    (htyped' : ∀ row ∈ result'.rows, Typed result'.columns row) : result = result' := by
  obtain ⟨columns, rows⟩ := result
  obtain ⟨columns', rows'⟩ := result'
  obtain ⟨elements, rfl, hrows⟩ := h
  obtain ⟨elements', heq, hrows'⟩ := h'
  simp only [Json.object.injEq, List.cons.injEq, Prod.mk.injEq, Json.array.injEq, true_and, and_true] at heq
  obtain ⟨hcolumns, rfl⟩ := heq
  obtain rfl : columns = columns' := List.map_injective_iff.2 (fun _ _ => columnJson_injective) hcolumns
  exact congrArg (QueryResult.mk columns) (DecodesRow.rows_unique hrows hrows' htyped htyped')

end

/-! ## What the writers send -/

section
variable {σ ε : Type} (sink : Sink σ ε) (float : FloatText)

theorem separated_writes {α : Type} {f : α → List Char} {part : α × Nat} {write : Method σ ε Unit}
    (h : sink.Writes write (emit (f part.1))) :
    sink.Writes (do
      if part.2 > 0 then sink.writeAll (ascii ",")
      write) (emit (separated f part)) := by
  rw [separated]
  by_cases hfirst : part.2 > 0
  · rw [if_pos hfirst, if_pos hfirst, emit_append]
    exact (Sink.Writes.chunk _).bind h
  · rw [if_neg hfirst, if_neg hfirst]
    exact h

theorem writeJsonColumn_writes (column : ResultColumn × Nat) :
    sink.Writes (writeJsonColumn sink column) (emit (separated jsonColumnText column)) := by
  have hopen : ascii "\x7b\"name\":" = emit ('\x7b' :: (jsonStringText "name" ++ [':'])) := by decide +kernel
  have hnext : ascii ",\"type\":" = emit (',' :: (jsonStringText "type" ++ [':'])) := by decide +kernel
  refine separated_writes sink ?_
  refine ((Sink.Writes.chunk _).bind ((writeJsonString_writes sink column.1.name).bind ((Sink.Writes.chunk _).bind
    ((writeJsonString_writes sink column.1.dataType.asStr).bind (.chunk _))))).congr ?_
  have hclose : ascii "\x7d" = emit ['\x7d'] := rfl
  rw [hopen, hnext, hclose, ← emit_append, ← emit_append, ← emit_append, ← emit_append]
  refine congrArg emit ?_
  simp only [jsonColumnText, objectOf, memberOf, join, List.append_assoc, List.cons_append, List.nil_append]

theorem writeJsonRow_writes (row : List Value × Nat) :
    sink.Writes (writeJsonRow sink float row) (emit (separated (jsonArrayText float) row)) := by
  refine separated_writes sink (((writeJsonArray_writes sink float row.1).bind (.chunk _)).congr ?_)
  rw [jsonArrayText, ← List.cons_append, emit_append]
  rfl

theorem writeJson_writes (result : QueryResult) :
    sink.Writes (writeJson sink float result) (emit (jsonDocumentText float result)) := by
  have hopen : ascii "\x7b\"columns\":[" = emit ('\x7b' :: (jsonStringText "columns" ++ [':', '['])) := by decide +kernel
  have hnext : ascii "],\"rows\":[" = emit (']' :: ',' :: (jsonStringText "rows" ++ [':', '['])) := by decide +kernel
  have hclose : ascii "]\x7d" = emit [']', '\x7d'] := by decide +kernel
  have hcolumns := Sink.Writes.forM fun column (_ : column ∈ result.columns.zipIdx) => writeJsonColumn_writes sink column
  have hrows := Sink.Writes.forM fun row (_ : row ∈ result.rows.zipIdx) => writeJsonRow_writes sink float row
  refine ((Sink.Writes.chunk _).bind (hcolumns.bind ((Sink.Writes.chunk _).bind (hrows.bind (.chunk _))))).congr ?_
  rw [hopen, hnext, hclose, ← emit_flatMap, ← emit_flatMap, flatMap_separated, flatMap_separated, ← emit_append,
    ← emit_append, ← emit_append, ← emit_append]
  refine congrArg emit ?_
  simp only [jsonDocumentText, objectOf, memberOf, arrayOf, join, List.append_assoc, List.cons_append, List.nil_append]

end

/-! ## Output -/

/-- The only reading of a text, and what it decodes to: one thing alone, among those that are admitted. -/
structure JsonReads {α : Type} (decodes : α → Json → Prop) (admitted : α → Prop) (a : α) (text : List Char) : Prop where
  line : '\n' ∉ text
  reading : ∃ json, (∀ json', Text isSpace text json' ↔ json' = json) ∧ decodes a json ∧
    ∀ a', admitted a' → decodes a' json → a' = a

theorem reads_of_renders {α : Type} {decodes : α → Json → Prop} {admitted : α → Prop} {a : α} {text : List Char} {json : Json}
    (h : ∀ ws, Renders ws text json) (ha : decodes a json)
    (hunique : ∀ a', admitted a' → decodes a' json → a' = a) : JsonReads decodes admitted a text := by
  refine ⟨?_, json, ?_, ha, hunique⟩
  · obtain ⟨s, hs, hprintable⟩ := (h fun _ => false).text.printable
    rw [List.append_nil] at hs
    exact fun hmem => absurd (hprintable '\n' (hs ▸ hmem)) (by decide)
  · intro json'
    constructor
    · exact fun h' => Text.unique (fun _ hc => hc) h' (h isSpace).text
    · rintro rfl
      exact (h isSpace).text

def linesText (lines : List (List Char)) : List Char := lines.flatMap fun line => line ++ ['\n']

def SameTypes (row row' : List Value) : Prop := row'.map Value.dataType = row.map Value.dataType

theorem linesText_object (float : FloatText) (result : QueryResult) :
    linesText (result.rows.map (jsonObjectText float result.columns)) = jsonEachRowText float result := by
  rw [linesText, List.flatMap_map, jsonEachRowText]
  refine List.flatMap_congr fun row _ => ?_
  rw [jsonRowText, jsonObjectText, List.append_assoc]
  rfl

/-- **JSON output.** What is written as JSON has one reading, which decodes to the columns and the rows of the result
alone; the other two formats have a line for each row, which decodes to this row. An escaped string has no control
character, quote or backslash in it but those of the escapes, and no other string has its text. -/
theorem json_output (float : FloatText) (result : QueryResult) (hfinite : ∀ row ∈ result.rows, Table.FiniteRow row)
    (hdecimal : ∀ row ∈ result.rows, ∀ x, Value.float64 x ∈ row → x.isFinite = true → float.Decimal x) :
    (∃ text, writeJson .vec float result [] = (some (.ok (), emit text) : Option (Except Unit Unit × Bytes)) ∧
      JsonReads (DecodesDocument float) (fun result' => (∀ row ∈ result.rows, Typed result.columns row) ∧
        ∀ row ∈ result'.rows, Typed result'.columns row) result text) ∧
    (∃ lines, writeJsonCompactEachRow .vec float result [] =
        (some (.ok (), emit (linesText lines)) : Option (Except Unit Unit × Bytes)) ∧
      List.Forall₂ (fun row line => JsonReads (DecodesRow float) (SameTypes row) row line) result.rows lines) ∧
    (∃ lines, (∀ maxOutputBytes output, writeJsonEachRowWithLimit (ε := Unit) float .vec result maxOutputBytes [] =
          some (.ok (), output) →
        output = emit (linesText lines) ∧
          List.Forall₂ (fun row line => JsonReads (DecodesMembers float result.columns) (SameTypes row) row line)
            result.rows lines) ∧
      ∀ maxOutputBytes, NoLongRow result → (emit (linesText lines)).length ≤ min maxOutputBytes usizeMax →
        writeJsonEachRowWithLimit (ε := Unit) float .vec result maxOutputBytes [] =
          some (.ok (), emit (linesText lines))) ∧
    ∀ value : String, (writeJsonString .vec value [] = (some (.ok (), emit (jsonStringText value)) :
        Option (Except Unit Unit × Bytes))) ∧
      jsonStringText value = '"' :: (value.toList.flatMap (escapeChar jsonEscape) ++ ['"']) ∧
      (∀ c ∈ value.toList, EscapedAs c (escapeChar jsonEscape c)) ∧
      ∀ value', jsonStringText value' = jsonStringText value → value' = value := by
  have hrows : ∀ row ∈ result.rows, DecimalRow float row := fun row hrow x hx => hdecimal row hrow x hx (hfinite row hrow x hx)
  refine ⟨⟨jsonDocumentText float result, (writeJson_writes _ float result).vec [], ?_⟩,
    ⟨result.rows.map (jsonArrayText float), ?_, ?_⟩,
    ⟨result.rows.map (jsonObjectText float result.columns), ?_, ?_⟩, ?_⟩
  · refine reads_of_renders (fun ws => renders_jsonDocument hrows) (decodesDocument_object hrows) ?_
    intro result' htyped h'
    exact h'.unique (decodesDocument_object hrows) htyped.2 htyped.1
  · rw [linesText, List.flatMap_map]
    exact (writeJsonCompactEachRow_writes _ float result).vec []
  · rw [List.forall₂_map_right_iff, List.forall₂_same]
    intro row hrow
    refine reads_of_renders (fun ws => renders_jsonArray (hrows row hrow)) (decodesRow_array (hrows row hrow)) ?_
    intro row' htypes h'
    exact h'.unique (decodesRow_array (hrows row hrow)) htypes
  · intro maxOutputBytes output hok
    have hlong : NoLongRow result := by
      by_contra hlong
      rw [writeJsonEachRowWithLimit, jsonEachRow_long float hlong] at hok
      cases hok
    rw [(jsonEachRow_preflighted float hlong).vec Unit maxOutputBytes []] at hok
    refine ⟨?_, ?_⟩
    · split at hok
      · obtain rfl := (Prod.mk.inj (Option.some.inj hok)).2
        rw [List.nil_append, linesText_object]
      · cases hok
    · rw [List.forall₂_map_right_iff, List.forall₂_same]
      intro row hrow
      refine reads_of_renders (fun ws => renders_jsonObject (hrows row hrow))
        (decodesMembers_object (hrows row hrow) (hlong row hrow)) ?_
      intro row' htypes h'
      exact h'.unique (decodesMembers_object (hrows row hrow) (hlong row hrow)) htypes
  · intro maxOutputBytes hlong hfits
    rw [linesText_object] at hfits ⊢
    rw [(jsonEachRow_preflighted float hlong).vec Unit maxOutputBytes [], if_pos (by omega), List.nil_append]
  · intro value
    exact ⟨(writeJsonString_writes _ value).vec [], rfl, fun c _ => escapeChar_jsonEscape c,
      fun value' h => jsonStringText_injective h⟩

/-- Names that repeat, escapes of every kind, and a number with a fraction. -/
def namesResult : QueryResult :=
  ⟨[⟨"n", .float64⟩, ⟨"n", .string⟩], [[.float64 ⟨0x4004000000000000⟩, .string "\"\\\n\x07\x7fé"]]⟩

theorem json_output_names :
    (∃ text, writeJson .vec sampleFloatText namesResult [] =
        (some (.ok (), emit text) : Option (Except Unit Unit × Bytes)) ∧
      JsonReads (DecodesDocument sampleFloatText) (fun result' => (∀ row ∈ namesResult.rows, Typed namesResult.columns row) ∧
        ∀ row ∈ result'.rows, Typed result'.columns row) namesResult text) ∧
    writeJson .vec sampleFloatText namesResult [] = (some (.ok (), ascii
      "\x7b\"columns\":[\x7b\"name\":\"n\",\"type\":\"Float64\"\x7d,\x7b\"name\":\"n\",\"type\":\"String\"\x7d],\"rows\":[[2.5,\"\\\"\\\\\\n\\u0007\\u007f" ++
        emit ['é'] ++ ascii "\"]]\x7d") : Option (Except Unit Unit × Bytes)) := by
  have hreads {x : F64} (hx : Value.float64 x ∈ ([.float64 ⟨0x4004000000000000⟩, .string "\"\\\n\x07\x7fé"] : List Value)) :
      x.isFinite = true ∧ sampleFloatText.Decimal x := by
    obtain rfl : x = ⟨0x4004000000000000⟩ := by simpa using hx
    have hliteral : Number "2.5".toList [] := by
      have htext : "2.5".toList = ['2', '.', '5'] := by decide
      rw [htext]
      exact .positive (.nonzero (by decide) (by decide) .nil) (.digits (by decide) .nil) .absent
    exact ⟨by decide, hliteral, sampleFloatText_readsBack⟩
  have houtput := json_output sampleFloatText namesResult
    (List.forall_mem_singleton.2 fun x hx => (hreads hx).1)
    (List.forall_mem_singleton.2 fun x hx _ => (hreads hx).2)
  exact ⟨houtput.1, by decide +kernel⟩

end RustHouse.Batch
