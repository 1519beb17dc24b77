import RustHouse.IngestSound
import RustHouse.Tsv

/-!
# What is written as tab-separated text is ingested

`ingestTsv_writeTsv`: escaping leaves no separator in a field, so that lines and
fields are found again, and undoing the escapes gives each text back.
-/

namespace RustHouse.Batch

open Checked Delimited Exec Words Method

namespace Tsv

/-! ## Escapes -/

theorem unescape_tsvEscape {c escaped : Char} (h : tsvEscape c = some escaped) : unescape escaped = some c := by
  unfold tsvEscape at h
  split_ifs at h with h1 h2 h3 h4 h5 h6 h7 h8 <;> obtain rfl := Option.some.inj h <;> subst_vars <;> decide

def InField (c : Char) : Prop := c ≠ '\t' ∧ c ≠ '\n' ∧ c ≠ '\r'

theorem tsvEscape_inField {c escaped : Char} (h : tsvEscape c = some escaped) : InField escaped := by
  unfold tsvEscape at h
  split_ifs at h <;> obtain rfl := Option.some.inj h <;> exact ⟨by decide, by decide, by decide⟩

theorem inField_of_tsvEscape_none {c : Char} (h : tsvEscape c = none) : InField c ∧ c ≠ '\\' := by
  refine ⟨⟨?_, ?_, ?_⟩, ?_⟩ <;> rintro rfl <;> cases h

theorem inField_of_plain {c : Char} (h : Plain c) : InField c ∧ c ≠ '\\' := by
  refine ⟨⟨?_, ?_, ?_⟩, ?_⟩ <;> rintro rfl <;> revert h <;> decide

theorem writeTsvEscaped_inField {value : String} {c : Char} (h : c ∈ writeTsvEscaped value) : InField c := by
  obtain ⟨d, _, hc⟩ := List.mem_flatMap.1 h
  cases hescape : tsvEscape d with
  | none =>
    rw [hescape] at hc
    obtain rfl := List.mem_singleton.1 hc
    exact (inField_of_tsvEscape_none hescape).1
  | some escaped =>
    rw [hescape] at hc
    obtain rfl | hc := List.mem_cons.1 hc
    · exact ⟨by decide, by decide, by decide⟩
    · obtain rfl := List.mem_singleton.1 hc
      exact tsvEscape_inField hescape

theorem decodeChars_cons {c : Char} (h : c ≠ '\\') (rest : List Char) :
    decodeChars (c :: rest) = (decodeChars rest).map (c :: ·) := by
  cases rest with
  | nil => exact if_neg h
  | cons d rest => rw [decodeChars, if_neg h]

theorem decodeChars_escape {c escaped : Char} (h : unescape escaped = some c) (rest : List Char) :
    decodeChars ('\\' :: escaped :: rest) = (decodeChars rest).map (c :: ·) := by
  rw [decodeChars, if_pos rfl, h]
  cases decodeChars rest <;> rfl

/-- **Escapes are undone.** -/
theorem decodeChars_writeTsvEscaped (value : String) : decodeChars (writeTsvEscaped value) = some value.toList := by
  unfold writeTsvEscaped
  induction value.toList with
  | nil => rfl
  | cons c cs ih =>
    rw [List.flatMap_cons]
    cases hescape : tsvEscape c with
    | none =>
      rw [Option.elim_none, List.singleton_append, decodeChars_cons (inField_of_tsvEscape_none hescape).2, ih]
      rfl
    | some escaped =>
      rw [Option.elim_some, List.cons_append, List.singleton_append, decodeChars_escape (unescape_tsvEscape hescape), ih]
      rfl

theorem decodeChars_plain {text : List Char} (h : ∀ c ∈ text, Plain c) : decodeChars text = some text := by
  induction text with
  | nil => rfl
  | cons c text ih =>
    obtain ⟨hc, htext⟩ := List.forall_mem_cons.1 h
    rw [decodeChars_cons (inField_of_plain hc).2, ih htext]
    rfl

section
variable {float : FloatText} {declared : List Declared} {t : Table}

/-! ## Fields -/

theorem writeTsvValue_inField {value : Value} (h : (∀ dataType, value ≠ .null dataType) → (∀ s, value ≠ .string s) →
    ReadsBack float value) : ∀ c ∈ writeTsvValue float value, InField c := by
  intro c hc
  cases value with
  | null =>
    have hmarker : ∀ c ∈ "\\N".toList, c ≠ '\t' ∧ c ≠ '\n' ∧ c ≠ '\r' := by simp
    exact hmarker c hc
  | string s => exact writeTsvEscaped_inField hc
  | _ => exact (inField_of_plain ((parseScalar_display (h nofun nofun)).2 c hc)).1

theorem parseField_decoded (h : Table.Consistent declared t) {i line column : Nat} {d : Declared} {value : Value}
    {text : List Char} {decoded : String} (hd : declared[i]? = some d) (hmarker : text = "\\N".toList → d.2 = false)
    (hdecode : decodeChars text = some decoded.toList)
    (hparse : parseScalar float decoded.toList d.1.dataType = some value) :
    parseField float t line i text column = .ok value := by
  have hdefinition : t.schema[i]? = some d.1 := by rw [h.schema_getElem?, hd]; rfl
  have hnull : (decide (text = "\\N".toList) && d.2) = false := by
    by_cases heq : text = "\\N".toList
    · rw [hmarker heq, Bool.and_false]
    · rw [decide_eq_false heq, Bool.false_and]
  rw [parseField, marksNull_declared h hd, hnull, Exec.ok_bind, if_neg Bool.false_ne_true, decodeField, hdecode,
    Option.map_some, getOr_some, Exec.ok_bind, hdefinition, orPanic_some, Exec.ok_bind, parseValue, String.ofList_toList,
    hparse, getOr_some]

theorem parseField_scalar (h : Table.Consistent declared t) {i line column : Nat} {d : Declared} {value : Value}
    (hd : declared[i]? = some d) (htype : value.dataType = d.1.dataType) (hreads : ReadsBack float value) :
    parseField float t line i (value.asDisplayString float).toList column = .ok value := by
  obtain ⟨hparse, hplain⟩ := parseScalar_display hreads
  refine parseField_decoded h hd (fun heq => ?_) (decodeChars_plain hplain) (htype ▸ hparse)
  have hbackslash : Plain '\\' := hplain '\\' (heq ▸ (by decide : '\\' ∈ "\\N".toList))
  exact absurd hbackslash (by decide)

/-- **A field is read back** as the value that was written. -/
theorem parseField_writeTsvValue (h : Table.Consistent declared t) {i line column : Nat} {d : Declared} {value : Value}
    (hd : declared[i]? = some d) (hadmits : Column.Admits d.kind value)
    (hreads : (∀ dataType, value ≠ .null dataType) → (∀ s, value ≠ .string s) → ReadsBack float value) :
    parseField float t line i (writeTsvValue float value) column = .ok value := by
  cases value with
  | null dataType =>
    obtain ⟨rfl, hkind⟩ := hadmits
    have hnullable : d.2 = true := congrArg Prod.snd hkind
    rw [parseField, marksNull_declared h hd, hnullable]
    rfl
  | string s =>
    have htype : d.1.dataType = .string := (show DataType.string = d.1.dataType from hadmits).symm
    refine parseField_decoded h hd (fun _ => not_nullable_of_string h hd htype) (decodeChars_writeTsvEscaped s) ?_
    rw [htype, parseScalar, String.ofList_toList]
  | _ => exact parseField_scalar h hd hadmits (hreads (by rintro _ ⟨⟩) (by rintro _ ⟨⟩))

/-! ## Records -/

theorem exported_inField {row : List Value} (h : Exported float declared row) :
    ∀ field ∈ row.map (writeTsvValue float), ∀ c ∈ field, InField c := by
  intro field hfield
  obtain ⟨value, hvalue, rfl⟩ := List.mem_map.1 hfield
  exact writeTsvValue_inField fun hnull hstring => h.scalar hvalue hnull hstring

theorem split_record {fields : List (List Char)} (h : ∀ field ∈ fields, ∀ c ∈ field, InField c) (hne : fields ≠ []) :
    (∀ c ∈ join '\t' fields, c ≠ '\n' ∧ c ≠ '\r') ∧ (join '\t' fields).count '\t' + 1 = fields.length ∧
      (join '\t' fields).splitOn '\t' = fields := by
  have hseparator : ∀ field ∈ fields, '\t' ∉ field := fun field hfield hmem => (h field hfield _ hmem).1 rfl
  refine ⟨fun c hc => ?_, count_join hseparator hne, splitOn_join hseparator hne⟩
  obtain rfl | ⟨field, hfield, hmem⟩ := mem_join hc
  · exact ⟨by decide, by decide⟩
  · exact (h field hfield c hmem).2

theorem saturatingAdd_le (a b : Nat) : saturatingAdd a b ≤ a + b := Nat.min_le_left _ _

theorem parseRecords_writeTsvRecord (h : Table.Consistent declared t) {limits : TsvIngestLimits} {rows : List (List Value)}
    (hrows : ∀ row ∈ rows, Exported float declared row) {line rowCount valueCount : Nat}
    (hmaxRows : rowCount + rows.length ≤ limits.maxRows)
    (hmaxValues : valueCount + rows.length * declared.length ≤ limits.maxValues) (hwidth : declared.length ≤ usizeMax) :
    parseRecords float t (List.range declared.length) limits line rowCount valueCount
      (rows.map (writeTsvRecord float)) = .ok rows := by
  induction rows generalizing line rowCount valueCount with
  | nil => rfl
  | cons row rows ih =>
    obtain ⟨hrow, hrows⟩ := List.forall_mem_cons.1 hrows
    rw [List.length_cons] at hmaxRows
    rw [List.length_cons, Nat.succ_mul] at hmaxValues
    have hne : row.map (writeTsvValue float) ≠ [] := by
      refine List.ne_nil_of_length_pos ?_
      rw [List.length_map, ← hrow.admits.length_eq, h.declared_length]
      exact h.nonempty
    obtain ⟨hline, hcount, hsplit⟩ := split_record (exported_inField hrow) hne
    have hcolumns : saturatingAdd ((join '\t' (row.map (writeTsvValue float))).count '\t') 1 = declared.length := by
      have hlength : (row.map (writeTsvValue float)).length = declared.length := by
        rw [List.length_map, hrow.admits.length_eq]
      rw [saturatingAdd, hcount, hlength]
      exact Nat.min_eq_left hwidth
    have hfields := @parseFields_range _ _ _ (parseField float t line) (writeTsvValue float) _ _ 0
      List.drop_zero hrow.admits fun i d value column hd hvalue hadmits =>
        parseField_writeTsvValue h hd hadmits fun hnull hstring => hrow.scalar hvalue hnull hstring
    have hnextRows := saturatingAdd_le rowCount 1
    have hnextValues := saturatingAdd_le valueCount declared.length
    rw [List.map_cons, parseRecords, writeTsvRecord, lineContents, lineContentsOr_line _ hline, Exec.ok_bind]
    dsimp only
    rw [hcolumns, rejectIf_of_not (by omega), Exec.ok_bind, rejectIf_of_not (by omega), Exec.ok_bind,
      rejectIf_of_not (by rw [List.length_range]; omega), Exec.ok_bind, hsplit, hfields, Exec.ok_bind,
      ih hrows (by omega) (by omega), Exec.ok_bind]

/-! ## Inputs -/

theorem writeTsvRows_lines {rows : List (List Value)} (hrows : ∀ row ∈ rows, Exported float declared row)
    (hne : ∀ row ∈ rows, row ≠ []) :
    splitInclusive '\n' (rows.flatMap (writeTsvRecord float)) = rows.map (writeTsvRecord float) := by
  have hlines := @splitInclusive_lines Char _ '\n'
    (rows.map fun row => join '\t' (row.map (writeTsvValue float))) fun line hline hmem => by
      obtain ⟨row, hrow, rfl⟩ := List.mem_map.1 hline
      have hfields : row.map (writeTsvValue float) ≠ [] := fun h => hne row hrow (List.map_eq_nil_iff.1 h)
      exact ((split_record (exported_inField (hrows row hrow)) hfields).1 _ hmem).1 rfl
  rw [List.flatMap_map, List.map_map] at hlines
  exact hlines

theorem parseDataRows_writeTsvRows (h : Table.Consistent declared t) (hwidth : t.schema.length ≤ usizeMax)
    {limits : TsvIngestLimits} {rows : List (List Value)} (hrows : ∀ row ∈ rows, Exported float declared row)
    (hroom : Table.HasRoom t rows.length) (hmaxRows : rows.length ≤ limits.maxRows)
    (hmaxValues : rows.length * t.schema.length ≤ limits.maxValues) (firstLine : Nat) :
    parseDataRows float t (rows.flatMap (writeTsvRecord float)) firstLine (List.range t.schema.length) limits =
      .ok ⟨rows, none⟩ := by
  have hne : ∀ row ∈ rows, row ≠ [] := fun row hrow => by
    refine List.ne_nil_of_length_pos ?_
    rw [← (hrows row hrow).admits.length_eq, h.declared_length]
    exact h.nonempty
  have hprepare := Table.prepareProjectedRows_range h hroom fun row hrow => ⟨(hrows row hrow).admits, (hrows row hrow).finite⟩
  rw [← h.declared_length] at hwidth hmaxValues hprepare ⊢
  rw [parseDataRows, writeTsvRows_lines hrows hne, parseRecords_writeTsvRecord h hrows (by omega) (by omega) hwidth,
    Exec.ok_bind, hprepare]
  rfl

theorem validateHeader_schema (h : Table.Consistent declared t) :
    (∀ c ∈ join '\t' (t.schema.map fun field => writeTsvEscaped field.name), c ≠ '\n' ∧ c ≠ '\r') ∧
      validateHeader t (join '\t' (t.schema.map fun field => writeTsvEscaped field.name)) =
        .ok (List.range t.schema.length) := by
  have hfields : ∀ field ∈ t.schema.map fun field => writeTsvEscaped field.name, ∀ c ∈ field, InField c := by
    intro field hfield c hc
    obtain ⟨definition, _, rfl⟩ := List.mem_map.1 hfield
    exact writeTsvEscaped_inField hc
  have hne : t.schema.map (fun field => writeTsvEscaped field.name) ≠ [] := fun hnil => by
    have := h.nonempty
    rw [List.map_eq_nil_iff.1 hnil] at this
    cases this
  obtain ⟨hline, hcount, hsplit⟩ := split_record hfields hne
  have hheader : join '\t' (t.schema.map fun field => writeTsvEscaped field.name) ≠ [] := fun hnil => by
    rw [hnil] at hsplit
    obtain ⟨field, hfield, hempty⟩ := List.mem_map.1 (hsplit ▸ List.mem_singleton.2 rfl :
      ([] : List Char) ∈ t.schema.map fun field => writeTsvEscaped field.name)
    have hdecoded := decodeChars_writeTsvEscaped field.name
    rw [hempty] at hdecoded
    exact name_ne_empty h hfield (Option.some.inj hdecoded).symm
  have hdecode : ∀ field ∈ t.schema, ∀ column, decodeField (writeTsvEscaped field.name) 1 column = .ok field.name := by
    intro field _ column
    rw [decodeField, decodeChars_writeTsvEscaped, Option.map_some, String.ofList_toList, getOr_some]
  have hresolve := @resolveHeader_schema _ _ _ headerErrors (fun field column => decodeField field 1 column) writeTsvEscaped h hdecode 0
    _ List.drop_zero
  rw [Nat.zero_add] at hresolve
  rw [List.length_map] at hcount
  refine ⟨hline, ?_⟩
  have hwidth := saturatingAdd_le ((join '\t' (t.schema.map fun field => writeTsvEscaped field.name)).count '\t') 1
  rw [validateHeader, rejectIf_of_not hheader, Exec.ok_bind]
  dsimp only
  rw [rejectIf_of_not (by omega), Exec.ok_bind, hsplit]
  exact hresolve

end

end Tsv

abbrev TsvIngestLimits.Admits (limits : TsvIngestLimits) (input : Bytes) (count width : Nat) : Prop :=
  AdmitsInput limits.maxBytes limits.maxRows limits.maxValues input count width

/-- **Tab-separated text round trip.** What the writers emit for rows of the schema of a table, with the names
of its columns or without, is ingested into the table as exactly these rows in their order. -/
theorem ingestTsv_writeTsv {float : FloatText} {declared : List Declared} {t : Table} (h : Table.Reachable declared t)
    (hwidth : t.schema.length ≤ usizeMax) {result : QueryResult}
    (hnames : result.columns.map ResultColumn.name = t.schema.map ColumnDef.name)
    (hrows : ∀ row ∈ result.rows, Exported float declared row) (hroom : Table.HasRoom t result.rows.length)
    (limits : TsvIngestLimits) :
    (limits.Admits (emit (writeTsvRows float result)) result.rows.length t.schema.length →
        AppendsRows (ingestTsv float (emit (writeTsvRows float result)) limits) t result.rows) ∧
      (limits.Admits (emit (writeTsv float result)) result.rows.length t.schema.length →
        AppendsRows (ingestTsvWithNames float (emit (writeTsv float result)) limits) t result.rows) := by
  have hc := Table.reachable_consistent h
  have hadmits : ∀ row ∈ result.rows, AdmitsRow declared row := fun row hrow => (hrows row hrow).admits
  refine ⟨fun hlimits => appendsRows_of_parse hc hroom hadmits ?_, fun hlimits => appendsRows_of_parse hc hroom hadmits ?_⟩
  · rw [Tsv.parseRowsWithoutNames, rejectIf_of_not (Nat.not_lt.2 hlimits.bytes), Exec.ok_bind, decodeInput_emit,
      Exec.ok_bind]
    exact Tsv.parseDataRows_writeTsvRows hc hwidth hrows hroom hlimits.rows hlimits.values 1
  · obtain ⟨hline, hheader⟩ := Tsv.validateHeader_schema hc
    have hcolumns : result.columns.map (fun column => writeTsvEscaped column.name) =
        t.schema.map fun field => writeTsvEscaped field.name := by
      have := congrArg (List.map writeTsvEscaped) hnames
      rwa [List.map_map, List.map_map] at this
    rw [Tsv.parseRowsWithNames, rejectIf_of_not (Nat.not_lt.2 hlimits.bytes), Exec.ok_bind, decodeInput_emit,
      Exec.ok_bind, writeTsv, hcolumns, List.append_assoc, List.singleton_append,
      splitInclusive_line fun hmem => (hline _ hmem).1 rfl]
    dsimp only
    rw [Tsv.lineContents, lineContentsOr_line _ hline, Exec.ok_bind, hheader, Exec.ok_bind,
      List.append_cons _ '\n' (writeTsvRows float result), List.drop_left]
    exact Tsv.parseDataRows_writeTsvRows hc hwidth hrows hroom hlimits.rows hlimits.values 2

theorem ingestTsv_writeTsv_notes :
    AppendsRows (ingestTsv sampleFloatText (emit (writeTsvRows sampleFloatText notesResult)) ⟨1024, 2, 8⟩) notesSample
        notesResult.rows ∧
      AppendsRows (ingestTsvWithNames sampleFloatText (emit (writeTsv sampleFloatText notesResult)) ⟨1024, 2, 8⟩)
        notesSample notesResult.rows :=
  (ingestTsv_writeTsv notesSample_reachable (by decide) rfl notesResult_exported ⟨by decide, by decide⟩ ⟨1024, 2, 8⟩).imp
    (fun read => read ⟨by decide +kernel, by decide, by decide⟩)
    (fun read => read ⟨by decide +kernel, by decide, by decide⟩)

end RustHouse.Batch
