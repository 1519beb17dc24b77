import RustHouse.ScalarTextSound
import RustHouse.TableRows

/-!
# Ingestion appends what it reads

What the formats share: the fields of a record are read back one by one when
each is, the names of a schema are found at their own positions, and prepared
rows end up behind those of the table.
-/

namespace RustHouse.Batch

open Checked Delimited Exec Words Method

section
variable {ε φ : Type} {float : FloatText} {declared : List Declared} {t : Table}

/-! ## Rows -/

/-- A row of a schema whose numbers with a fraction are finite and read back. -/
structure Exported (float : FloatText) (declared : List Declared) (row : List Value) : Prop where
  admits : AdmitsRow declared row
  finite : Table.FiniteRow row
  readsBack : ∀ x, Value.float64 x ∈ row → float.ReadsBack x

theorem Exported.scalar {row : List Value} (h : Exported float declared row) {value : Value} (hvalue : value ∈ row)
    (hnull : ∀ dataType, value ≠ .null dataType) (hstring : ∀ s, value ≠ .string s) : ReadsBack float value := by
  cases value with
  | null dataType => exact absurd rfl (hnull dataType)
  | string s => exact absurd rfl (hstring s)
  | float64 x => exact ⟨h.finite x hvalue, h.readsBack x hvalue⟩
  | _ => exact trivial

theorem marksNull_declared (h : Table.Consistent declared t) {i : Nat} {d : Declared} (hd : declared[i]? = some d)
    (marked : Bool) : (marksNull t i marked : Exec ε Bool) = .ok (marked && d.2) := by
  obtain ⟨physical, hphysical, hkind, _⟩ := h.column_of_declared hd
  have hnullable : physical.isNullableInt64 = d.2 := congrArg Prod.snd hkind
  cases marked with
  | false => rfl
  | true => rw [marksNull, if_pos rfl, hphysical, Option.map_some, orPanic_some, hnullable, Bool.true_and]

theorem not_nullable_of_string (h : Table.Consistent declared t) {i : Nat} {d : Declared} (hd : declared[i]? = some d)
    (hstring : d.1.dataType = .string) : d.2 = false := by
  obtain ⟨physical, _, hkind, _⟩ := h.column_of_declared hd
  have htype : physical.dataType = .string := (congrArg Prod.fst hkind).trans hstring
  rw [← show physical.isNullableInt64 = d.2 from congrArg Prod.snd hkind]
  cases physical <;> first | rfl | cases htype

theorem parseFields_range {parseField : Nat → φ → Nat → Exec ε Value} {write : Value → φ} {rest : List Declared}
    {row : List Value} {offset : Nat} (hrest : declared.drop offset = rest) (hrow : AdmitsRow rest row)
    (hfield : ∀ i d value column, declared[i]? = some d → value ∈ row → Column.Admits d.kind value →
      parseField i (write value) column = .ok value) :
    parseFields parseField (List.range declared.length) offset (row.map write) = .ok row := by
  induction hrow generalizing offset with
  | nil => rfl
  | @cons d value rest row hvalue _ ih =>
    have hd : declared[offset]? = some d := by rw [← List.head?_drop, hrest]; rfl
    have hnext : declared.drop (offset + 1) = rest := by rw [← List.drop_drop, hrest]; rfl
    have hlt := (List.getElem?_eq_some_iff.1 hd).1
    have hindex : (List.range declared.length)[offset]? = some offset := List.getElem?_range hlt
    have hhere := hfield offset d value (offset + 1) hd (List.mem_cons_self ..) hvalue
    have hthere := ih hnext fun i d value column hd hmem => hfield i d value column hd (List.mem_cons_of_mem _ hmem)
    rw [List.map_cons, parseFields, hindex, orPanic_some, Exec.ok_bind, hhere, Exec.ok_bind, hthere, Exec.ok_bind]

/-! ## Headers -/

theorem lookup_of_mem {entries : List (String × Nat)} {name : String} {i : Nat}
    (hdistinct : (entries.map Prod.fst).Nodup) (hmem : (name, i) ∈ entries) : entries.lookup name = some i := by
  induction entries with
  | nil => cases hmem
  | cons entry entries ih =>
    obtain ⟨hnew, hdistinct⟩ := List.nodup_cons.1 hdistinct
    obtain rfl | hmem := List.mem_cons.1 hmem
    · exact List.lookup_cons_self
    · have hne : (name == entry.1) = false := by
        refine beq_eq_false_iff_ne.2 fun heq => hnew ?_
        exact heq ▸ List.mem_map_of_mem (f := Prod.fst) hmem
      rw [List.lookup_cons, hne]
      exact ih hdistinct hmem

/-- The name of a column in its own case is found at its position. -/
theorem lookup_exactName (h : Table.Consistent declared t) {i : Nat} {field : ColumnDef} (hi : t.schema[i]? = some field) :
    (schemaIndexesByExactName t).lookup field.name = some i := by
  refine lookup_of_mem ?_ ?_
  · have hnames : (t.schema.map ColumnDef.name).Nodup :=
      List.Nodup.of_map toAsciiLowercase (by rw [List.map_map]; exact h.distinct)
    rw [schemaIndexesByExactName, List.map_reverse, List.map_map, List.nodup_reverse]
    have heq : t.schema.zipIdx.map (ColumnDef.name ∘ Prod.fst) = t.schema.map ColumnDef.name := by
      rw [← List.map_map, List.zipIdx_map_fst]
    exact heq ▸ hnames
  · rw [schemaIndexesByExactName, List.mem_reverse]
    exact List.mem_map.2 ⟨(field, i), List.mem_zipIdx_iff_getElem?.2 hi, rfl⟩

theorem resolveHeader_schema (errors : HeaderErrors ε) {decode : List Char → Nat → Exec ε String}
    {write : String → List Char} (h : Table.Consistent declared t)
    (hdecode : ∀ field ∈ t.schema, ∀ column, decode (write field.name) column = .ok field.name) {offset : Nat}
    {rest : List ColumnDef} (hrest : t.schema.drop offset = rest) :
    resolveHeader errors decode t (List.range offset) offset (rest.map fun field => write field.name) =
      .ok (List.range (offset + rest.length)) := by
  induction rest generalizing offset with
  | nil => rfl
  | cons field rest ih =>
    have hfield : t.schema[offset]? = some field := by rw [← List.head?_drop, hrest]; rfl
    have hnext : t.schema.drop (offset + 1) = rest := by rw [← List.drop_drop, hrest]; rfl
    have hnew : offset ∉ List.range offset := fun hmem => Nat.lt_irrefl _ (List.mem_range.1 hmem)
    rw [List.map_cons, resolveHeader, hdecode field (List.mem_of_getElem? hfield), Exec.ok_bind]
    simp only [lookup_exactName h hfield]
    rw [rejectIf_of_not hnew, Exec.ok_bind, ← List.range_succ, ih hnext, List.length_cons]
    congr 2
    omega

/-! ## Tables -/

/-- **Ingestion** of rows that are parsed as they are appends them. -/
theorem ingestRows_wp {database : Error → ε} {parseRows : Table → Exec ε PreparedInsertRows} {rows : List (List Value)}
    {E : ε → Table → Prop} (h : Table.Consistent declared t) (hroom : Table.HasRoom t rows.length)
    (hrows : ∀ row ∈ rows, AdmitsRow declared row) (hparse : parseRows t = .ok ⟨rows, none⟩) :
    wp (ingestRows database parseRows)
      (fun n t' => n = rows.length ∧ Table.Consistent declared t' ∧ Table.Appended t rows t') E t := by
  rw [ingestRows, wp_bind, wp_read, wp_bind, hparse, wp_call_ok, wp_bind, wp_mapError]
  exact wp_mono (Table.appendValidatedRows_appended h hroom hrows) (fun _ _ h => ⟨rfl, h⟩) fun _ _ he => he

theorem appendsRows_of_parse {database : Error → ε} {parseRows : Table → Exec ε PreparedInsertRows}
    {rows : List (List Value)} (h : Table.Consistent declared t) (hroom : Table.HasRoom t rows.length)
    (hrows : ∀ row ∈ rows, AdmitsRow declared row) (hparse : parseRows t = .ok ⟨rows, none⟩) :
    AppendsRows (ingestRows database parseRows) t rows := by
  obtain ⟨old, hold⟩ := h.rows_total
  have hwp := wp_iff.1 (@ingestRows_wp _ _ _ database _ _ (fun _ _ => False) h hroom hrows hparse)
  have hempty : t.rowCount = 0 → old = [] := fun hzero => by
    rw [Table.rows, hzero] at hold
    exact (Option.some.inj hold).symm
  cases hrun : ingestRows database parseRows t with
  | none => exact absurd hrun hwp.1
  | some outcome =>
    obtain ⟨result, t'⟩ := outcome
    cases result with
    | error e => exact (hwp.2.2 e t' hrun).elim
    | ok n =>
      obtain ⟨rfl, _, happended⟩ := hwp.2.1 n t' hrun
      exact ⟨old, t', hold, hempty, hrun, happended.schema, happended.rows old hold⟩

theorem ingestRows_error {database : Error → ε} {parseRows : Table → Exec ε PreparedInsertRows} {e : ε}
    (h : parseRows t = .error e) : ingestRows database parseRows t = some (.error e, t) := by
  rw [ingestRows]
  show (Method.call (parseRows t) >>= _ : Method Table ε Nat) t = _
  rw [h]
  rfl

/-! ## Inputs -/

theorem decodeInput_emit (invalidUtf8 : Nat → ε) (text : List Char) : decodeInput invalidUtf8 (emit text) = .ok text := by
  rw [decodeInput, emit, fromUtf8_utf8]
  exact congrArg Exec.ok String.toList_ofList

theorem lineContentsOr_line (invalidLineEnding : Nat → ε) {record : List Char}
    (h : ∀ c ∈ record, c ≠ '\n' ∧ c ≠ '\r') (line : Nat) :
    lineContentsOr invalidLineEnding (record ++ ['\n']) line = .ok record := by
  have hreturn : '\r' ∉ record := fun hmem => (h _ hmem).2 rfl
  rw [lineContentsOr, stripLast_append, stripLast_of_notMem hreturn, List.getLast?_concat]
  exact if_neg fun hbad => hbad.elim hreturn (by decide)

structure AdmitsInput (maxBytes maxRows maxValues : Nat) (input : Bytes) (count width : Nat) : Prop where
  bytes : input.length ≤ maxBytes
  rows : count ≤ maxRows
  values : count * width ≤ maxValues

theorem name_ne_empty (h : Table.Consistent declared t) {field : ColumnDef} (hfield : field ∈ t.schema) :
    field.name.toList ≠ [] := by
  intro hempty
  have hvalid := (h.valid field hfield).1
  rw [isValidSqlIdentifier, hempty] at hvalid
  cases hvalid

end

/-! ## A table of notes -/

/-- The text of two and a half. -/
def sampleFloatText : FloatText :=
  ⟨fun _ => "2.5", fun text => if text = "2.5" then some ⟨0x4004000000000000⟩ else none⟩

theorem sampleFloatText_readsBack : sampleFloatText.ReadsBack ⟨0x4004000000000000⟩ := by
  refine ⟨by simp [sampleFloatText], by decide, fun hpoint => absurd (by decide : '.' ∈ "2.5".toList) hpoint⟩

/-- A table with a column of each type. -/
def notesSample : Table :=
  ⟨"notes", [⟨"score", .float64⟩, ⟨"active", .bool⟩, ⟨"text", .string⟩, ⟨"level", .int64⟩],
    [.float64 [], .bool [], .string [], .nullableInt64 []], 0, 0, .default, 1, none, none⟩

def notesDeclared : List Declared :=
  [(⟨"score", .float64⟩, false), (⟨"active", .bool⟩, false), (⟨"text", .string⟩, false), (⟨"level", .int64⟩, true)]

theorem notesSample_reachable : Table.Reachable notesDeclared notesSample := by
  have hnew : Table.new "notes" [⟨"score", .float64⟩, ⟨"active", .bool⟩, ⟨"text", .string⟩] =
      .ok ⟨"notes", [⟨"score", .float64⟩, ⟨"active", .bool⟩, ⟨"text", .string⟩], [.float64 [], .bool [], .string []], 0, 0,
        .default, 0, none, none⟩ := by
    decide +kernel
  have hadd : (Table.Mutation.addNullableInt64Column "level").run
      ⟨"notes", [⟨"score", .float64⟩, ⟨"active", .bool⟩, ⟨"text", .string⟩], [.float64 [], .bool [], .string []], 0, 0,
        .default, 0, none, none⟩ = some (.ok (), notesSample) := by
    decide +kernel
  exact .success (.addNullableInt64Column "level") (.new hnew) trivial hadd

/-- Rows whose texts have the characters and the marker that the formats give a meaning. -/
def notesResult : QueryResult :=
  ⟨[⟨"score", .float64⟩, ⟨"active", .bool⟩, ⟨"text", .string⟩, ⟨"level", .int64⟩],
    [[.float64 ⟨0x4004000000000000⟩, .bool true, .string "a\t\"b\", \\N\r\n", .null .int64],
      [.float64 ⟨0x4004000000000000⟩, .bool false, .string "", .int64 (-7)]]⟩

theorem notesResult_exported : ∀ row ∈ notesResult.rows, Exported sampleFloatText notesDeclared row := by
  have hfloat {x : F64} (hx : x = ⟨0x4004000000000000⟩) : x.isFinite = true ∧ sampleFloatText.ReadsBack x :=
    hx ▸ ⟨by decide, sampleFloatText_readsBack⟩
  refine List.forall_mem_cons.2 ⟨⟨?_, fun x hx => ?_, fun x hx => ?_⟩,
    List.forall_mem_singleton.2 ⟨?_, fun x hx => ?_, fun x hx => ?_⟩⟩
  · exact .cons rfl (.cons rfl (.cons rfl (.cons ⟨rfl, rfl⟩ .nil)))
  · exact (hfloat (by simpa using hx)).1
  · exact (hfloat (by simpa using hx)).2
  · exact .cons rfl (.cons rfl (.cons rfl (.cons rfl .nil)))
  · exact (hfloat (by simpa using hx)).1
  · exact (hfloat (by simpa using hx)).2

end RustHouse.Batch
