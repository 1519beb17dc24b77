import RustHouse.FormatStreamSound

/-!
# Exact size of JSON output

One object a row: the size of a row is that of its punctuation, of the names of
its columns, which is computed once for every number of columns, and of its
values. A bounded writer then either sends all of its output or nothing.
-/

namespace RustHouse.Batch

open Checked Words
open Exec (getOr rejectIf orPanic)

/-! ## Strings and values -/

def jsonStringText (value : String) : List Char := '"' :: escapeText jsonEscape value.toList ++ ['"']

theorem jsonStringRenderedBytes_eq (value : String) :
    jsonStringRenderedBytes value = Checked.checked (emit (jsonStringText value)).length := by
  have hstep : ∀ c ∈ value.toList, ∀ n ≤ usizeMax, ((jsonCharBytes c).bind (checkedAdd n)) =
      Checked.checked (n + (emit (escapeChar jsonEscape c)).length) := by
    intro c _ n _
    rw [jsonCharBytes_eq]
    rfl
  have hquote : ('"').utf8Size = 1 := rfl
  rw [jsonStringRenderedBytes, foldlM_checked hstep (by decide), jsonStringText, length_emit_append, length_emit_cons,
    length_emit_singleton, escapeText, length_emit_flatMap, hquote]
  exact congrArg Checked.checked (by omega)

section
variable (float : FloatText)

def jsonValueText : Value → List Char
  | .null _ => "null".toList
  | .int64 value => (toString value.toInt).toList
  | .float64 value => (formatFloat float value).toList
  | .bool value => if value then "true".toList else "false".toList
  | .string value => jsonStringText value

theorem length_emit_toList (s : String) : (emit s.toList).length = s.utf8ByteSize := by
  rw [emit_ofList_toList]
  rfl

theorem jsonValueRenderedBytes_eq (value : Value) (bytes : Nat) :
    (jsonValueRenderedBytes float value).bind (checkedAdd bytes) =
      Checked.checked (bytes + (emit (jsonValueText float value)).length) := by
  cases value with
  | null dataType => rfl
  | int64 value => rw [jsonValueText, length_emit_toList]; rfl
  | float64 value => rw [jsonValueText, length_emit_toList]; rfl
  | bool value => cases value <;> rfl
  | string value =>
    rw [jsonValueRenderedBytes, jsonStringRenderedBytes_eq]
    exact checked_bind (Nat.le_add_left ..) fun _ => rfl

end

/-! ## Names of columns -/

/-- What stands before the value of a member. -/
def memberPrefix (member : ResultColumn × Nat) : List Char :=
  (if member.2 > 0 then [','] else []) ++ jsonStringText member.1.name ++ [':']

def memberSize (member : ResultColumn × Nat) : Nat := (emit (memberPrefix member)).length

theorem memberSize_eq (member : ResultColumn × Nat) :
    memberSize member = (if member.2 > 0 then 1 else 0) + (emit (jsonStringText member.1.name)).length + 1 := by
  have hcolon : (':').utf8Size = 1 := rfl
  have hcomma : (',').utf8Size = 1 := rfl
  rw [memberSize, memberPrefix, length_emit_append, length_emit_append, length_emit_singleton, hcolon]
  split
  · rw [length_emit_singleton, hcomma]
  · rfl

/-- The sums of the first sizes, from the one behind `last` on. -/
def sumsFrom (last : Nat) : List (ResultColumn × Nat) → List Nat
  | [] => []
  | member :: members => (last + memberSize member) :: sumsFrom (last + memberSize member) members

theorem getElem?_sumsFrom (last : Nat) (members : List (ResultColumn × Nat)) {k : Nat} (h : k ≤ members.length) :
    (last :: sumsFrom last members)[k]? = some (last + ((members.take k).map memberSize).sum) := by
  induction members generalizing last k with
  | nil =>
    obtain rfl := Nat.le_zero.1 h
    rfl
  | cons member members ih =>
    cases k with
    | zero => rfl
    | succ k =>
      rw [List.getElem?_cons_succ, sumsFrom, ih _ (Nat.le_of_succ_le_succ h), List.take_succ_cons, List.map_cons,
        List.sum_cons, Nat.add_assoc]

theorem foldlM_memberPrefixBytes {members : List (ResultColumn × Nat)} {bytes : List Nat} {last : Nat}
    (hlast : bytes.getLast? = some last) (hfits : last ≤ usizeMax) :
    members.foldlM (fun bytes (column, columnIndex) => do
        let last ← bytes.getLast?
        let next ← checkedAdd last (if columnIndex > 0 then 1 else 0)
        let next ← (jsonStringRenderedBytes column.name).bind (checkedAdd next)
        let next ← checkedAdd next 1
        some (bytes ++ [next])) bytes =
      (Checked.checked (last + (members.map memberSize).sum)).map fun _ => bytes ++ sumsFrom last members := by
  induction members generalizing bytes last with
  | nil =>
    rw [List.map_nil, List.sum_nil, Nat.add_zero, checked_of_le hfits]
    exact congrArg some (List.append_nil bytes).symm
  | cons member members ih =>
    have hnext : (checkedAdd last (if member.2 > 0 then 1 else 0) >>= fun next =>
        (jsonStringRenderedBytes member.1.name).bind (checkedAdd next) >>= fun next => checkedAdd next 1) =
        Checked.checked (last + memberSize member) := by
      rw [memberSize_eq, checkedAdd_eq, jsonStringRenderedBytes_eq]
      refine checked_bind (by omega) fun _ => ?_
      have hname : ∀ next, (Checked.checked (emit (jsonStringText member.1.name)).length).bind (checkedAdd next) =
          Checked.checked (next + (emit (jsonStringText member.1.name)).length) :=
        fun next => checked_bind (Nat.le_add_left ..) fun _ => rfl
      rw [hname]
      refine checked_bind (by omega) fun _ => ?_
      rw [checkedAdd_eq]
      exact congrArg Checked.checked (by omega)
    have hstep : (do
        let last ← bytes.getLast?
        let next ← checkedAdd last (if member.2 > 0 then 1 else 0)
        let next ← (jsonStringRenderedBytes member.1.name).bind (checkedAdd next)
        let next ← checkedAdd next 1
        some (bytes ++ [next])) = (Checked.checked (last + memberSize member)).map fun next => bytes ++ [next] := by
      rw [hlast, ← hnext]
      simp only [Option.bind_eq_bind, Option.bind_some, Option.map_eq_bind, Option.bind_assoc, Function.comp_def]
    rw [List.foldlM_cons, List.map_cons, List.sum_cons, ← Nat.add_assoc]
    refine (congrArg (· >>= _) hstep).trans ?_
    by_cases hle : last + memberSize member ≤ usizeMax
    · rw [checked_of_le hle]
      refine (ih List.getLast?_concat hle).trans ?_
      rw [List.append_assoc]
      rfl
    · rw [checked_of_lt (Nat.not_le.1 hle), checked_of_lt (by omega)]
      rfl

theorem memberPrefixBytes_eq (columns : List ResultColumn) : memberPrefixBytes columns =
    (Checked.checked ((columns.zipIdx.map memberSize).sum)).map fun _ => 0 :: sumsFrom 0 columns.zipIdx := by
  rw [memberPrefixBytes, foldlM_memberPrefixBytes rfl (Nat.zero_le _), Nat.zero_add]
  rfl

/-! ## Rows -/

section
variable (float : FloatText)

def memberText (member : Value × (ResultColumn × Nat)) : List Char :=
  memberPrefix member.2 ++ jsonValueText float member.1

def jsonRowText (columns : List ResultColumn) (row : List Value) : List Char :=
  '\x7b' :: (row.zip columns.zipIdx).flatMap (memberText float) ++ ['\x7d', '\n']

def jsonEachRowText (result : QueryResult) : List Char := result.rows.flatMap (jsonRowText float result.columns)

/-- A row has a column for every value. -/
def NoLongRow (result : QueryResult) : Prop := ∀ row ∈ result.rows, row.length ≤ result.columns.length

/-- The size of what stands before the values of the first columns. -/
def prefixSize (columns : List ResultColumn) (n : Nat) : Nat := ((columns.zipIdx.take n).map memberSize).sum

theorem le_prefixSize {columns : List ResultColumn} {n : Nat} (h : n ≤ columns.length) : n ≤ prefixSize columns n := by
  have hone : ∀ size ∈ (columns.zipIdx.take n).map memberSize, 1 ≤ size := by
    intro size hmem
    obtain ⟨member, -, rfl⟩ := List.mem_map.1 hmem
    rw [memberSize_eq]
    omega
  have hsum := List.length_le_sum_of_one_le _ hone
  rw [List.length_map, List.length_take, List.length_zipIdx, Nat.min_eq_left h] at hsum
  exact hsum

theorem sum_zip {α β : Type} (f : α → Nat) (g : β → Nat) {as : List α} {bs : List β} (h : as.length ≤ bs.length) :
    ((as.zip bs).map fun pair => g pair.2 + f pair.1).sum = ((bs.take as.length).map g).sum + (as.map f).sum := by
  induction as generalizing bs with
  | nil => rfl
  | cons a as ih =>
    cases bs with
    | nil => exact absurd h (Nat.not_succ_le_zero _)
    | cons b bs =>
      simp only [List.zip_cons_cons, List.map_cons, List.sum_cons, List.length_cons, List.take_succ_cons,
        ih (Nat.le_of_succ_le_succ h)]
      omega

variable {float}

theorem length_emit_jsonRowText {columns : List ResultColumn} {row : List Value} (h : row.length ≤ columns.length) :
    (emit (jsonRowText float columns row)).length =
      3 + prefixSize columns row.length + (row.map fun value => (emit (jsonValueText float value)).length).sum := by
  have hzip : ((row.zip columns.zipIdx).map fun member => (emit (memberText float member)).length).sum =
      prefixSize columns row.length + (row.map fun value => (emit (jsonValueText float value)).length).sum := by
    have hmember : (fun member => (emit (memberText float member)).length) = fun member : Value × (ResultColumn × Nat) =>
        memberSize member.2 + (emit (jsonValueText float member.1)).length := by
      funext member
      rw [memberText, length_emit_append, memberSize]
    rw [hmember]
    have hle : row.length ≤ columns.zipIdx.length := by rwa [List.length_zipIdx]
    exact sum_zip (fun value => (emit (jsonValueText float value)).length) memberSize hle
  have hopen : ('\x7b').utf8Size = 1 := rfl
  have hclose : (emit ['\x7d', '\n']).length = 2 := by decide
  rw [jsonRowText, length_emit_append, length_emit_cons, length_emit_flatMap, hzip, hopen, hclose]
  omega

variable {result : QueryResult}

theorem length_emit_jsonEachRowText : (emit (jsonEachRowText float result)).length =
    (result.rows.map fun row => (emit (jsonRowText float result.columns row)).length).sum := by
  rw [jsonEachRowText, length_emit_flatMap]

theorem zipIdx_take {α : Type} (as : List α) (n : Nat) : (as.take n).zipIdx = as.zipIdx.take n := by
  apply List.ext_getElem?
  intro i
  rw [List.getElem?_zipIdx, List.getElem?_take, List.getElem?_take, List.getElem?_zipIdx]
  split
  · rfl
  · rfl

theorem emittedColumns_spec (rows : List (List Value)) :
    rows = [] ∧ (rows.map List.length).max?.getD 0 = 0 ∨
      (∃ row ∈ rows, row.length = (rows.map List.length).max?.getD 0) ∧
        ∀ row ∈ rows, row.length ≤ (rows.map List.length).max?.getD 0 := by
  cases hmax : (rows.map List.length).max? with
  | none => exact .inl ⟨List.map_eq_nil_iff.1 (List.max?_eq_none_iff.1 hmax), rfl⟩
  | some n =>
    obtain ⟨hmem, hle⟩ := List.max?_eq_some_iff.1 hmax
    exact .inr ⟨List.mem_map.1 hmem, fun row hrow => hle _ (List.mem_map_of_mem hrow)⟩

/-- The computed size of the objects is that of their text, if it is one of the machine. -/
theorem jsonEachRowRenderedBytes_eq (h : NoLongRow result) :
    jsonEachRowRenderedBytes float result = Checked.checked (emit (jsonEachRowText float result)).length := by
  have hle : ∀ row ∈ result.rows, 3 + prefixSize result.columns row.length ≤ (emit (jsonEachRowText float result)).length := by
    intro row hrow
    have hsum := List.le_sum_of_mem (List.mem_map_of_mem
      (f := fun row => (emit (jsonRowText float result.columns row)).length) hrow)
    rw [length_emit_jsonEachRowText]
    simp only [length_emit_jsonRowText (h row hrow)] at hsum
    omega
  rw [jsonEachRowRenderedBytes]
  obtain ⟨hempty, hzero⟩ | ⟨⟨longest, hlongest, hlength⟩, hothers⟩ := emittedColumns_spec result.rows
  · rw [hzero, jsonEachRowText, hempty]
    rfl
  · rw [← hlength] at hothers ⊢
    have hcolumns := h longest hlongest
    have hlongestLe := hle longest hlongest
    have hcount := le_prefixSize hcolumns
    have hprefixes : memberPrefixBytes (result.columns.take longest.length) =
        (Checked.checked (prefixSize result.columns longest.length)).map fun _ =>
          0 :: sumsFrom 0 (result.columns.zipIdx.take longest.length) := by
      rw [memberPrefixBytes_eq, zipIdx_take, prefixSize]
    rw [if_neg (Nat.not_lt.2 hcolumns), hprefixes]
    by_cases hcountFits : longest.length + 1 ≤ usizeMax
    · rw [checkedAdd_eq, checked_of_le hcountFits]
      by_cases hfits : prefixSize result.columns longest.length ≤ usizeMax
      · rw [checked_of_le hfits, length_emit_jsonEachRowText, ← Nat.zero_add (List.sum _)]
        refine foldlM_checked (fun row hrow n _ => ?_) (Nat.zero_le _)
        have hshort := hothers row hrow
        have hget : (0 :: sumsFrom 0 (result.columns.zipIdx.take longest.length))[row.length]? =
            some (prefixSize result.columns row.length) := by
          rw [getElem?_sumsFrom 0 _ (by rw [List.length_take, List.length_zipIdx]; omega), List.take_take,
            Nat.min_eq_left hshort, Nat.zero_add, prefixSize]
        rw [hget, length_emit_jsonRowText (h row hrow)]
        refine checked_bind (by omega) fun hstart => ?_
        rw [foldlM_checked (fun value _ n _ => jsonValueRenderedBytes_eq float value n) hstart]
        refine checked_bind (by omega) fun _ => ?_
        rw [checkedAdd_eq]
      · have hover : usizeMax < (emit (jsonEachRowText float result)).length := by omega
        rw [checked_of_lt (Nat.not_le.1 hfits), checked_of_lt hover]
        rfl
    · have hover : usizeMax < (emit (jsonEachRowText float result)).length := by omega
      rw [checkedAdd_eq, checked_of_lt (Nat.not_le.1 hcountFits), checked_of_lt hover]
      rfl

end

/-! ## Writing objects -/

section
variable {σ ε : Type} (sink : Sink σ ε)

theorem writeJsonString_writes (value : String) :
    sink.Writes (writeJsonString sink value) (emit (jsonStringText value)) := by
  refine ((Sink.Writes.chunk _).bind ((writeEscaped_writes sink jsonEscape [] _).bind (.chunk _))).congr ?_
  rw [← emit_append, ← emit_append]
  rfl

variable (float : FloatText)

theorem writeJsonValue_writes (value : Value) :
    sink.Writes (writeJsonValue float sink value) (emit (jsonValueText float value)) := by
  cases value with
  | null dataType => exact .chunk _
  | int64 value =>
    rw [jsonValueText, emit_ofList_toList]
    exact .chunk _
  | float64 value =>
    rw [jsonValueText, emit_ofList_toList]
    exact .chunk _
  | bool value => exact .chunk _
  | string value => exact writeJsonString_writes sink value

theorem writeJsonMember_writes {columns : List ResultColumn} {value : Value} {index : Nat} {column : ResultColumn}
    (h : columns[index]? = some column) :
    sink.Writes (writeJsonMember float sink columns (value, index)) (emit (memberText float (value, column, index))) := by
  have hmember : sink.Writes (do
      writeJsonString sink column.name
      sink.writeAll (emit [':'])
      writeJsonValue float sink value) (emit (jsonStringText column.name ++ ([':'] ++ jsonValueText float value))) := by
    rw [emit_append, emit_append]
    exact (writeJsonString_writes sink column.name).bind ((Sink.Writes.chunk _).bind (writeJsonValue_writes sink float value))
  rw [writeJsonMember, h]
  by_cases hfirst : index > 0
  · rw [if_pos hfirst]
    refine ((Sink.Writes.chunk _).bind hmember).congr ?_
    rw [← emit_append, memberText, memberPrefix, if_pos hfirst]
    simp only [List.append_assoc]
  · rw [if_neg hfirst]
    refine hmember.congr ?_
    rw [memberText, memberPrefix, if_neg hfirst]
    simp only [List.append_assoc, List.nil_append]

theorem writeJsonMembers_writes {columns : List ResultColumn} {row : List Value} {first : Nat} {rest : List ResultColumn}
    (hrest : columns.drop first = rest) (hle : row.length ≤ rest.length) :
    sink.Writes ((row.zipIdx first).forM (writeJsonMember float sink columns))
      (emit ((row.zip (rest.zipIdx first)).flatMap (memberText float))) := by
  induction row generalizing first rest with
  | nil => exact .nothing
  | cons value row ih =>
    cases rest with
    | nil => exact absurd hle (Nat.not_succ_le_zero _)
    | cons column rest =>
      have hcolumn : columns[first]? = some column := by
        rw [← Nat.add_zero first, ← List.getElem?_drop, hrest]
        rfl
      have hnext : columns.drop (first + 1) = rest := by
        rw [← List.drop_drop, hrest]
        rfl
      rw [List.zipIdx_cons, List.zipIdx_cons, List.zip_cons_cons, List.flatMap_cons, emit_append]
      exact (writeJsonMember_writes sink float hcolumn).bind (ih hnext (Nat.le_of_succ_le_succ hle))

theorem writeJsonRows_writes {result : QueryResult} (h : NoLongRow result) :
    sink.Writes (result.rows.forM fun row => do
      sink.writeAll (emit ['\x7b'])
      row.zipIdx.forM (writeJsonMember float sink result.columns)
      sink.writeAll (emit ['\x7d', '\n'])) (emit (jsonEachRowText float result)) := by
  rw [jsonEachRowText, emit_flatMap]
  apply Sink.Writes.forM
  intro row hrow
  refine ((Sink.Writes.chunk _).bind
    ((writeJsonMembers_writes sink float (List.drop_zero ..) (h row hrow)).bind (.chunk _))).congr ?_
  rw [← emit_append, ← emit_append]
  rfl

end

/-! ## Bounded output -/

/-- A writer that computes the size of its output first: it sends all of the output, in chunks, if the size fits
the bound, and otherwise it touches nothing. -/
structure Preflighted (size : Exec Unit Nat) (output : Bytes)
    (write : (σ ε : Type) → Sink σ ε → Nat → Method σ (OutputError ε) Unit) : Prop where
  size_eq : size = getOr (Checked.checked output.length) ()
  accepted : ∀ (σ ε : Type) (sink : Sink σ ε) (maxOutputBytes : Nat),
    output.length ≤ maxOutputBytes → output.length ≤ usizeMax →
      ∃ chunks : List Bytes, chunks.flatten = output ∧
        write σ ε sink maxOutputBytes = .mapError .write (sink.sendAll chunks)
  refused : ∀ (σ ε : Type) (sink : Sink σ ε) (maxOutputBytes : Nat),
    maxOutputBytes < output.length ∨ usizeMax < output.length →
      ∀ s, write σ ε sink maxOutputBytes s = some (.error (.outputLimitExceeded
        ((Checked.checked output.length).getD (saturatingAdd maxOutputBytes 1)) maxOutputBytes), s)

/-- A buffer holds the output if its size fits the bound, and is as it was otherwise. -/
theorem Preflighted.vec {size : Exec Unit Nat} {output : Bytes}
    {write : (σ ε : Type) → Sink σ ε → Nat → Method σ (OutputError ε) Unit} (h : Preflighted size output write)
    (ε : Type) (maxOutputBytes : Nat) (out : Bytes) : write Bytes ε .vec maxOutputBytes out =
      if output.length ≤ maxOutputBytes ∧ output.length ≤ usizeMax then some (.ok (), out ++ output)
      else some (.error (.outputLimitExceeded ((Checked.checked output.length).getD (saturatingAdd maxOutputBytes 1))
        maxOutputBytes), out) := by
  by_cases hfits : output.length ≤ maxOutputBytes ∧ output.length ≤ usizeMax
  · rw [if_pos hfits]
    obtain ⟨chunks, hchunks, heq⟩ := h.accepted Bytes ε .vec maxOutputBytes hfits.1 hfits.2
    have hsent := Sink.Writes.vec (ε := ε) ⟨chunks, hchunks, rfl⟩ out
    rw [heq, Method.mapError, hsent]
  · rw [if_neg hfits]
    apply h.refused
    omega

variable (float : FloatText)

theorem table_preflighted {result : QueryResult} (h : NoShortRow result) (before behind : Bytes) :
    Preflighted (Prod.snd <$> tableOutputBytes float result before.length behind.length)
      (before ++ emit (tableText float result) ++ behind)
      (fun _ _ sink maxOutputBytes => writeTableWithAffixes sink float result maxOutputBytes before behind) := by
  have hlength : (before ++ emit (tableText float result) ++ behind).length =
      before.length + (emit (tableText float result)).length + behind.length := by
    rw [List.length_append, List.length_append]
  have hbytes := @tableOutputBytes_eq float _ h before.length behind.length
  rw [← hlength] at hbytes
  refine ⟨?_, ?_, ?_⟩
  · rw [hbytes]
    cases Checked.checked (before ++ emit (tableText float result) ++ behind).length <;> rfl
  · intro σ ε sink maxOutputBytes hle hfits
    have hlayout : (TableLayout.new float result before.length behind.length maxOutputBytes :
        Exec (TableWriteError ε) TableLayout) = .ok ⟨columnWidths float result⟩ := by
      rw [TableLayout.new, hbytes, checked_of_le hfits]
      simp only [Option.map_some, Exec.getOr_some, Exec.mapError, Exec.ok_bind, rejectIf, if_neg (Nat.not_lt.2 hle)]
    have htable : (emit (tableText float result)).length ≤ usizeMax := by omega
    obtain ⟨chunks, hchunks, hsend⟩ := writeTable_writes sink h htable before behind
    refine ⟨chunks, hchunks, ?_⟩
    rw [writeTableWithAffixes, hlayout, call_ok_bind, ← hsend]
  · intro σ ε sink maxOutputBytes hover s
    have hlayout : (TableLayout.new float result before.length behind.length maxOutputBytes :
        Exec (TableWriteError ε) TableLayout) = .error (.outputLimitExceeded
          ((Checked.checked (before ++ emit (tableText float result) ++ behind).length).getD (saturatingAdd maxOutputBytes 1))
          maxOutputBytes) := by
      rw [TableLayout.new, hbytes]
      by_cases hfits : (before ++ emit (tableText float result) ++ behind).length ≤ usizeMax
      · rw [checked_of_le hfits]
        have hexceeds : (before ++ emit (tableText float result) ++ behind).length > maxOutputBytes := by omega
        simp only [Option.map_some, Exec.getOr_some, Exec.mapError, Exec.ok_bind, rejectIf, if_pos hexceeds,
          Exec.error_bind, Option.getD_some]
      · rw [checked_of_lt (Nat.not_le.1 hfits)]
        rfl
    rw [writeTableWithAffixes, hlayout]
    rfl

theorem jsonEachRow_preflighted {result : QueryResult} (h : NoLongRow result) :
    Preflighted (getOr (jsonEachRowRenderedBytes float result) ()) (emit (jsonEachRowText float result))
      (fun _ _ sink maxOutputBytes => writeJsonEachRowWithLimit float sink result maxOutputBytes) := by
  have hbytes := @jsonEachRowRenderedBytes_eq float _ h
  refine ⟨by rw [hbytes], ?_, ?_⟩
  · intro σ ε sink maxOutputBytes hle hfits
    obtain ⟨chunks, hchunks, hsend⟩ := writeJsonRows_writes sink float h
    refine ⟨chunks, hchunks, ?_⟩
    rw [writeJsonEachRowWithLimit, hbytes, checked_of_le hfits, Exec.getOr_some, call_ok_bind,
      Exec.rejectIf_of_not (Nat.not_lt.2 hle), call_ok_bind, ← hsend]
  · intro σ ε sink maxOutputBytes hover s
    rw [writeJsonEachRowWithLimit, hbytes]
    by_cases hfits : (emit (jsonEachRowText float result)).length ≤ usizeMax
    · have hexceeds : (emit (jsonEachRowText float result)).length > maxOutputBytes := by omega
      rw [checked_of_le hfits, Exec.getOr_some, call_ok_bind, rejectIf, if_pos hexceeds]
      rfl
    · rw [checked_of_lt (Nat.not_le.1 hfits)]
      rfl

theorem table_short {result : QueryResult} (h : ¬ NoShortRow result) (before behind : Bytes) {σ ε : Type} (sink : Sink σ ε)
    (maxOutputBytes : Nat) (s : σ) : writeTableWithAffixes sink float result maxOutputBytes before behind s = none ∨
      ∃ e, writeTableWithAffixes sink float result maxOutputBytes before behind s = some (.error e, s) := by
  rw [writeTableWithAffixes, TableLayout.new]
  cases hsize : tableOutputBytes float result before.length behind.length with
  | ok outcome => exact absurd hsize (tableOutputBytes_short h _ _ outcome)
  | error e => exact .inr ⟨_, rfl⟩
  | panic => exact .inl rfl

theorem jsonEachRow_long {result : QueryResult} (h : ¬ NoLongRow result) : jsonEachRowRenderedBytes float result = none := by
  have hlong : ∃ row ∈ result.rows, result.columns.length < row.length := by
    by_contra hnone
    exact h fun row hrow => Nat.not_lt.1 fun hlt => hnone ⟨row, hrow, hlt⟩
  obtain ⟨row, hrow, hlt⟩ := hlong
  rw [jsonEachRowRenderedBytes, if_pos]
  obtain ⟨hempty, -⟩ | ⟨-, hothers⟩ := emittedColumns_spec result.rows
  · rw [hempty] at hrow
    cases hrow
  · exact Nat.lt_of_lt_of_le hlt (hothers row hrow)

/-- **Size preflight.** The sizes that the bounded writers compute are those of their output, whatever the strings
hold, and the output is written if and only if its size fits: otherwise no sink sees a byte. All lines of a table have
the width of its border. -/
theorem size_preflight_exact (result : QueryResult) :
    (NoShortRow result →
      (∀ line ∈ tableLines float result, '\n' ∉ line ∧ line.length = (borderLine (columnWidths float result)).length) ∧
      ∀ before behind : Bytes,
        Preflighted (Prod.snd <$> tableOutputBytes float result before.length behind.length)
          (before ++ emit (Delimited.join '\n' (tableLines float result)) ++ behind)
          (fun _ _ sink maxOutputBytes => writeTableWithAffixes sink float result maxOutputBytes before behind)) ∧
    (¬ NoShortRow result → ∀ (before behind : Bytes) (σ ε : Type) (sink : Sink σ ε) (maxOutputBytes : Nat) (s : σ),
      writeTableWithAffixes sink float result maxOutputBytes before behind s = none ∨
        ∃ e, writeTableWithAffixes sink float result maxOutputBytes before behind s = some (.error e, s)) ∧
    (NoLongRow result →
      Preflighted (getOr (jsonEachRowRenderedBytes float result) ()) (emit (jsonEachRowText float result))
        (fun _ _ sink maxOutputBytes => writeJsonEachRowWithLimit float sink result maxOutputBytes)) ∧
    (¬ NoLongRow result → jsonEachRowRenderedBytes float result = none ∧
      ∀ (σ ε : Type) (sink : Sink σ ε) (maxOutputBytes : Nat) (s : σ),
        writeJsonEachRowWithLimit float sink result maxOutputBytes s =
          some (.error (.outputLimitExceeded (saturatingAdd maxOutputBytes 1) maxOutputBytes), s)) := by
  refine ⟨fun h => ⟨fun line hmem => ⟨newline_notMem_tableLines line hmem, h.length_line line hmem⟩, ?_⟩, ?_, ?_, ?_⟩
  · exact table_preflighted float h
  · intro h before behind σ ε sink maxOutputBytes s
    exact table_short float h before behind sink maxOutputBytes s
  · exact jsonEachRow_preflighted float
  · intro h
    have hnone := jsonEachRow_long float h
    refine ⟨hnone, fun σ ε sink maxOutputBytes s => ?_⟩
    rw [writeJsonEachRowWithLimit, hnone]
    rfl

def escapesResult : QueryResult :=
  { columns := [⟨"id", .int64⟩, ⟨"a\tb", .string⟩],
    rows := [[.int64 (-7), .string "\"\\\n\x07é"], [.null .int64, .string ""]] }

/-- The result has no floating-point numbers. -/
def noFloatText : FloatText := { toText _ := "", parse _ := none }

theorem size_preflight_exact_sample : NoShortRow escapesResult ∧ NoLongRow escapesResult ∧
    (emit (jsonEachRowText noFloatText escapesResult)).length = 56 ∧
    writeTable (ε := Unit) .vec noFloatText escapesResult 156 [] =
      some (.ok (), emit (tableText noFloatText escapesResult)) ∧
    writeJsonEachRowWithLimit (ε := Unit) noFloatText .vec escapesResult 56 [] =
      some (.ok (), emit (jsonEachRowText noFloatText escapesResult)) ∧
    writeJsonEachRowWithLimit (ε := Unit) noFloatText .vec escapesResult 55 [] =
      some (.error (.outputLimitExceeded 56 55), []) := by
  have hshort : NoShortRow escapesResult := by
    unfold NoShortRow
    decide
  have hlong : NoLongRow escapesResult := by
    unfold NoLongRow
    decide
  have hexact := size_preflight_exact noFloatText escapesResult
  have htable := ((hexact.1 hshort).2 [] []).vec Unit 156 []
  have hjson := fun maxOutputBytes => (hexact.2.2.1 hlong).vec Unit maxOutputBytes []
  refine ⟨hshort, hlong, by decide +kernel, ?_, ?_, ?_⟩
  · exact htable.trans ((if_pos (by decide +kernel)).trans (by simp [tableText]))
  · exact (hjson 56).trans ((if_pos (by decide +kernel)).trans (by simp))
  · exact (hjson 55).trans (if_neg (by decide +kernel))

end RustHouse.Batch
