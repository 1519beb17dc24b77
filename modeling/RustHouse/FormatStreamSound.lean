import RustHouse.FormatStream

/-!
# Exact size of bounded output

Both implementations of the escapes agree on every character: what the size of a
cell or of a string is computed to be is the number of bytes that its writer
sends. The checked sums over columns and rows then fit a size if and only if the
whole output does.
-/

namespace RustHouse.Batch

open Checked Delimited Words
open Exec (rejectIf getOr orPanic)

/-! ## Bytes of text -/

@[simp] theorem emit_nil : emit [] = [] := rfl

theorem emit_eq (text : List Char) : emit text = text.flatMap String.utf8EncodeChar := utf8_ofList text

theorem emit_append (text text' : List Char) : emit (text ++ text') = emit text ++ emit text' := by
  rw [emit_eq, emit_eq, emit_eq, List.flatMap_append]

theorem emit_cons (c : Char) (text : List Char) : emit (c :: text) = emit [c] ++ emit text := emit_append [c] text

theorem emit_flatMap {α : Type} (f : α → List Char) (as : List α) :
    emit (as.flatMap f) = as.flatMap fun a => emit (f a) := by
  rw [emit_eq, List.flatMap_assoc]
  exact List.flatMap_congr fun a _ => (emit_eq (f a)).symm

@[simp] theorem length_emit_singleton (c : Char) : (emit [c]).length = c.utf8Size := by
  rw [emit_eq, List.flatMap_singleton, String.length_utf8EncodeChar]

theorem length_emit_cons (c : Char) (text : List Char) : (emit (c :: text)).length = c.utf8Size + (emit text).length := by
  rw [emit_cons, List.length_append, length_emit_singleton]

theorem length_emit_append (text text' : List Char) :
    (emit (text ++ text')).length = (emit text).length + (emit text').length := by
  rw [emit_append, List.length_append]

theorem length_emit_flatMap {α : Type} (f : α → List Char) (as : List α) :
    (emit (as.flatMap f)).length = (as.map fun a => (emit (f a)).length).sum := by
  rw [emit_flatMap, List.length_flatMap]

theorem length_emit_replicate {c : Char} (h : c.utf8Size = 1) (n : Nat) : (emit (List.replicate n c)).length = n := by
  have hascii : ∀ c' ∈ List.replicate n c, c'.utf8Size = 1 := fun c' hc' => List.eq_of_mem_replicate hc' ▸ h
  rw [emit, length_utf8_ofList hascii, List.length_replicate]

theorem emit_ofList_toList (s : String) : emit s.toList = utf8 s := by rw [emit, String.ofList_toList]

theorem length_le_emit (text : List Char) : text.length ≤ (emit text).length := by
  induction text with
  | nil => exact Nat.zero_le _
  | cons c text ih =>
    have hpos := c.utf8Size_pos
    rw [length_emit_cons, List.length_cons]
    omega

/-! ## Escapes -/

/-- A character as it stands in the output. -/
def escapeChar (escape : Char → Option (List Char)) (c : Char) : List Char := (escape c).getD [c]

def escapeText (escape : Char → Option (List Char)) (text : List Char) : List Char := text.flatMap (escapeChar escape)

theorem hexText_small {n : Nat} (h : n < 0xa0) : ((Nat.toDigits 16 n).leftpad 4 '0').length = 4 ∧
    (∀ c ∈ (Nat.toDigits 16 n).leftpad 4 '0', c.utf8Size = 1) ∧ '\n' ∉ (Nat.toDigits 16 n).leftpad 4 '0' ∧
      (n.size + 3) / 4 ≤ 4 := by
  -- The characters of a list are few, those of the type are not.
  have hchars : (List.range 0xa0).all fun n => ((Nat.toDigits 16 n).leftpad 4 '0').all fun c => c.utf8Size = 1 := by
    decide +kernel
  have hrest : ∀ n < 0xa0, ((Nat.toDigits 16 n).leftpad 4 '0').length = 4 ∧
      '\n' ∉ (Nat.toDigits 16 n).leftpad 4 '0' ∧ (n.size + 3) / 4 ≤ 4 := by
    decide +kernel
  obtain ⟨hlength, hfeed, hsize⟩ := hrest n h
  refine ⟨hlength, fun c hc => ?_, hfeed, hsize⟩
  exact of_decide_eq_true (List.all_eq_true.1 (List.all_eq_true.1 hchars n (List.mem_range.2 h)) c hc)

theorem toNat_of_isControl {c : Char} (h : isControl c) : c.toNat < 0xa0 := by
  unfold isControl at h
  simp only [Bool.or_eq_true, Bool.and_eq_true, decide_eq_true_eq] at h
  omega

theorem hexText_control {c : Char} (h : isControl c) : (hexText c).length = 4 ∧ (emit (hexText c)).length = 4 ∧
    '\n' ∉ hexText c ∧ max (significantHexDigits c) 4 = 4 := by
  obtain ⟨hlength, hascii, hline, hdigits⟩ := hexText_small (toNat_of_isControl h)
  exact ⟨hlength, (length_utf8_ofList hascii).trans hlength, hline, Nat.max_eq_right hdigits⟩

/-- **Cells.** The metrics of a character are those of what is written for it. -/
theorem tableCharMetrics_eq (c : Char) :
    tableCharMetrics c = some ((escapeChar tableEscape c).length, (emit (escapeChar tableEscape c)).length) := by
  unfold tableCharMetrics escapeChar tableEscape
  by_cases hbackslash : c = '\\'
  · subst hbackslash; decide
  by_cases hline : c = '\n'
  · subst hline; decide
  by_cases hreturn : c = '\r'
  · subst hreturn; decide
  by_cases htab : c = '\t'
  · subst htab; decide
  simp only [hbackslash, hline, hreturn, htab, or_self, if_false]
  by_cases hcontrol : isControl c
  · obtain ⟨hlength, hbytes, -, hdigits⟩ := hexText_control hcontrol
    have hopen : (emit ['\\', 'u', '\x7b']).length = 3 := by decide
    have hclose : (emit ['\x7d']).length = 1 := by decide
    rw [if_pos hcontrol, if_pos hcontrol, hdigits, Option.getD_some, length_emit_append, length_emit_append, hbytes,
      hopen, hclose, List.length_append, List.length_append, hlength]
    rfl
  · rw [if_neg hcontrol, if_neg hcontrol, Option.getD_none, length_emit_singleton]
    rfl

/-- **Strings.** The bytes of a character are those of what is written for it. -/
theorem jsonCharBytes_eq (c : Char) : jsonCharBytes c = some (emit (escapeChar jsonEscape c)).length := by
  unfold jsonCharBytes escapeChar jsonEscape
  by_cases hquote : c = '"'
  · subst hquote; decide
  by_cases hbackslash : c = '\\'
  · subst hbackslash; decide
  by_cases hbackspace : c = '\x08'
  · subst hbackspace; decide
  by_cases hfeed : c = '\x0c'
  · subst hfeed; decide
  by_cases hline : c = '\n'
  · subst hline; decide
  by_cases hreturn : c = '\r'
  · subst hreturn; decide
  by_cases htab : c = '\t'
  · subst htab; decide
  simp only [hquote, hbackslash, hbackspace, hfeed, hline, hreturn, htab, or_self, if_false]
  by_cases hcontrol : isControl c
  · obtain ⟨-, hbytes, -, hdigits⟩ := hexText_control hcontrol
    have hopen : (emit ['\\', 'u']).length = 2 := by decide
    rw [if_pos hcontrol, if_pos hcontrol, hdigits, Option.getD_some, length_emit_append, hbytes, hopen]
    rfl
  · rw [if_neg hcontrol, if_neg hcontrol, Option.getD_none, length_emit_singleton]

theorem newline_notMem_escapeChar (c : Char) : '\n' ∉ escapeChar tableEscape c := by
  unfold escapeChar tableEscape
  by_cases hbackslash : c = '\\'
  · subst hbackslash; decide
  by_cases hline : c = '\n'
  · subst hline; decide
  by_cases hreturn : c = '\r'
  · subst hreturn; decide
  by_cases htab : c = '\t'
  · subst htab; decide
  simp only [hbackslash, hline, hreturn, htab, if_false]
  by_cases hcontrol : isControl c
  · have hhex := (hexText_control hcontrol).2.2.1
    rw [if_pos hcontrol, Option.getD_some]
    simp [hhex]
  · rw [if_neg hcontrol, Option.getD_none]
    exact fun h => hline (List.mem_singleton.1 h).symm

section
variable {σ ε : Type} (sink : Sink σ ε)

theorem writeEscaped_writes (escape : Char → Option (List Char)) (unescaped text : List Char) :
    sink.Writes (writeEscaped sink escape unescaped text) (emit (unescaped ++ escapeText escape text)) := by
  induction text generalizing unescaped with
  | nil =>
    rw [escapeText, List.flatMap_nil, List.append_nil]
    exact .chunk _
  | cons c text ih =>
    rw [writeEscaped, escapeText, List.flatMap_cons, escapeChar]
    cases escape c with
    | none =>
      refine (ih (unescaped ++ [c])).congr ?_
      rw [List.append_assoc]
      rfl
    | some escaped =>
      refine ((Sink.Writes.chunk _).bind ((Sink.Writes.chunk _).bind (ih []))).congr ?_
      rw [List.nil_append, ← emit_append, ← emit_append]
      rfl

end

/-! ## Cells -/

def cellText (value : String) : List Char := escapeText tableEscape value.toList

theorem newline_notMem_cellText (value : String) : '\n' ∉ cellText value := by
  intro h
  obtain ⟨c, -, hc⟩ := List.mem_flatMap.1 h
  exact newline_notMem_escapeChar c hc

theorem addMetrics_eq (metrics : TableTextMetrics) (c : Char) (hle : metrics.characters ≤ metrics.bytes) :
    addMetrics metrics c = (Checked.checked (metrics.bytes + (emit (escapeChar tableEscape c)).length)).map fun bytes =>
      ⟨metrics.characters + (escapeChar tableEscape c).length, bytes⟩ := by
  have hchars := length_le_emit (escapeChar tableEscape c)
  have heq : addMetrics metrics c = (checkedAdd metrics.characters (escapeChar tableEscape c).length).bind fun characters =>
      (checkedAdd metrics.bytes (emit (escapeChar tableEscape c)).length).bind fun bytes => some ⟨characters, bytes⟩ := by
    rw [addMetrics, tableCharMetrics_eq]
    rfl
  rw [heq, checkedAdd_eq, checkedAdd_eq]
  by_cases hfits : metrics.bytes + (emit (escapeChar tableEscape c)).length ≤ usizeMax
  · rw [checked_of_le hfits, checked_of_le (by omega)]
    rfl
  · rw [checked_of_lt (Nat.not_le.1 hfits)]
    cases Checked.checked (metrics.characters + (escapeChar tableEscape c).length) <;> rfl

theorem foldlM_addMetrics (text : List Char) (metrics : TableTextMetrics) (hle : metrics.characters ≤ metrics.bytes)
    (hfits : metrics.bytes ≤ usizeMax) :
    text.foldlM addMetrics metrics = (Checked.checked (metrics.bytes + (emit (escapeText tableEscape text)).length)).map fun bytes =>
      ⟨metrics.characters + (escapeText tableEscape text).length, bytes⟩ := by
  induction text generalizing metrics with
  | nil =>
    exact (congrArg (Option.map fun bytes => (⟨metrics.characters, bytes⟩ : TableTextMetrics)) (checked_of_le hfits)).symm
  | cons c text ih =>
    have hchars := length_le_emit (escapeChar tableEscape c)
    rw [List.foldlM_cons, addMetrics_eq metrics c hle, escapeText, List.flatMap_cons, length_emit_append,
      List.length_append, ← Nat.add_assoc, ← Nat.add_assoc]
    by_cases hnext : metrics.bytes + (emit (escapeChar tableEscape c)).length ≤ usizeMax
    · rw [checked_of_le hnext]
      exact ih _ (Nat.add_le_add hle hchars) hnext
    · rw [checked_of_lt (Nat.not_le.1 hnext), checked_of_lt (by omega)]
      rfl

theorem tableTextMetrics_eq (value : String) :
    tableTextMetrics value = (Checked.checked (emit (cellText value)).length).map fun bytes => ⟨(cellText value).length, bytes⟩ := by
  rw [tableTextMetrics, foldlM_addMetrics _ _ (Nat.le_refl 0) (Nat.zero_le _), Nat.zero_add, Nat.zero_add]
  rfl

theorem tableTextMetrics_of_le {value : String} (h : (emit (cellText value)).length ≤ usizeMax) :
    tableTextMetrics value = some ⟨(cellText value).length, (emit (cellText value)).length⟩ := by
  rw [tableTextMetrics_eq, checked_of_le h]
  rfl

theorem tableTextMetrics_of_lt {value : String} (h : usizeMax < (emit (cellText value)).length) :
    tableTextMetrics value = none := by
  rw [tableTextMetrics_eq, checked_of_lt h]
  rfl

/-! ## Lines -/

def cellWithPadding (cell : String × Nat) : List Char :=
  ' ' :: cellText cell.1 ++ List.replicate (cell.2 - (cellText cell.1).length + 1) ' ' ++ ['|']

def borderLine (widths : List Nat) : List Char :=
  '+' :: widths.flatMap fun width => List.replicate (width + 2) '-' ++ ['+']

def rowLine (values : List String) (widths : List Nat) : List Char := '|' :: (values.zip widths).flatMap cellWithPadding

theorem length_emit_cellWithPadding (cell : String × Nat) : (emit (cellWithPadding cell)).length =
    1 + (emit (cellText cell.1)).length + (cell.2 - (cellText cell.1).length + 1) + 1 := by
  rw [cellWithPadding, length_emit_append, length_emit_append, length_emit_cons, length_emit_replicate rfl,
    length_emit_singleton]
  rfl

theorem length_emit_rowLine (values : List String) (widths : List Nat) : (emit (rowLine values widths)).length =
    1 + ((values.zip widths).map fun cell => (emit (cellWithPadding cell)).length).sum := by
  rw [rowLine, length_emit_cons, length_emit_flatMap]
  rfl

theorem length_emit_borderLine (widths : List Nat) :
    (emit (borderLine widths)).length = 1 + (widths.map (· + 3)).sum := by
  rw [borderLine, length_emit_cons, length_emit_flatMap]
  have hwidth : ∀ width : Nat, (emit (List.replicate (width + 2) '-' ++ ['+'])).length = width + 3 := by
    intro width
    rw [length_emit_append, length_emit_replicate rfl, length_emit_singleton]
    rfl
  simp only [hwidth]
  rfl

/-- A column is at least as wide as its cell in each row, and there is a cell for every column. -/
def Covers : List Nat → List String → Prop
  | [], _ => True
  | _ :: _, [] => False
  | width :: widths, value :: values => (cellText value).length ≤ width ∧ Covers widths values

theorem Covers.cells {widths : List Nat} {values : List String} (h : Covers widths values) :
    ∀ cell ∈ values.zip widths, (cellText cell.1).length ≤ cell.2 := by
  induction widths generalizing values with
  | nil =>
    rw [List.zip_nil_right]
    exact List.forall_mem_nil _
  | cons width widths ih =>
    cases values with
    | nil => exact List.forall_mem_nil _
    | cons value values =>
      rw [List.zip_cons_cons]
      exact List.forall_mem_cons.2 ⟨h.1, ih h.2⟩

theorem length_rowLine {widths : List Nat} {values : List String} (h : Covers widths values) :
    (rowLine values widths).length = (borderLine widths).length := by
  induction widths generalizing values with
  | nil =>
    rw [rowLine, List.zip_nil_right]
    rfl
  | cons width widths ih =>
    cases values with
    | nil => exact h.elim
    | cons value values =>
      have hrest := ih h.2
      have hvalue : (cellText value).length ≤ width := h.1
      simp only [rowLine, borderLine, List.length_cons, List.zip_cons_cons, List.flatMap_cons, List.length_append,
        cellWithPadding, List.length_replicate, List.length_nil] at hrest ⊢
      omega

theorem newline_notMem_borderLine (widths : List Nat) : '\n' ∉ borderLine widths := by
  simp [borderLine]

theorem newline_notMem_rowLine (values : List String) (widths : List Nat) : '\n' ∉ rowLine values widths := by
  simp [rowLine, cellWithPadding, newline_notMem_cellText]

/-- The bytes of a cell come to what its writer sends, or exceed every size with it. -/
theorem tableCellBytes_eq {cell : String × Nat} (h : (cellText cell.1).length ≤ cell.2) {bytes : Nat} :
    tableCellBytes bytes cell = Checked.checked (bytes + (emit (cellWithPadding cell)).length) := by
  rw [length_emit_cellWithPadding]
  by_cases htext : (emit (cellText cell.1)).length ≤ usizeMax
  · have hsub : checkedSub cell.2 (cellText cell.1).length = some (cell.2 - (cellText cell.1).length) := if_pos h
    rw [tableCellBytes, tableTextMetrics_of_le htext]
    simp only [Option.bind_eq_bind, Option.bind_some, hsub]
    refine checked_bind (by omega) fun _ => checked_bind (by omega) fun _ => checked_bind (by omega) fun _ =>
      checked_bind (by omega) fun _ => ?_
    rw [checkedAdd_eq]
    exact congrArg Checked.checked (by omega)
  · rw [tableCellBytes, tableTextMetrics_of_lt (Nat.not_le.1 htext), checked_of_lt (by omega)]
    rfl

theorem tableRowBytes_eq {values : List String} {widths : List Nat} (h : Covers widths values) :
    tableRowBytes values widths = Checked.checked ((emit (rowLine values widths)).length + 1) := by
  rw [tableRowBytes, foldlM_checked (fun cell hcell n _ => tableCellBytes_eq (h.cells cell hcell)) (by decide),
    length_emit_rowLine]
  exact checked_bind (Nat.le_succ _) fun _ => rfl

/-! ## Widths -/

def widenText : List Nat → List String → List Nat
  | width :: widths, value :: values => max width (cellText value).length :: widenText widths values
  | widths, _ => widths

@[simp] theorem length_widenText (widths : List Nat) (values : List String) :
    (widenText widths values).length = widths.length := by
  induction widths generalizing values with
  | nil => rfl
  | cons width widths ih =>
    cases values with
    | nil => rfl
    | cons value values => exact congrArg Nat.succ (ih values)

theorem covers_widenText {widths : List Nat} {values : List String} (h : widths.length ≤ values.length) :
    Covers (widenText widths values) values := by
  induction widths generalizing values with
  | nil => exact trivial
  | cons width widths ih =>
    cases values with
    | nil => exact absurd h (Nat.not_succ_le_zero _)
    | cons value values => exact ⟨Nat.le_max_right .., ih (Nat.le_of_succ_le_succ h)⟩

theorem Covers.widenText {widths : List Nat} {values : List String} (h : Covers widths values) (values' : List String) :
    Covers (widenText widths values') values := by
  induction widths generalizing values values' with
  | nil => exact trivial
  | cons width widths ih =>
    cases values with
    | nil => exact h.elim
    | cons value values =>
      cases values' with
      | nil => exact h
      | cons value' values' => exact ⟨Nat.le_trans h.1 (Nat.le_max_left ..), ih h.2 values'⟩

@[simp] theorem length_foldl_widenText (rows : List (List String)) (widths : List Nat) :
    (rows.foldl Batch.widenText widths).length = widths.length := by
  induction rows generalizing widths with
  | nil => rfl
  | cons row rows ih => rw [List.foldl_cons, ih, length_widenText]

theorem Covers.foldl {widths : List Nat} {values : List String} (h : Covers widths values) (rows : List (List String)) :
    Covers (rows.foldl Batch.widenText widths) values := by
  induction rows generalizing widths with
  | nil => exact h
  | cons row rows ih => exact ih (h.widenText row)

theorem covers_foldl {rows : List (List String)} {widths : List Nat} (h : ∀ row ∈ rows, widths.length ≤ row.length) :
    ∀ row ∈ rows, Covers (rows.foldl widenText widths) row := by
  induction rows generalizing widths with
  | nil => exact List.forall_mem_nil _
  | cons row rows ih =>
    obtain ⟨hrow, hrows⟩ := List.forall_mem_cons.1 h
    refine List.forall_mem_cons.2 ⟨(covers_widenText hrow).foldl rows, ih ?_⟩
    intro row' hmem
    rw [length_widenText]
    exact hrows row' hmem

/-- A cell whose text does not fit a size. -/
def Oversized (value : String) : Prop := usizeMax < (emit (cellText value)).length

theorem Oversized.rowLine {values : List String} {widths : List Nat} {value : String} (h : Oversized value)
    (hmem : value ∈ values.take widths.length) : usizeMax < (emit (rowLine values widths)).length := by
  obtain ⟨i, hi, rfl⟩ := List.mem_iff_getElem.1 hmem
  rw [List.length_take] at hi
  have hcell : (values[i], widths[i]) ∈ values.zip widths :=
    List.mem_iff_getElem.2 ⟨i, by rw [List.length_zip]; omega, List.getElem_zip⟩
  have hle := List.le_sum_of_mem (List.mem_map_of_mem (f := fun cell => (emit (cellWithPadding cell)).length) hcell)
  rw [List.getElem_take] at h
  unfold Oversized at h
  simp only [length_emit_cellWithPadding] at hle
  rw [length_emit_rowLine]
  simp only [length_emit_cellWithPadding]
  omega

section
variable (float : FloatText)

theorem widenTable_eq {widths : List Nat} {row : List Value} (h : widths.length ≤ row.length) :
    widenTable float widths row = .ok (widenText widths (row.map (tableValueText float))) ∨
      widenTable float widths row = .error () ∧
        ∃ value ∈ (row.map (tableValueText float)).take widths.length, Oversized value := by
  induction widths generalizing row with
  | nil => exact .inl rfl
  | cons width widths ih =>
    cases row with
    | nil => exact absurd h (Nat.not_succ_le_zero _)
    | cons value row =>
      rw [widenTable, List.map_cons, List.length_cons, List.take_succ_cons]
      by_cases hfits : (emit (cellText (tableValueText float value))).length ≤ usizeMax
      · rw [tableTextMetrics_of_le hfits, Exec.getOr_some, Exec.ok_bind]
        obtain hok | ⟨herror, value', hmem, hover⟩ := ih (Nat.le_of_succ_le_succ h)
        · rw [hok]
          exact .inl rfl
        · rw [herror]
          exact .inr ⟨rfl, value', List.mem_cons_of_mem _ hmem, hover⟩
      · rw [tableTextMetrics_of_lt (Nat.not_le.1 hfits)]
        exact .inr ⟨rfl, _, List.mem_cons_self .., Nat.not_le.1 hfits⟩

theorem foldlM_widenTable_eq {rows : List (List Value)} {widths : List Nat} (h : ∀ row ∈ rows, widths.length ≤ row.length) :
    rows.foldlM (widenTable float) widths =
        .ok ((rows.map fun row => row.map (tableValueText float)).foldl widenText widths) ∨
      rows.foldlM (widenTable float) widths = .error () ∧
        ∃ row ∈ rows, ∃ value ∈ (row.map (tableValueText float)).take widths.length, Oversized value := by
  induction rows generalizing widths with
  | nil => exact .inl rfl
  | cons row rows ih =>
    obtain ⟨hrow, hrows⟩ := List.forall_mem_cons.1 h
    rw [List.foldlM_cons, List.map_cons, List.foldl_cons]
    obtain hok | ⟨herror, hover⟩ := widenTable_eq float hrow
    · rw [hok, Exec.ok_bind]
      have hnext := @ih (widenText widths (row.map (tableValueText float))) (by simpa using hrows)
      rw [length_widenText] at hnext
      refine hnext.imp_right fun ⟨herror, row', hmem, hover⟩ => ⟨herror, row', List.mem_cons_of_mem _ hmem, hover⟩
    · rw [herror]
      exact .inr ⟨rfl, row, List.mem_cons_self .., hover⟩

theorem mapM_tableTextMetrics (names : List String) :
    (∃ metrics, names.mapM tableTextMetrics = some metrics ∧
        metrics.map TableTextMetrics.characters = names.map fun name => (cellText name).length) ∨
      names.mapM tableTextMetrics = none ∧ ∃ name ∈ names, Oversized name := by
  induction names with
  | nil => exact .inl ⟨[], rfl, rfl⟩
  | cons name names ih =>
    rw [List.mapM_cons]
    by_cases hfits : (emit (cellText name)).length ≤ usizeMax
    · rw [tableTextMetrics_of_le hfits]
      obtain ⟨metrics, hmetrics, hchars⟩ | ⟨hnone, name', hmem, hover⟩ := ih
      · rw [hmetrics]
        exact .inl ⟨_, rfl, congrArg _ hchars⟩
      · rw [hnone]
        exact .inr ⟨rfl, name', List.mem_cons_of_mem _ hmem, hover⟩
    · rw [tableTextMetrics_of_lt (Nat.not_le.1 hfits)]
      exact .inr ⟨rfl, name, List.mem_cons_self .., Nat.not_le.1 hfits⟩

/-! ## The table -/

def tableHeader (result : QueryResult) : List String := result.columns.map ResultColumn.name

def tableRows (result : QueryResult) : List (List String) := result.rows.map fun row => row.map (tableValueText float)

/-- Every column is as wide as its widest cell. -/
def columnWidths (result : QueryResult) : List Nat :=
  (tableRows float result).foldl widenText ((tableHeader result).map fun name => (cellText name).length)

def tableLines (result : QueryResult) : List (List Char) :=
  let widths := columnWidths float result
  [borderLine widths, rowLine (tableHeader result) widths, borderLine widths] ++
    (tableRows float result).map (rowLine · widths) ++ [borderLine widths]

/-- The table: its lines, with line feeds between them. -/
def tableText (result : QueryResult) : List Char := join '\n' (tableLines float result)

/-- A row has a value for every column. -/
def NoShortRow (result : QueryResult) : Prop := ∀ row ∈ result.rows, result.columns.length ≤ row.length

variable {float} {result : QueryResult}

@[simp] theorem length_columnWidths : (columnWidths float result).length = result.columns.length := by
  simp [columnWidths, tableHeader]

theorem covers_header : Covers (columnWidths float result) (tableHeader result) := by
  refine Covers.foldl ?_ _
  induction tableHeader result with
  | nil => exact trivial
  | cons name names ih => exact ⟨Nat.le_refl _, ih⟩

theorem NoShortRow.covers (h : NoShortRow result) : ∀ row ∈ tableRows float result, Covers (columnWidths float result) row := by
  apply covers_foldl
  intro row hmem
  obtain ⟨values, hvalues, rfl⟩ := List.mem_map.1 hmem
  rw [List.length_map, List.length_map, tableHeader, List.length_map]
  exact h values hvalues

theorem NoShortRow.length_line (h : NoShortRow result) :
    ∀ line ∈ tableLines float result, line.length = (borderLine (columnWidths float result)).length := by
  intro line hmem
  rw [tableLines, List.mem_append, List.mem_append, List.mem_singleton] at hmem
  obtain (hmem | hmem) | rfl := hmem
  · rw [List.mem_cons, List.mem_cons, List.mem_singleton] at hmem
    obtain rfl | rfl | rfl := hmem
    · rfl
    · exact length_rowLine covers_header
    · rfl
  · obtain ⟨row, hrow, rfl⟩ := List.mem_map.1 hmem
    exact length_rowLine (h.covers row hrow)
  · rfl

theorem newline_notMem_tableLines : ∀ line ∈ tableLines float result, '\n' ∉ line := by
  intro line hmem
  rw [tableLines, List.mem_append, List.mem_append, List.mem_singleton] at hmem
  obtain (hmem | hmem) | rfl := hmem
  · rw [List.mem_cons, List.mem_cons, List.mem_singleton] at hmem
    obtain rfl | rfl | rfl := hmem
    · exact newline_notMem_borderLine _
    · exact newline_notMem_rowLine _ _
    · exact newline_notMem_borderLine _
  · obtain ⟨row, -, rfl⟩ := List.mem_map.1 hmem
    exact newline_notMem_rowLine _ _
  · exact newline_notMem_borderLine _

theorem join_concat {α : Type} (separator : α) (lines : List (List α)) (last : List α) :
    join separator (lines ++ [last]) = (lines.flatMap fun line => line ++ [separator]) ++ last := by
  induction lines with
  | nil => rfl
  | cons line lines ih =>
    rw [List.cons_append, join_cons _ _ (List.append_ne_nil_of_right_ne_nil _ (List.cons_ne_nil _ _)), ih,
      List.flatMap_cons]
    simp

theorem tableText_eq : tableText float result =
    borderLine (columnWidths float result) ++ ['\n'] ++ (rowLine (tableHeader result) (columnWidths float result) ++ ['\n']) ++
      borderLine (columnWidths float result) ++ ['\n'] ++
        ((tableRows float result).flatMap fun row => rowLine row (columnWidths float result) ++ ['\n']) ++
          borderLine (columnWidths float result) := by
  rw [tableText, tableLines, join_concat, List.flatMap_append, List.flatMap_map]
  simp

theorem length_emit_tableText : (emit (tableText float result)).length =
    2 + (emit (rowLine (tableHeader result) (columnWidths float result))).length + 1 +
      3 * (emit (borderLine (columnWidths float result))).length +
      ((tableRows float result).map fun row => (emit (rowLine row (columnWidths float result))).length + 1).sum := by
  have hnewline : ('\n').utf8Size = 1 := rfl
  rw [tableText_eq]
  simp only [length_emit_append, length_emit_flatMap, length_emit_singleton, hnewline]
  omega

theorem mapM_columns : (result.columns.mapM fun column => tableTextMetrics column.name) =
    (tableHeader result).mapM tableTextMetrics := by
  rw [tableHeader, List.mapM_map]
  rfl

theorem tableWidths_eq (h : NoShortRow result) : tableWidths float result = .ok (columnWidths float result) ∨
    tableWidths float result = .error () ∧ usizeMax < (emit (tableText float result)).length := by
  rw [tableWidths, mapM_columns]
  obtain ⟨metrics, hmetrics, hchars⟩ | ⟨hnone, name, hmem, hover⟩ := mapM_tableTextMetrics (tableHeader result)
  · rw [hmetrics, Exec.getOr_some, Exec.ok_bind, hchars]
    have hlength : ((tableHeader result).map fun name => (cellText name).length).length = result.columns.length := by
      simp [tableHeader]
    refine (foldlM_widenTable_eq float (hlength ▸ h)).imp_right fun ⟨herror, row, hrow, value, hvalue, hover⟩ => ⟨herror, ?_⟩
    rw [hlength, ← @length_columnWidths float] at hvalue
    have hline := hover.rowLine hvalue
    have hmem : row.map (tableValueText float) ∈ tableRows float result := List.mem_map_of_mem hrow
    have hle := List.le_sum_of_mem (List.mem_map_of_mem
      (f := fun row => (emit (rowLine row (columnWidths float result))).length + 1) hmem)
    rw [length_emit_tableText]
    omega
  · have htake : (tableHeader result).take (columnWidths float result).length = tableHeader result := by
      apply List.take_of_length_le
      simp [tableHeader]
    have hline := hover.rowLine (htake.symm ▸ hmem)
    rw [hnone]
    refine .inr ⟨rfl, ?_⟩
    rw [length_emit_tableText]
    omega

theorem tableRenderedBytes_eq (h : NoShortRow result) :
    tableRenderedBytes float result (columnWidths float result) = Checked.checked (emit (tableText float result)).length := by
  have hborder : ((columnWidths float result).foldlM (fun bytes width => (checkedAdd width 3).bind (checkedAdd bytes)) 1) =
      Checked.checked (emit (borderLine (columnWidths float result))).length := by
    rw [length_emit_borderLine]
    refine foldlM_checked (fun width _ n _ => ?_) (by decide)
    exact checked_bind (Nat.le_add_left ..) fun _ => rfl
  have hrows : ∀ bytes ≤ usizeMax, result.rows.foldlM (fun bytes row =>
      (tableRowBytes (row.map (tableValueText float)) (columnWidths float result)).bind (checkedAdd bytes)) bytes =
      Checked.checked (bytes +
        ((tableRows float result).map fun row => (emit (rowLine row (columnWidths float result))).length + 1).sum) := by
    intro bytes hbytes
    rw [tableRows, List.map_map]
    refine foldlM_checked (fun row hrow n _ => ?_) hbytes
    rw [tableRowBytes_eq (h.covers _ (List.mem_map_of_mem hrow))]
    exact checked_bind (Nat.le_add_left ..) fun _ => rfl
  rw [tableRenderedBytes, hborder, length_emit_tableText]
  refine checked_bind (by omega) fun _ => ?_
  rw [← tableHeader, tableRowBytes_eq covers_header]
  refine checked_bind (by omega) fun _ => checked_bind (by omega) fun _ => checked_bind (by omega) fun _ =>
    checked_bind (by omega) fun _ => checked_bind (by omega) fun hbytes => ?_
  rw [hrows _ hbytes]
  refine checked_bind (by omega) fun _ => ?_
  rw [checkedAdd_eq]
  exact congrArg Checked.checked (by omega)

/-- The computed size of a table is the size of its text, if that is one of the machine. -/
theorem tableOutputBytes_eq (h : NoShortRow result) (before behind : Nat) :
    tableOutputBytes float result before behind =
      getOr ((Checked.checked (before + (emit (tableText float result)).length + behind)).map fun bytes =>
        (columnWidths float result, bytes)) () := by
  obtain hok | ⟨herror, hover⟩ := @tableWidths_eq float _ h
  · rw [tableOutputBytes, hok, Exec.ok_bind, tableRenderedBytes_eq h]
    by_cases hfits : (emit (tableText float result)).length ≤ usizeMax
    · rw [checked_of_le hfits, Exec.getOr_some, Exec.ok_bind]
      have hsum : (checkedAdd before (emit (tableText float result)).length).bind (checkedAdd · behind) =
          Checked.checked (before + (emit (tableText float result)).length + behind) := checked_bind_add ..
      rw [hsum]
      cases Checked.checked (before + (emit (tableText float result)).length + behind) <;> rfl
    · rw [checked_of_lt (Nat.not_le.1 hfits), checked_of_lt (by omega)]
      rfl
  · rw [tableOutputBytes, herror, checked_of_lt (by omega)]
    rfl

theorem widenTable_short {widths : List Nat} {row : List Value} (h : row.length < widths.length) (widths' : List Nat) :
    widenTable float widths row ≠ .ok widths' := by
  induction widths generalizing row widths' with
  | nil => exact absurd h (Nat.not_lt_zero _)
  | cons width widths ih =>
    cases row with
    | nil =>
      intro hok
      cases hok
    | cons value row =>
      intro hok
      obtain ⟨metrics, -, hrest⟩ := Exec.bind_eq_ok.1 hok
      obtain ⟨widths'', hwidths, -⟩ := Exec.bind_eq_ok.1 hrest
      exact ih (Nat.lt_of_succ_lt_succ h) widths'' hwidths

theorem length_of_widenTable {widths widths' : List Nat} {row : List Value} (h : widenTable float widths row = .ok widths') :
    widths'.length = widths.length := by
  by_cases hshort : row.length < widths.length
  · exact absurd h (widenTable_short hshort widths')
  · obtain hok | ⟨herror, -⟩ := widenTable_eq float (Nat.not_lt.1 hshort)
    · rw [← Exec.ok.inj (hok.symm.trans h), length_widenText]
    · cases herror.symm.trans h

theorem tableOutputBytes_short (h : ¬ NoShortRow result) (before behind : Nat) (outcome : List Nat × Nat) :
    tableOutputBytes float result before behind ≠ .ok outcome := by
  intro hok
  obtain ⟨widths, hwidths, -⟩ := Exec.bind_eq_ok.1 hok
  obtain ⟨metrics, hmetrics, hrows⟩ := Exec.bind_eq_ok.1 hwidths
  apply h
  have hlength : (metrics.map TableTextMetrics.characters).length = result.columns.length := by
    rw [mapM_columns, Exec.getOr_eq_ok] at hmetrics
    obtain ⟨metrics', hmetrics', hchars⟩ | ⟨hnone, -⟩ := mapM_tableTextMetrics (tableHeader result)
    · rw [← Option.some.inj (hmetrics'.symm.trans hmetrics), hchars, List.length_map, tableHeader, List.length_map]
    · cases hnone.symm.trans hmetrics
  rw [NoShortRow, ← hlength]
  generalize metrics.map TableTextMetrics.characters = start at hrows ⊢
  clear hok hwidths hmetrics hlength h
  revert hrows
  generalize result.rows = rows
  intro hrows
  induction rows generalizing start with
  | nil => exact List.forall_mem_nil _
  | cons row rows ih =>
    rw [List.foldlM_cons] at hrows
    obtain ⟨next, hnext, hrest⟩ := Exec.bind_eq_ok.1 hrows
    have hrow : start.length ≤ row.length := by
      by_contra hshort
      exact widenTable_short (Nat.not_le.1 hshort) next hnext
    exact List.forall_mem_cons.2 ⟨hrow, length_of_widenTable hnext ▸ ih next hrest⟩

end

/-! ## Writing tables -/

section
variable {σ ε : Type} (sink : Sink σ ε)

theorem call_ok_bind {α β : Type} (a : α) (f : α → Method σ ε β) : (Method.call (.ok a) >>= f) = f a := rfl

theorem writeRepeated_writes (byte : Char) (count : Nat) :
    sink.Writes (writeRepeated sink byte count) (emit (List.replicate count byte)) := by
  induction count using Nat.strong_induction_on with
  | h count ih =>
    rw [writeRepeated]
    by_cases hchunk : tableChunk ≤ count
    · rw [if_pos hchunk]
      have hless : count - tableChunk < count := Nat.sub_lt (Nat.lt_of_lt_of_le (by decide) hchunk) (by decide)
      refine ((Sink.Writes.chunk _).bind (ih _ hless)).congr ?_
      rw [← emit_append, List.replicate_append_replicate, Nat.add_sub_cancel' hchunk]
    · rw [if_neg hchunk]
      exact .chunk _

theorem writeTableBorder_writes (widths : List Nat) :
    sink.Writes (writeTableBorder sink widths) (emit (borderLine widths)) := by
  have hloop : sink.Writes (widths.forM fun width => do
      writeRepeated sink '-' (width + 2)
      sink.writeAll (emit ['+'])) (widths.flatMap fun width => emit (List.replicate (width + 2) '-' ++ ['+'])) := by
    apply Sink.Writes.forM
    intro width _
    rw [emit_append]
    exact (writeRepeated_writes sink '-' _).bind (.chunk _)
  refine ((Sink.Writes.chunk _).bind hloop).congr ?_
  rw [borderLine, ← emit_flatMap]
  exact (emit_cons '+' _).symm

theorem writeTableCell_writes {cell : String × Nat} (hwidth : (cellText cell.1).length ≤ cell.2)
    (hbytes : (emit (cellText cell.1)).length ≤ usizeMax) (hpadding : cell.2 - (cellText cell.1).length + 1 ≤ usizeMax) :
    sink.Writes (writeTableCell sink cell) (emit (cellWithPadding cell)) := by
  have hsub : (checkedSub cell.2 (cellText cell.1).length).bind (checkedAdd · 1) =
      some (cell.2 - (cellText cell.1).length + 1) := by
    rw [checkedSub, if_pos hwidth]
    exact checked_of_le hpadding
  have hrest : sink.Writes (do
      sink.writeAll (emit [' '])
      writeEscapedTableText sink cell.1
      writeRepeated sink ' ' (cell.2 - (cellText cell.1).length + 1)
      sink.writeAll (emit ['|'])) (emit (cellWithPadding cell)) := by
    refine ((Sink.Writes.chunk _).bind ((writeEscaped_writes sink tableEscape [] _).bind
      ((writeRepeated_writes sink ' ' _).bind (.chunk _)))).congr ?_
    rw [cellWithPadding, ← emit_append, ← emit_append, ← emit_append]
    exact congrArg emit (by simp [cellText])
  rw [writeTableCell, tableTextMetrics_of_le hbytes, Exec.orPanic_some, call_ok_bind, hsub]
  exact hrest

theorem writeTableCells_writes {values : List String} {widths : List Nat} (hcovers : Covers widths values)
    (hfits : (emit (rowLine values widths)).length ≤ usizeMax) :
    sink.Writes (writeTableCells sink values widths) (emit (rowLine values widths ++ ['\n'])) := by
  have hloop : sink.Writes ((values.zip widths).forM (writeTableCell sink))
      ((values.zip widths).flatMap fun cell => emit (cellWithPadding cell)) := by
    apply Sink.Writes.forM
    intro cell hmem
    have hle := List.le_sum_of_mem (List.mem_map_of_mem (f := fun cell => (emit (cellWithPadding cell)).length) hmem)
    rw [length_emit_rowLine] at hfits
    simp only [length_emit_cellWithPadding] at hle hfits
    exact writeTableCell_writes sink (hcovers.cells cell hmem) (by omega) (by omega)
  refine ((Sink.Writes.chunk _).bind (hloop.bind (.chunk _))).congr ?_
  rw [rowLine, List.cons_append, ← emit_flatMap, ← emit_append]
  exact (emit_cons '|' _).symm

variable {float : FloatText} {result : QueryResult}

theorem writeTable_writes (h : NoShortRow result) (hfits : (emit (tableText float result)).length ≤ usizeMax)
    (before behind : Bytes) : sink.Writes (do
      sink.writeAll before
      writeTableBorder sink (columnWidths float result)
      sink.writeAll (emit ['\n'])
      writeTableHeader sink result (columnWidths float result)
      writeTableBorder sink (columnWidths float result)
      sink.writeAll (emit ['\n'])
      result.rows.forM fun row => writeTableValues sink float row (columnWidths float result)
      writeTableBorder sink (columnWidths float result)
      sink.writeAll behind) (before ++ emit (tableText float result) ++ behind) := by
  rw [length_emit_tableText] at hfits
  have hheader : sink.Writes (writeTableHeader sink result (columnWidths float result))
      (emit (rowLine (tableHeader result) (columnWidths float result) ++ ['\n'])) := by
    have hline : (emit (rowLine (tableHeader result) (columnWidths float result))).length ≤ usizeMax := by omega
    exact writeTableCells_writes sink covers_header hline
  have hrows : sink.Writes (result.rows.forM fun row => writeTableValues sink float row (columnWidths float result))
      (result.rows.flatMap fun row =>
        emit (rowLine (row.map (tableValueText float)) (columnWidths float result) ++ ['\n'])) := by
    apply Sink.Writes.forM
    intro row hmem
    have hrow : row.map (tableValueText float) ∈ tableRows float result := List.mem_map_of_mem hmem
    have hle := List.le_sum_of_mem (List.mem_map_of_mem
      (f := fun row => (emit (rowLine row (columnWidths float result))).length + 1) hrow)
    have hline : (emit (rowLine (row.map (tableValueText float)) (columnWidths float result))).length ≤ usizeMax := by
      omega
    exact writeTableCells_writes sink (h.covers _ hrow) hline
  have hborder := writeTableBorder_writes sink (columnWidths float result)
  refine ((Sink.Writes.chunk before).bind (hborder.bind ((Sink.Writes.chunk _).bind (hheader.bind (hborder.bind
    ((Sink.Writes.chunk _).bind (hrows.bind (hborder.bind (.chunk behind))))))))).congr ?_
  rw [tableText_eq, tableRows, List.flatMap_map]
  simp only [emit_append, emit_flatMap, List.append_assoc]

end

end RustHouse.Batch
