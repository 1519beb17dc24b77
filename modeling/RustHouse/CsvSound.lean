import Mathlib.Data.List.TakeWhile
import RustHouse.Csv
import RustHouse.IngestSound

/-!
# What is written as CSV is ingested

`ingestCsv_writeCsv`: a record ends at the line ending that the writer put
behind it, since a line ending within a value is quoted. A carriage return
within quotes has to be the first half of a line ending, in what is written as
in what is read; any other one is refused.
-/

namespace RustHouse.Batch

open Checked Delimited Exec Words Method

def ReturnsEndLines (text : List Char) : Prop := ∀ i : Nat, text[i]? = some '\r' → text[i + 1]? = some '\n'

theorem returnsEndLines_nil : ReturnsEndLines [] := fun _ hi => by cases hi

theorem returnsEndLines_cons {c : Char} (hc : c ≠ '\r') {text : List Char} :
    ReturnsEndLines (c :: text) ↔ ReturnsEndLines text := by
  refine ⟨fun h i hi => h (i + 1) hi, fun h i hi => ?_⟩
  cases i with
  | zero => exact absurd (Option.some.inj hi) hc
  | succ i => exact h i hi

theorem returnsEndLines_pair {text : List Char} : ReturnsEndLines ('\r' :: '\n' :: text) ↔ ReturnsEndLines text := by
  refine ⟨fun h i hi => h (i + 2) hi, fun h i hi => ?_⟩
  cases i with
  | zero => rfl
  | succ i => exact (returnsEndLines_cons (by decide)).2 h i hi

theorem not_returnsEndLines {text : List Char} (h : text.head? ≠ some '\n') : ¬ ReturnsEndLines ('\r' :: text) :=
  fun hends => h (List.head?_eq_getElem? ▸ hends 0 rfl)

namespace Csv

/-! ## Quoting -/

def double (text : List Char) : List Char := text.flatMap fun c => if c = '"' then ['"', '"'] else [c]

theorem double_cons_quote (text : List Char) : double ('"' :: text) = '"' :: '"' :: double text := rfl

theorem double_cons {c : Char} (h : c ≠ '"') (text : List Char) : double (c :: text) = c :: double text := by
  rw [double, List.flatMap_cons, if_neg h]
  rfl

/-- **Doubled quotes are undone.** -/
theorem undouble_double (text : List Char) : undouble (double text) = text := by
  induction text with
  | nil => rfl
  | cons c text ih =>
    by_cases hc : c = '"'
    · subst hc
      rw [double_cons_quote, undouble, if_pos ⟨rfl, rfl⟩, ih]
    · rw [double_cons hc]
      cases hrest : double text with
      | nil =>
        rw [hrest] at ih
        rw [undouble, ← ih]
        rfl
      | cons d rest => rw [undouble, if_neg fun h => hc h.1, ← hrest, ih]

/-- What a field may be: unquoted without a special character, or the doubled contents of quotes. -/
inductive Scannable : List Char × Bool → Prop where
  | plain {text : List Char} (h : ∀ c ∈ text, c ≠ ',' ∧ c ≠ '"' ∧ c ≠ '\n' ∧ c ≠ '\r') : Scannable (text, false)
  | quoted (text : List Char) : Scannable (double text, true)

theorem Scannable.of_plain {text : List Char} (h : Scannable (text, false)) :
    ∀ c ∈ text, c ≠ ',' ∧ c ≠ '"' ∧ c ≠ '\n' ∧ c ≠ '\r' := by
  generalize hfield : (text, false) = field at h
  cases h with
  | plain h =>
    obtain ⟨rfl, _⟩ := Prod.mk.inj hfield
    exact h
  | quoted => cases (Prod.mk.inj hfield).2

/-- How a field stands in its record. -/
def fieldText : List Char × Bool → List Char
  | (text, false) => text
  | (text, true) => '"' :: text ++ ['"']

/-! ## Fields -/

theorem scanQuoted_double (text : List Char) {rest : List Char} (h : rest.head? ≠ some '"') :
    scanQuoted (double text ++ '"' :: rest) = some (double text, rest) := by
  induction text with
  | nil =>
    cases rest with
    | nil => rfl
    | cons d rest =>
      have hd : d ≠ '"' := fun heq => h (heq ▸ rfl)
      show scanQuoted ('"' :: d :: rest) = _
      rw [scanQuoted, if_pos rfl, if_neg hd]
      rfl
  | cons c text ih =>
    by_cases hc : c = '"'
    · subst hc
      rw [double_cons_quote, List.cons_append, List.cons_append, scanQuoted, if_pos rfl, if_pos rfl, ih]
      rfl
    · rw [double_cons hc, List.cons_append]
      cases hrest : double text ++ '"' :: rest with
      | nil => exact absurd hrest (List.append_ne_nil_of_right_ne_nil _ (List.cons_ne_nil _ _))
      | cons d tail =>
        rw [scanQuoted, if_neg hc, ← hrest, ih]
        rfl

theorem comma_head (rest : List Char) : (',' :: rest).head? ≠ some '"' := fun heq => absurd (Option.some.inj heq) (by decide)

theorem scanRecord_quoted {line column : Nat} {input contents rest : List Char}
    (h : scanQuoted input = some (contents, rest)) :
    (rest = [] → scanRecord line column ('"' :: input) = .ok [(contents, true)]) ∧
      ∀ next, rest = ',' :: next → scanRecord line column ('"' :: input) =
        scanRecord line (saturatingAdd column 1) next >>= fun fields => .ok ((contents, true) :: fields) := by
  rw [scanRecord, List.head?_cons, if_pos rfl]
  simp only [List.tail_cons]
  split
  · rename_i hnone
    rw [h] at hnone
    cases hnone
  · rename_i contents' rest' hsome
    obtain ⟨rfl, rfl⟩ := Prod.mk.inj (Option.some.inj (h.symm.trans hsome))
    refine ⟨fun hrest => ?_, fun next hrest => ?_⟩
    · subst hrest
      rfl
    · subst hrest
      exact if_neg (not_not.2 rfl)

theorem scanRecord_unquoted {line column : Nat} {text : List Char} (h : ∀ c ∈ text, c ≠ ',' ∧ c ≠ '"') :
    scanRecord line column text = .ok [(text, false)] ∧
      ∀ next, scanRecord line column (text ++ ',' :: next) =
        scanRecord line (saturatingAdd column 1) next >>= fun fields => .ok ((text, false) :: fields) := by
  have hcomma : ∀ c ∈ text, decide (c ≠ ',') = true := fun c hc => decide_eq_true (h c hc).1
  have hquote : '"' ∉ text := fun hmem => (h _ hmem).2 rfl
  refine ⟨?_, fun next => ?_⟩
  · have htake := List.takeWhile_eq_self_iff.2 hcomma
    have hdrop := List.dropWhile_eq_nil_iff.2 hcomma
    rw [scanRecord, if_neg fun hhead => hquote (List.mem_of_head? hhead)]
    simp only [htake, if_neg hquote]
    split
    · rfl
    · rename_i hrest
      rw [hdrop] at hrest
      cases hrest
  · have htake : (text ++ ',' :: next).takeWhile (fun c => decide (c ≠ ',')) = text := by
      rw [List.takeWhile_append_of_pos hcomma, List.takeWhile_cons_of_neg (by decide), List.append_nil]
    have hdrop : (text ++ ',' :: next).dropWhile (fun c => decide (c ≠ ',')) = ',' :: next := by
      rw [List.dropWhile_append_of_pos hcomma, List.dropWhile_cons_of_neg (by decide)]
    have hhead : (text ++ ',' :: next).head? ≠ some '"' := by
      cases text with
      | nil => exact comma_head next
      | cons c text => exact fun heq => hquote (Option.some.inj heq ▸ List.mem_cons_self ..)
    rw [scanRecord, if_neg hhead]
    simp only [htake, if_neg hquote]
    split
    · rename_i hrest
      rw [hdrop] at hrest
      cases hrest
    · rename_i hrest
      rw [hdrop] at hrest
      obtain ⟨_, rfl⟩ := List.cons.inj hrest
      rfl

/-- **The fields of a record** are found again. -/
theorem scanRecord_join {fields : List (List Char × Bool)} (h : ∀ field ∈ fields, Scannable field) (hne : fields ≠ [])
    (line column : Nat) : scanRecord line column (join ',' (fields.map fieldText)) = .ok fields := by
  induction fields generalizing column with
  | nil => exact absurd rfl hne
  | cons field fields ih =>
    obtain ⟨hfield, hfields⟩ := List.forall_mem_cons.1 h
    cases fields with
    | nil =>
      show scanRecord line column (fieldText field) = .ok [field]
      cases hfield with
      | plain htext => exact (scanRecord_unquoted fun c hc => ⟨(htext c hc).1, (htext c hc).2.1⟩).1
      | quoted text => exact (scanRecord_quoted (scanQuoted_double text (by exact nofun : [].head? ≠ some '"'))).1 rfl
    | cons next fields =>
      have hrest := ih hfields (List.cons_ne_nil _ _) (saturatingAdd column 1)
      rw [List.map_cons, join_cons _ _ (by exact List.cons_ne_nil _ _)]
      cases hfield with
      | plain htext =>
        rw [fieldText, (scanRecord_unquoted fun c hc => ⟨(htext c hc).1, (htext c hc).2.1⟩).2, hrest, Exec.ok_bind]
      | quoted text =>
        rw [fieldText, List.cons_append, List.cons_append, List.append_assoc, List.singleton_append,
          (scanRecord_quoted (scanQuoted_double text (comma_head _))).2 _ rfl, hrest, Exec.ok_bind]

/-! ## Records -/

def Record.append (text : List Char) (r : Record) : Record := { r with record := text ++ r.record }

theorem Record.cons_append (c : Char) (text : List Char) (r : Record) : (r.append text).cons c = r.append (c :: text) := rfl

theorem nextRecord_plain {text : List Char} (h : ∀ c ∈ text, c ≠ ',' ∧ c ≠ '"' ∧ c ≠ '\n' ∧ c ≠ '\r') (line : Nat)
    (start : Bool) {d : Char} (rest : List Char) :
    nextRecord line start false (text ++ d :: rest) =
      nextRecord line (start && text = []) false (d :: rest) >>= fun r => .ok (r.append text) := by
  induction text generalizing start with
  | nil =>
    rw [List.nil_append, decide_eq_true rfl, Bool.and_true]
    cases nextRecord line start false (d :: rest) <;> rfl
  | cons c text ih =>
    obtain ⟨⟨hcomma, hquote, hfeed, hreturn⟩, htext⟩ := List.forall_mem_cons.1 h
    cases hrest : text ++ d :: rest with
    | nil => exact absurd hrest (List.append_ne_nil_of_right_ne_nil _ (List.cons_ne_nil _ _))
    | cons e tail =>
      rw [List.cons_append, hrest, nextRecord, if_neg hreturn, if_neg hfeed, if_neg fun h => hquote h.1,
        if_neg fun h => hquote h.1, if_neg fun h => hquote h.1, if_neg fun h => hcomma h.1, ← hrest, ih htext]
      rw [Bool.and_false, Bool.false_and, decide_eq_false (List.cons_ne_nil _ _), Bool.and_false]
      cases nextRecord line false false (d :: rest) <;> rfl

/-- Within quotes, anything but a quote and a carriage return is data. -/
theorem nextRecord_data {c : Char} (hquote : c ≠ '"') (hreturn : c ≠ '\r') (line : Nat) (d : Char) (rest : List Char) :
    ∃ line', nextRecord line false true (c :: d :: rest) =
      nextRecord line' false true (d :: rest) >>= fun r => .ok (r.cons c) := by
  rw [nextRecord, if_neg hreturn]
  by_cases hfeed : c = '\n'
  · exact ⟨saturatingAdd line 1, by rw [if_pos hfeed, if_pos rfl]⟩
  · refine ⟨line, ?_⟩
    rw [if_neg hfeed, if_neg fun h => hquote h.1, if_neg fun h => hquote h.1, if_neg fun h => hquote h.1,
      if_neg fun h => h.2 rfl]
    rfl

/-- A carriage return that is not followed by a line feed is refused wherever it stands. -/
theorem nextRecord_return {rest : List Char} (h : rest.head? ≠ some '\n') (line : Nat) (start inQuotes : Bool) :
    nextRecord line start inQuotes ('\r' :: rest) = .error (.invalidLineEnding line) := by
  cases rest with
  | nil => rw [nextRecord, if_pos rfl]
  | cons d rest => rw [nextRecord, if_pos rfl, if_pos fun heq : d = '\n' => h (heq ▸ rfl)]

theorem bind_append (x : Exec CsvIngestError Record) (first second : List Char) :
    ((x >>= fun r => .ok (r.append second)) >>= fun r => .ok (r.append first)) =
      x >>= fun r => .ok (r.append (first ++ second)) := by
  cases x with
  | ok r => exact congrArg Exec.ok (congrArg (fun text => { r with record := text }) (List.append_assoc ..).symm)
  | error e => rfl
  | panic => rfl

theorem double_head {text : List Char} (h : text.head? ≠ some '\n') (rest : List Char) :
    (double text ++ '"' :: rest).head? ≠ some '\n' := by
  cases text with
  | nil => exact fun heq => absurd (Option.some.inj heq) (by decide)
  | cons c text =>
    by_cases hc : c = '"'
    · subst hc
      exact fun heq => absurd (Option.some.inj heq) (by decide)
    · rw [double_cons hc]
      exact h

/-- What becomes of a text within quotes: it is part of the record up to the closing quote if its carriage returns
end lines, and is refused otherwise. -/
def TakesText (behind : Nat → Exec CsvIngestError Record) (text : List Char) (x : Exec CsvIngestError Record) : Prop :=
  (ReturnsEndLines text → ∃ line, x = behind line >>= fun r => .ok (r.append (double text ++ ['"']))) ∧
    (¬ ReturnsEndLines text → ∃ line, x = .error (.invalidLineEnding line))

theorem TakesText.append {behind : Nat → Exec CsvIngestError Record} (first : List Char) {text : List Char}
    {x : Exec CsvIngestError Record} (h : TakesText behind text x)
    (hends : ReturnsEndLines (first ++ text) ↔ ReturnsEndLines text) :
    TakesText behind (first ++ text) (x >>= fun r => .ok (r.append (double first))) := by
  have hdouble : double (first ++ text) = double first ++ double text := List.flatMap_append
  refine ⟨fun hpaired => ?_, fun hbare => ?_⟩
  · obtain ⟨line, rfl⟩ := h.1 (hends.1 hpaired)
    exact ⟨line, by rw [bind_append, hdouble, List.append_assoc]⟩
  · obtain ⟨line, rfl⟩ := h.2 fun hpaired => hbare (hends.2 hpaired)
    exact ⟨line, rfl⟩

theorem nextRecord_double (text : List Char) (line : Nat) {d : Char} (hd : d ≠ '"') (rest : List Char) :
    TakesText (fun line' => nextRecord line' false false (d :: rest)) text
      (nextRecord line false true (double text ++ '"' :: d :: rest)) := by
  induction hlength : text.length using Nat.strong_induction_on generalizing text line with
  | _ n ih =>
    subst hlength
    cases text with
    | nil =>
      refine ⟨fun _ => ⟨line, ?_⟩, fun h => absurd returnsEndLines_nil h⟩
      show nextRecord line false true ('"' :: d :: rest) = _
      rw [nextRecord, if_neg (by decide), if_neg (by decide), if_neg fun h => hd h.2.2, if_pos ⟨rfl, rfl⟩]
      rfl
    | cons c text =>
      by_cases hreturn : c = '\r'
      · subst hreturn
        rw [double_cons (by decide), List.cons_append]
        by_cases hfeed : text.head? = some '\n'
        · -- The two halves of a line ending are taken at once.
          cases text with
          | nil => cases hfeed
          | cons e text =>
            obtain rfl := Option.some.inj hfeed
            have hlt : text.length < ('\r' :: '\n' :: text).length := by simp only [List.length_cons]; omega
            rw [double_cons (by decide), List.cons_append, nextRecord, if_pos rfl, if_neg (not_not.2 rfl), if_pos rfl]
            exact (ih _ hlt text (saturatingAdd line 1) rfl).append ['\r', '\n'] returnsEndLines_pair
        · refine ⟨fun h => absurd h (not_returnsEndLines hfeed), fun _ => ⟨line, ?_⟩⟩
          exact nextRecord_return (double_head hfeed _) line false true
      · have hends := @returnsEndLines_cons c hreturn text
        have hlt : text.length < (c :: text).length := Nat.lt_succ_self _
        by_cases hquote : c = '"'
        · subst hquote
          rw [double_cons_quote, List.cons_append, List.cons_append, nextRecord, if_neg (by decide), if_neg (by decide),
            if_pos ⟨rfl, rfl, rfl⟩]
          exact (ih _ hlt text line rfl).append ['"'] hends
        · rw [double_cons hquote, List.cons_append]
          cases htail : double text ++ '"' :: d :: rest with
          | nil => exact absurd htail (List.append_ne_nil_of_right_ne_nil _ (List.cons_ne_nil _ _))
          | cons e tail =>
            obtain ⟨line', hline'⟩ := nextRecord_data hquote hreturn line e tail
            have hfirst : double [c] = [c] := double_cons hquote []
            have happend := (ih _ hlt text line' rfl).append [c] hends
            rw [hfirst, htail] at happend
            rw [hline']
            exact happend

/-- The contents of the field for a text, and whether it is quoted. -/
def csvField (value : String) : List Char × Bool :=
  if value.toList.any fun c => c = ',' || c = '"' || c = '\n' || c = '\r' then (double value.toList, true)
  else (value.toList, false)

theorem writeCsvField_eq (value : String) : writeCsvField value = fieldText (csvField value) := by
  by_cases h : value.toList.any fun c => c = ',' || c = '"' || c = '\n' || c = '\r'
  · rw [writeCsvField, csvField, if_neg (not_not.2 h), if_pos h]
    rfl
  · rw [writeCsvField, csvField, if_pos h, if_neg h]
    rfl

theorem csvField_scannable (value : String) : Scannable (csvField value) := by
  unfold csvField
  split
  · exact .quoted _
  · rename_i h
    refine .plain fun c hc => ?_
    have hspecial := Bool.eq_false_iff.2 fun hc' => h (List.any_eq_true.2 ⟨c, hc, hc'⟩)
    simpa only [Bool.or_eq_false_iff, decide_eq_false_iff_not, and_assoc] using hspecial

theorem scanRecord_writeCsvField {values : List String} (hne : values ≠ []) (line column : Nat) :
    scanRecord line column (join ',' (values.map writeCsvField)) = .ok (values.map csvField) := by
  have htexts : values.map writeCsvField = (values.map csvField).map fieldText := by
    rw [List.map_map]
    exact List.map_congr_left fun value _ => writeCsvField_eq value
  rw [htexts]
  refine scanRecord_join (fun field hfield => ?_) (fun hnil => hne (List.map_eq_nil_iff.1 hnil)) line column
  obtain ⟨value, _, rfl⟩ := List.mem_map.1 hfield
  exact csvField_scannable value

theorem returnsEndLines_of_notMem {text : List Char} (h : '\r' ∉ text) : ReturnsEndLines text :=
  fun _ hi => absurd (List.mem_of_getElem? hi) h

theorem nextRecord_field (value : String) (line : Nat) {d : Char} (hd : d ≠ '"') (rest : List Char) :
    (ReturnsEndLines value.toList → ∃ line' start, nextRecord line true false (writeCsvField value ++ d :: rest) =
        nextRecord line' start false (d :: rest) >>= fun r => .ok (r.append (writeCsvField value))) ∧
      (¬ ReturnsEndLines value.toList → ∃ line', nextRecord line true false (writeCsvField value ++ d :: rest) =
        .error (.invalidLineEnding line')) := by
  rw [writeCsvField_eq]
  have hscannable := csvField_scannable value
  unfold csvField at hscannable ⊢
  split
  · have hquoted := nextRecord_double value.toList line hd rest
    have hopen : nextRecord line true false ('"' :: (double value.toList ++ '"' :: d :: rest)) =
        nextRecord line false true (double value.toList ++ '"' :: d :: rest) >>= fun r => .ok (r.cons '"') := by
      cases htail : double value.toList ++ '"' :: d :: rest with
      | nil => exact absurd htail (List.append_ne_nil_of_right_ne_nil _ (List.cons_ne_nil _ _))
      | cons e tail =>
        rw [nextRecord, if_neg (by decide), if_neg (by decide), if_neg fun h => Bool.false_ne_true h.2.1,
          if_neg fun h => Bool.false_ne_true h.2, if_pos ⟨rfl, rfl⟩]
    rw [fieldText, List.cons_append, List.cons_append, List.append_assoc, List.singleton_append, hopen]
    refine ⟨fun h => ?_, fun h => ?_⟩
    · obtain ⟨line', hline'⟩ := hquoted.1 h
      exact ⟨line', false, by rw [hline']; exact bind_append _ ['"'] _⟩
    · obtain ⟨line', hline'⟩ := hquoted.2 h
      exact ⟨line', by rw [hline']; rfl⟩
  · rename_i h
    rw [if_neg h] at hscannable
    have hplain := hscannable.of_plain
    have hreturn : '\r' ∉ value.toList := fun hmem => (hplain _ hmem).2.2.2 rfl
    refine ⟨fun _ => ⟨line, _, nextRecord_plain hplain line true rest⟩, fun h => ?_⟩
    exact absurd (returnsEndLines_of_notMem hreturn) h

theorem nextRecord_feed (line : Nat) (start : Bool) (rest : List Char) :
    nextRecord line start false ('\n' :: rest) = .ok ⟨[], rest, saturatingAdd line 1⟩ := by
  cases rest <;> rfl

/-- **The next record** is the one that was written, unless a carriage return in it does not end a line. -/
theorem nextRecord_join {values : List String} (hne : values ≠ []) (line : Nat) (rest : List Char) :
    ((∀ value ∈ values, ReturnsEndLines value.toList) → ∃ line',
        nextRecord line true false (join ',' (values.map writeCsvField) ++ '\n' :: rest) =
          .ok ⟨join ',' (values.map writeCsvField), rest, line'⟩) ∧
      ((∃ value ∈ values, ¬ ReturnsEndLines value.toList) → ∃ line',
        nextRecord line true false (join ',' (values.map writeCsvField) ++ '\n' :: rest) =
          .error (.invalidLineEnding line')) := by
  induction values generalizing line with
  | nil => exact absurd rfl hne
  | cons value values ih =>
    cases values with
    | nil =>
      have hfield := nextRecord_field value line (d := '\n') (by decide) rest
      refine ⟨fun h => ?_, fun ⟨value', hvalue', h⟩ => ?_⟩
      · obtain ⟨line', start, heq⟩ := hfield.1 (h value (List.mem_singleton.2 rfl))
        refine ⟨saturatingAdd line' 1, ?_⟩
        show nextRecord line true false (writeCsvField value ++ '\n' :: rest) = _
        rw [heq, nextRecord_feed, Exec.ok_bind, Record.append, List.append_nil]
        rfl
      · obtain rfl := List.mem_singleton.1 hvalue'
        exact hfield.2 h
    | cons next values =>
      have hne' : (next :: values).map writeCsvField ≠ [] := List.cons_ne_nil _ _
      rw [List.map_cons, join_cons _ _ hne', List.append_assoc, List.cons_append]
      have hfield := nextRecord_field value line (d := ',') (by decide)
        (join ',' ((next :: values).map writeCsvField) ++ '\n' :: rest)
      have hcomma : ∀ line start, nextRecord line start false
          (',' :: (join ',' ((next :: values).map writeCsvField) ++ '\n' :: rest)) =
            nextRecord line true false (join ',' ((next :: values).map writeCsvField) ++ '\n' :: rest) >>=
              fun r => .ok (r.cons ',') := by
        intro line start
        cases htail : join ',' ((next :: values).map writeCsvField) ++ '\n' :: rest with
        | nil => exact absurd htail (List.append_ne_nil_of_right_ne_nil _ (List.cons_ne_nil _ _))
        | cons e tail =>
          rw [nextRecord, if_neg (by decide), if_neg (by decide), if_neg fun h => Bool.false_ne_true h.2.1,
            if_neg fun h => Bool.false_ne_true h.2, if_neg fun h => absurd h.1 (by decide), if_pos ⟨rfl, Bool.false_ne_true⟩]
      by_cases hvalue : ReturnsEndLines value.toList
      · obtain ⟨line₁, start, heq⟩ := hfield.1 hvalue
        have hih := ih (List.cons_ne_nil _ _) line₁
        rw [heq, hcomma]
        refine ⟨fun h => ?_, fun ⟨value', hvalue', h⟩ => ?_⟩
        · obtain ⟨line', hline'⟩ := hih.1 fun value' hvalue' => h value' (List.mem_cons_of_mem _ hvalue')
          exact ⟨line', by rw [hline']; rfl⟩
        · obtain rfl | hvalue' := List.mem_cons.1 hvalue'
          · exact absurd hvalue h
          · obtain ⟨line', hline'⟩ := hih.2 ⟨value', hvalue', h⟩
            exact ⟨line', by rw [hline']; rfl⟩
      · exact ⟨fun h => absurd (h value (List.mem_cons_self ..)) hvalue, fun _ => hfield.2 hvalue⟩

section
variable {float : FloatText} {declared : List Declared} {t : Table}

/-! ## Values -/

theorem writeCsvValue_eq (value : Value) :
    writeCsvValue float value = fieldText (csvField (value.asDisplayString float)) := by
  rw [← writeCsvField_eq]
  cases value with
  | null => exact (by decide : "NULL".toList = writeCsvField "NULL")
  | _ => rfl

theorem int64_of_nullable (h : Table.Consistent declared t) {i : Nat} {d : Declared} (hd : declared[i]? = some d)
    (hnullable : d.2 = true) : d.1.dataType = .int64 := by
  obtain ⟨physical, _, hkind, _⟩ := h.column_of_declared hd
  have hphysical : physical.isNullableInt64 = true := (congrArg Prod.snd hkind).trans hnullable
  rw [← show physical.dataType = d.1.dataType from congrArg Prod.fst hkind]
  cases physical <;> first | rfl | cases hphysical

theorem parseField_text (h : Table.Consistent declared t) {i line column : Nat} {d : Declared} {value : Value}
    {text : String} (hd : declared[i]? = some d) (hmarker : text = "NULL" → d.2 = false)
    (hparse : parseScalar float text.toList d.1.dataType = some value) :
    parseField float t line i (csvField text) column = .ok value := by
  have hdefinition : t.schema[i]? = some d.1 := by rw [h.schema_getElem?, hd]; rfl
  unfold csvField
  split
  · rw [parseField, hdefinition, orPanic_some, Exec.ok_bind]
    rw [marksNull_declared h hd, Bool.not_true, Bool.false_and, Bool.false_and, Exec.ok_bind, if_neg Bool.false_ne_true,
      if_pos rfl, undouble_double, parseValue, hparse, getOr_some]
  · have hnull : (decide (text.toList = "NULL".toList) && d.2) = false := by
      by_cases heq : text.toList = "NULL".toList
      · rw [hmarker (String.toList_inj.1 heq), Bool.and_false]
      · rw [decide_eq_false heq, Bool.false_and]
    rw [parseField, hdefinition, orPanic_some, Exec.ok_bind]
    rw [marksNull_declared h hd, Bool.not_false, Bool.true_and, hnull, Exec.ok_bind, if_neg Bool.false_ne_true,
      if_neg Bool.false_ne_true, parseValue, hparse, getOr_some]

/-- **A field is read back** as the value that was written. -/
theorem parseField_csvField (h : Table.Consistent declared t) {i line column : Nat} {d : Declared} {value : Value}
    (hd : declared[i]? = some d) (hadmits : Column.Admits d.kind value)
    (hreads : (∀ dataType, value ≠ .null dataType) → (∀ s, value ≠ .string s) → ReadsBack float value) :
    parseField float t line i (csvField (value.asDisplayString float)) column = .ok value := by
  have hscalar (hscalar : ReadsBack float value) (htype : value.dataType = d.1.dataType) :
      parseField float t line i (csvField (value.asDisplayString float)) column = .ok value := by
    have hparse := (parseScalar_display hscalar).1
    rw [htype] at hparse
    refine parseField_text h hd (fun hmarker => Bool.eq_false_iff.2 fun hnullable => ?_) hparse
    rw [hmarker, int64_of_nullable h hd hnullable, parseScalar, (by decide : parseInt64 "NULL".toList = none)] at hparse
    cases hparse
  cases value with
  | null dataType =>
    obtain ⟨rfl, hkind⟩ := hadmits
    have hnullable : d.2 = true := congrArg Prod.snd hkind
    have hdefinition : t.schema[i]? = some d.1 := by rw [h.schema_getElem?, hd]; rfl
    have hfield : csvField "NULL" = ("NULL".toList, false) := by decide
    rw [Value.asDisplayString, hfield, parseField, hdefinition, orPanic_some, Exec.ok_bind]
    rw [marksNull_declared h hd, hnullable]
    rfl
  | string s =>
    have htype : d.1.dataType = .string := (show DataType.string = d.1.dataType from hadmits).symm
    refine parseField_text h hd (fun _ => not_nullable_of_string h hd htype) ?_
    rw [htype, Value.asDisplayString, parseScalar, String.ofList_toList]
  | _ => exact hscalar (hreads (by rintro _ ⟨⟩) (by rintro _ ⟨⟩)) hadmits

/-! ## Data rows -/

theorem writeCsvRecord_eq (row : List Value) :
    writeCsvRecord float row = join ',' ((row.map (Value.asDisplayString float)).map writeCsvField) ++ ['\n'] := by
  rw [writeCsvRecord, List.map_map]
  refine congrArg (fun fields => join ',' fields ++ ['\n']) (List.map_congr_left fun value _ => ?_)
  rw [writeCsvValue_eq, Function.comp_apply, writeCsvField_eq]

/-- The carriage returns in the texts of a row end lines. -/
def RowEndsLines (row : List Value) : Prop := ∀ s, Value.string s ∈ row → ReturnsEndLines s.toList

theorem returnsEndLines_display {row : List Value} (hrow : Exported float declared row) :
    RowEndsLines row ↔ ∀ text ∈ row.map (Value.asDisplayString float), ReturnsEndLines text.toList := by
  refine ⟨fun h text htext => ?_, fun h s hs => h s (List.mem_map.2 ⟨_, hs, rfl⟩)⟩
  obtain ⟨value, hvalue, rfl⟩ := List.mem_map.1 htext
  have hplain (hscalar : ReadsBack float value) : ReturnsEndLines (value.asDisplayString float).toList :=
    returnsEndLines_of_notMem fun hmem => absurd ((parseScalar_display hscalar).2 _ hmem) (by decide)
  cases value with
  | null => exact returnsEndLines_of_notMem (by decide : '\r' ∉ "NULL".toList)
  | string s => exact h s hvalue
  | _ => exact hplain (hrow.scalar hvalue nofun nofun)

/-- **Records are read back** as the rows that were written, up to one with a carriage return that ends no line. -/
theorem parseRecords_writeCsvRecord (h : Table.Consistent declared t) {limits : CsvIngestLimits} {rows : List (List Value)}
    (hrows : ∀ row ∈ rows, Exported float declared row) {fuel : Nat} (hfuel : rows.length ≤ fuel)
    (line rowCount valueCount : Nat)
    (hmaxRows : rowCount + rows.length ≤ limits.maxRows) (hmaxValues : valueCount + rows.length * declared.length ≤ limits.maxValues) :
    ((∀ row ∈ rows, RowEndsLines row) →
        parseRecords float t (List.range declared.length) limits fuel line rowCount valueCount
          (rows.flatMap (writeCsvRecord float)) = .ok rows) ∧
      ((∃ row ∈ rows, ¬ RowEndsLines row) → ∃ line',
        parseRecords float t (List.range declared.length) limits fuel line rowCount valueCount
          (rows.flatMap (writeCsvRecord float)) = .error (.invalidLineEnding line')) := by
  induction rows generalizing fuel line rowCount valueCount with
  | nil => exact ⟨fun _ => by cases fuel <;> rfl, fun ⟨_, hmem, _⟩ => nomatch hmem⟩
  | cons row rows ih =>
    obtain ⟨hrow, hrows⟩ := List.forall_mem_cons.1 hrows
    rw [List.length_cons] at hfuel hmaxRows
    rw [List.length_cons, Nat.succ_mul] at hmaxValues
    obtain ⟨fuel, rfl⟩ := Nat.exists_eq_add_of_lt (Nat.lt_of_lt_of_le (Nat.succ_pos rows.length) hfuel)
    rw [Nat.zero_add] at hfuel ⊢
    have hlength : row.length = declared.length := hrow.admits.length_eq.symm
    have hne : row.map (Value.asDisplayString float) ≠ [] := by
      refine List.ne_nil_of_length_pos ?_
      rw [List.length_map, hlength, h.declared_length]
      exact h.nonempty
    have htext : (row :: rows).flatMap (writeCsvRecord float) =
        join ',' ((row.map (Value.asDisplayString float)).map writeCsvField) ++ '\n' :: rows.flatMap (writeCsvRecord float) := by
      rw [List.flatMap_cons, writeCsvRecord_eq, List.append_assoc, List.singleton_append]
    obtain ⟨hnext, hrefused⟩ := nextRecord_join hne line (rows.flatMap (writeCsvRecord float))
    rw [htext, parseRecords, if_neg (List.append_ne_nil_of_right_ne_nil _ (List.cons_ne_nil _ _))]
    by_cases hends : RowEndsLines row
    · obtain ⟨line₁, hline₁⟩ := hnext ((returnsEndLines_display hrow).1 hends)
      have hfields : parseFields (parseField float t line) (List.range declared.length) 0
          ((row.map (Value.asDisplayString float)).map csvField) = .ok row := by
        rw [List.map_map]
        exact parseFields_range List.drop_zero hrow.admits fun i d value column hd hvalue hadmits =>
          parseField_csvField h hd hadmits fun hnull hstring => hrow.scalar hvalue hnull hstring
      have hnextRows : saturatingAdd rowCount 1 ≤ rowCount + 1 := Nat.min_le_left _ _
      have hnextValues : saturatingAdd valueCount declared.length ≤ valueCount + declared.length := Nat.min_le_left _ _
      have hih := ih hrows (Nat.le_of_succ_le_succ hfuel) line₁ (saturatingAdd rowCount 1)
        (saturatingAdd valueCount declared.length) (by omega) (by omega)
      rw [hline₁, Exec.ok_bind]
      dsimp only
      rw [rejectIf_of_not (by omega), Exec.ok_bind, scanRecord_writeCsvField hne, Exec.ok_bind, List.length_map,
        List.length_map, hlength, rejectIf_of_not (by omega), Exec.ok_bind,
        rejectIf_of_not (by rw [List.length_range]; exact fun hne => hne rfl), Exec.ok_bind, hfields, Exec.ok_bind]
      refine ⟨fun hall => ?_, fun ⟨row', hrow', hbare⟩ => ?_⟩
      · rw [hih.1 fun row' hrow' => hall row' (List.mem_cons_of_mem _ hrow'), Exec.ok_bind]
      · obtain rfl | hrow' := List.mem_cons.1 hrow'
        · exact absurd hends hbare
        · obtain ⟨line', hline'⟩ := hih.2 ⟨row', hrow', hbare⟩
          exact ⟨line', by rw [hline']; rfl⟩
    · refine ⟨fun hall => absurd (hall row (List.mem_cons_self ..)) hends, fun _ => ?_⟩
      obtain ⟨text, htext, hbare⟩ : ∃ text ∈ row.map (Value.asDisplayString float), ¬ ReturnsEndLines text.toList := by
        by_contra hnone
        exact hends ((returnsEndLines_display hrow).2 fun text htext => by_contra fun hbare => hnone ⟨text, htext, hbare⟩)
      obtain ⟨line', hline'⟩ := hrefused ⟨text, htext, hbare⟩
      exact ⟨line', by rw [hline']; rfl⟩

/-! ## Inputs -/

theorem length_le_flatMap (float : FloatText) (rows : List (List Value)) : rows.length ≤ (rows.flatMap (writeCsvRecord float)).length := by
  induction rows with
  | nil => exact Nat.le_refl 0
  | cons row rows ih =>
    rw [List.flatMap_cons, List.length_append, List.length_cons, writeCsvRecord, List.length_append, List.length_singleton]
    omega

theorem parseDataRows_writeCsvRows (h : Table.Consistent declared t) {limits : CsvIngestLimits} {rows : List (List Value)}
    (hrows : ∀ row ∈ rows, Exported float declared row) (hroom : Table.HasRoom t rows.length)
    (hmaxRows : rows.length ≤ limits.maxRows) (hmaxValues : rows.length * t.schema.length ≤ limits.maxValues)
    (firstLine : Nat) :
    ((∀ row ∈ rows, RowEndsLines row) →
        parseDataRows float t (rows.flatMap (writeCsvRecord float)) firstLine (List.range t.schema.length) limits =
          .ok ⟨rows, none⟩) ∧
      ((∃ row ∈ rows, ¬ RowEndsLines row) → ∃ line,
        parseDataRows float t (rows.flatMap (writeCsvRecord float)) firstLine (List.range t.schema.length) limits =
          .error (.invalidLineEnding line)) := by
  have hprepare := Table.prepareProjectedRows_range h hroom fun row hrow => ⟨(hrows row hrow).admits, (hrows row hrow).finite⟩
  rw [← h.declared_length] at hmaxValues hprepare ⊢
  have hrecords := @parseRecords_writeCsvRecord float declared t h limits rows hrows _ (length_le_flatMap float rows)
    firstLine 0 0 (by omega) (by omega)
  rw [parseDataRows]
  refine ⟨fun hends => ?_, fun hbare => ?_⟩
  · rw [hrecords.1 hends, Exec.ok_bind, hprepare]
    rfl
  · obtain ⟨line, hline⟩ := hrecords.2 hbare
    exact ⟨line, by rw [hline]; rfl⟩

theorem identifier_continue {name : String} (h : isValidSqlIdentifier name = true) :
    ∀ c ∈ name.toList, isSqlIdentifierContinue c = true := by
  unfold isValidSqlIdentifier at h
  cases hname : name.toList with
  | nil => exact List.forall_mem_nil _
  | cons first rest =>
    rw [hname] at h
    obtain ⟨hfirst, hrest⟩ := Bool.and_eq_true_iff.1 h
    refine List.forall_mem_cons.2 ⟨?_, List.all_eq_true.1 hrest⟩
    rw [isSqlIdentifierStart, Bool.or_eq_true] at hfirst
    rw [isSqlIdentifierContinue, Char.isAlphanum, Bool.or_assoc, Bool.or_eq_true, Bool.or_eq_true]
    exact hfirst.imp_right .inr

theorem writeCsvField_identifier {name : String} (h : isValidSqlIdentifier name = true) :
    writeCsvField name = name.toList ∧ ∀ c ∈ name.toList, c ≠ ',' ∧ c ≠ '"' ∧ c ≠ '\n' ∧ c ≠ '\r' := by
  have hplain : ∀ c ∈ name.toList, c ≠ ',' ∧ c ≠ '"' ∧ c ≠ '\n' ∧ c ≠ '\r' := by
    intro c hc
    have hcontinue := identifier_continue h c hc
    refine ⟨?_, ?_, ?_, ?_⟩ <;> rintro rfl <;> revert hcontinue <;> decide
  refine ⟨if_pos fun hany => ?_, hplain⟩
  obtain ⟨c, hc, hspecial⟩ := List.any_eq_true.1 hany
  simp [hplain c hc] at hspecial

theorem validateHeader_schema (h : Table.Consistent declared t) (hwidth : t.schema.length ≤ usizeMax) :
    (∀ c ∈ join ',' (t.schema.map fun field => writeCsvField field.name), c ≠ '\n' ∧ c ≠ '\r') ∧
      validateHeader t (join ',' (t.schema.map fun field => writeCsvField field.name)) =
        .ok (List.range t.schema.length) := by
  have hnames : t.schema.map (fun field => writeCsvField field.name) = t.schema.map fun field => field.name.toList :=
    List.map_congr_left fun field hfield => (writeCsvField_identifier (h.valid field hfield).1).1
  have hfields : ∀ field ∈ t.schema.map fun field => field.name.toList,
      ∀ c ∈ field, c ≠ ',' ∧ c ≠ '"' ∧ c ≠ '\n' ∧ c ≠ '\r' := by
    intro field hfield
    obtain ⟨definition, hdefinition, rfl⟩ := List.mem_map.1 hfield
    exact (writeCsvField_identifier (h.valid definition hdefinition).1).2
  have hcomma : ∀ field ∈ t.schema.map fun field => field.name.toList, ',' ∉ field :=
    fun field hfield hmem => (hfields field hfield _ hmem).1 rfl
  have hne : t.schema.map (fun field => field.name.toList) ≠ [] := fun hnil => by
    have := h.nonempty
    rw [List.map_eq_nil_iff.1 hnil] at this
    cases this
  have hcount := count_join hcomma hne
  have hsplit := splitOn_join hcomma hne
  have hheader : join ',' (t.schema.map fun field => field.name.toList) ≠ [] := fun hnil => by
    rw [hnil] at hsplit
    obtain ⟨field, hfield, hempty⟩ := List.mem_map.1 (hsplit ▸ List.mem_singleton.2 rfl :
      ([] : List Char) ∈ t.schema.map fun field => field.name.toList)
    exact name_ne_empty h hfield hempty
  have hdecode : ∀ field ∈ t.schema, ∀ column, decodeName field.name.toList column = .ok field.name := by
    intro field hfield column
    have hquote : '"' ∉ field.name.toList := fun hmem =>
      (hfields _ (List.mem_map.2 ⟨field, hfield, rfl⟩) _ hmem).2.1 rfl
    rw [decodeName, rejectIf_of_not hquote, Exec.ok_bind, String.ofList_toList]
  have hresolve := resolveHeader_schema headerErrors h hdecode (@List.drop_zero _ t.schema)
  rw [Nat.zero_add] at hresolve
  rw [List.length_map] at hcount
  rw [hnames]
  refine ⟨fun c hc => ?_, ?_⟩
  · obtain rfl | ⟨field, hfield, hmem⟩ := mem_join hc
    · exact ⟨by decide, by decide⟩
    · exact (hfields field hfield c hmem).2.2
  · have hcolumns : saturatingAdd ((join ',' (t.schema.map fun field => field.name.toList)).count ',') 1 =
        t.schema.length := by
      rw [saturatingAdd, hcount]
      exact Nat.min_eq_left hwidth
    rw [validateHeader, rejectIf_of_not hheader, Exec.ok_bind]
    dsimp only
    rw [hcolumns, rejectIf_of_not (by omega), Exec.ok_bind, hsplit]
    exact hresolve

end

end Csv

abbrev CsvIngestLimits.Admits (limits : CsvIngestLimits) (input : Bytes) (count width : Nat) : Prop :=
  AdmitsInput limits.maxBytes limits.maxRows limits.maxValues input count width

def RefusesLineEnding (ingest : Method Table CsvIngestError Nat) (t : Table) : Prop :=
  ∃ line, ingest t = some (.error (.invalidLineEnding line), t)

/-- Rows are appended if the carriage returns in their texts end lines, and refused otherwise. -/
def TakesRows (ingest : Method Table CsvIngestError Nat) (t : Table) (rows : List (List Value)) : Prop :=
  ((∀ row ∈ rows, Csv.RowEndsLines row) → AppendsRows ingest t rows) ∧
    ((∃ row ∈ rows, ¬ Csv.RowEndsLines row) → RefusesLineEnding ingest t)

theorem takesRows_of_parse {declared : List Declared} {t : Table}
    {parseRows : Table → Exec CsvIngestError PreparedInsertRows} {rows : List (List Value)}
    (h : Table.Consistent declared t) (hroom : Table.HasRoom t rows.length) (hrows : ∀ row ∈ rows, AdmitsRow declared row)
    (hparse : ((∀ row ∈ rows, Csv.RowEndsLines row) → parseRows t = .ok ⟨rows, none⟩) ∧
      ((∃ row ∈ rows, ¬ Csv.RowEndsLines row) → ∃ line, parseRows t = .error (.invalidLineEnding line))) :
    TakesRows (ingestRows .database parseRows) t rows := by
  refine ⟨fun hends => appendsRows_of_parse h hroom hrows (hparse.1 hends), fun hbare => ?_⟩
  obtain ⟨line, hline⟩ := hparse.2 hbare
  exact ⟨line, ingestRows_error hline⟩

/-- **CSV round trip.** What the writers emit for rows of the schema of a table, with the names of its columns or
without, is ingested into the table as exactly these rows in their order, if each carriage return in a text is
followed by a line feed. Otherwise it is refused. -/
theorem ingestCsv_writeCsv {float : FloatText} {declared : List Declared} {t : Table} (h : Table.Reachable declared t)
    (hwidth : t.schema.length ≤ usizeMax) {result : QueryResult}
    (hnames : result.columns.map ResultColumn.name = t.schema.map ColumnDef.name)
    (hrows : ∀ row ∈ result.rows, Exported float declared row) (hroom : Table.HasRoom t result.rows.length)
    (limits : CsvIngestLimits) :
    (limits.Admits (emit (writeCsvRows float result)) result.rows.length t.schema.length →
        TakesRows (ingestCsv float (emit (writeCsvRows float result)) limits) t result.rows) ∧
      (limits.Admits (emit (writeCsv float result)) result.rows.length t.schema.length →
        TakesRows (ingestCsvWithNames float (emit (writeCsv float result)) limits) t result.rows) := by
  have hc := Table.reachable_consistent h
  have hadmits : ∀ row ∈ result.rows, AdmitsRow declared row := fun row hrow => (hrows row hrow).admits
  refine ⟨fun hlimits => takesRows_of_parse hc hroom hadmits ?_, fun hlimits => takesRows_of_parse hc hroom hadmits ?_⟩
  · rw [Csv.parseRowsWithoutNames, rejectIf_of_not (Nat.not_lt.2 hlimits.bytes), Exec.ok_bind, decodeInput_emit,
      Exec.ok_bind]
    exact Csv.parseDataRows_writeCsvRows hc hrows hroom hlimits.rows hlimits.values 1
  · obtain ⟨hline, hheader⟩ := Csv.validateHeader_schema hc hwidth
    have hcolumns : result.columns.map (fun column => writeCsvField column.name) =
        t.schema.map fun field => writeCsvField field.name := by
      have := congrArg (List.map writeCsvField) hnames
      rwa [List.map_map, List.map_map] at this
    rw [Csv.parseRowsWithNames, rejectIf_of_not (Nat.not_lt.2 hlimits.bytes), Exec.ok_bind, decodeInput_emit,
      Exec.ok_bind, writeCsv, hcolumns, List.append_assoc, List.singleton_append,
      splitInclusive_line fun hmem => (hline _ hmem).1 rfl]
    dsimp only
    rw [Csv.lineContents, lineContentsOr_line _ hline, Exec.ok_bind, hheader, Exec.ok_bind,
      List.append_cons _ '\n' (writeCsvRows float result), List.drop_left]
    exact Csv.parseDataRows_writeCsvRows hc hrows hroom hlimits.rows hlimits.values 2

theorem ingestCsv_writeCsv_notes :
    TakesRows (ingestCsv sampleFloatText (emit (writeCsvRows sampleFloatText notesResult)) ⟨1024, 2, 8⟩) notesSample
        notesResult.rows ∧
      TakesRows (ingestCsvWithNames sampleFloatText (emit (writeCsv sampleFloatText notesResult)) ⟨1024, 2, 8⟩)
        notesSample notesResult.rows :=
  (ingestCsv_writeCsv notesSample_reachable (by decide) rfl notesResult_exported ⟨by decide, by decide⟩ ⟨1024, 2, 8⟩).imp
    (fun read => read ⟨by decide +kernel, by decide, by decide⟩)
    (fun read => read ⟨by decide +kernel, by decide, by decide⟩)

/-- A text of a carriage return alone. -/
def returnResult : QueryResult :=
  ⟨[⟨"score", .float64⟩, ⟨"active", .bool⟩, ⟨"text", .string⟩, ⟨"level", .int64⟩],
    [[.float64 ⟨0x4004000000000000⟩, .bool true, .string "\r", .int64 1]]⟩

/-- A carriage return that ends no line is written, and refused when it is read. -/
theorem ingestCsv_writeCsv_return :
    Table.Reachable notesDeclared notesSample ∧ returnResult.columns.map ResultColumn.name =
        notesSample.schema.map ColumnDef.name ∧
      (∀ row ∈ returnResult.rows, Exported sampleFloatText notesDeclared row) ∧
      notesSample.HasRoom returnResult.rows.length ∧
      CsvIngestLimits.Admits ⟨1024, 2, 8⟩ (emit (writeCsvRows sampleFloatText returnResult)) 1 4 ∧
      ingestCsv sampleFloatText (emit (writeCsvRows sampleFloatText returnResult)) ⟨1024, 2, 8⟩ notesSample =
        some (.error (.invalidLineEnding 1), notesSample) ∧
      ¬ AppendsRows (ingestCsv sampleFloatText (emit (writeCsvRows sampleFloatText returnResult)) ⟨1024, 2, 8⟩)
        notesSample returnResult.rows := by
  have hrefused : ingestCsv sampleFloatText (emit (writeCsvRows sampleFloatText returnResult)) ⟨1024, 2, 8⟩ notesSample =
      some (.error (.invalidLineEnding 1), notesSample) := by
    refine ingestRows_error ?_
    rw [Csv.parseRowsWithoutNames, rejectIf_of_not (by decide +kernel), Exec.ok_bind, decodeInput_emit, Exec.ok_bind]
    have htext : writeCsvRows sampleFloatText returnResult = "2.5,true,\"\r\",1\n".toList := by decide +kernel
    have hlength : "2.5,true,\"\r\",1\n".toList.length = 14 + 1 := by decide
    have hrecord : Csv.nextRecord 1 true false "2.5,true,\"\r\",1\n".toList = .error (.invalidLineEnding 1) := by
      decide +kernel
    rw [htext, Csv.parseDataRows, hlength, Csv.parseRecords, if_neg (by decide), hrecord]
    rfl
  refine ⟨notesSample_reachable, rfl, ?_, ⟨by decide, by decide⟩, ⟨by decide +kernel, by decide, by decide⟩, hrefused, ?_⟩
  · refine List.forall_mem_singleton.2 ⟨?_, fun x hx => ?_, fun x hx => ?_⟩
    · exact .cons rfl (.cons rfl (.cons rfl (.cons rfl .nil)))
    · obtain rfl : x = ⟨0x4004000000000000⟩ := by simpa using hx
      decide
    · obtain rfl : x = ⟨0x4004000000000000⟩ := by simpa using hx
      exact sampleFloatText_readsBack
  · rintro ⟨old, t', _, _, hok, _⟩
    rw [hrefused] at hok
    cases hok

end RustHouse.Batch
