import RustHouse.CsvSound

/-!
# The records of a CSV input

Where a character stands in its record is decided by the characters in front of
it: at the start of a field, in an unquoted one, within quotes, or behind them.
A record goes up to the first line break that is not within quotes, and the
scanner finds its fields at the places at which the splitter put them.
-/

namespace RustHouse.Batch

open Checked Delimited Exec Words

namespace Csv

/-! ## Places -/

/-- Where the next character of a record stands. -/
inductive Place where
  | start | plain | quoted | closed
  deriving DecidableEq

/-- The place behind a character. A quote behind a closing one opens the quotes again. -/
def Place.next : Place → Char → Place
  | .quoted, c => if c = '"' then .closed else .quoted
  | .start, c => if c = '"' then .quoted else if c = ',' then .start else .plain
  | .closed, c => if c = '"' then .quoted else if c = ',' then .start else .plain
  | .plain, c => if c = ',' then .start else .plain

def Place.behind (p : Place) (text : List Char) : Place := text.foldl Place.next p

theorem Place.next_ne_closed {c : Char} (h : c ≠ '"') (p : Place) : p.next c ≠ .closed := by
  cases p with
  | quoted => simp [Place.next, h]
  | _ => by_cases hcomma : c = ',' <;> simp [Place.next, h, hcomma]

/-- A text whose line breaks all stand within quotes. -/
def Within : Place → List Char → Prop
  | _, [] => True
  | p, c :: text => (c = '\n' ∨ c = '\r' → p = .quoted) ∧ Within (p.next c) text

@[simp] theorem Place.behind_nil (p : Place) : p.behind [] = p := rfl

@[simp] theorem Place.behind_cons (p : Place) (c : Char) (text : List Char) :
    p.behind (c :: text) = (p.next c).behind text := rfl

theorem Place.behind_append (p : Place) (first second : List Char) :
    p.behind (first ++ second) = (p.behind first).behind second := List.foldl_append

theorem within_append {p : Place} {first second : List Char} :
    Within p (first ++ second) ↔ Within p first ∧ Within (p.behind first) second := by
  induction first generalizing p with
  | nil => exact (iff_of_eq (true_and _)).symm
  | cons c first ih =>
    rw [List.cons_append, Within, Within, Place.behind_cons, ih, and_assoc]

def lineBehind (line : Nat) (text : List Char) : Nat := saturatingAdd line (text.count '\n')

theorem lineBehind_nil {line : Nat} (h : line ≤ usizeMax) : lineBehind line [] = line := Nat.min_eq_left h

theorem lineBehind_le (line : Nat) (text : List Char) : lineBehind line text ≤ usizeMax := Nat.min_le_right _ _

theorem lineBehind_append (line : Nat) (first second : List Char) :
    lineBehind (lineBehind line first) second = lineBehind line (first ++ second) := by
  unfold lineBehind saturatingAdd
  rw [List.count_append]
  omega

/-! ## Steps of the splitter -/

def recordFrom (line : Nat) (p : Place) (input : List Char) : Exec CsvIngestError Record :=
  nextRecord line (p = .start) (p = .quoted) input

section
variable {line : Nat} {p : Place} {c : Char} {rest : List Char}

theorem recordFrom_nil : recordFrom line p [] = .ok ⟨[], [], line⟩ := rfl

theorem recordFrom_data (hfeed : c ≠ '\n') (hreturn : c ≠ '\r') (hquote : c ≠ '"') (hcomma : c = ',' → p = .quoted) :
    recordFrom line p (c :: rest) = recordFrom line (p.next c) rest >>= fun r => .ok (r.cons c) := by
  have hnext : p.next c = if p = .quoted then .quoted else .plain := by
    cases p <;> simp_all [Place.next]
  rw [hnext]
  cases rest with
  | nil => simp [recordFrom, nextRecord, hfeed, hreturn, Record.cons]
  | cons d rest =>
    cases p <;> simp_all [recordFrom, nextRecord]

theorem recordFrom_comma (hp : p ≠ .quoted) :
    recordFrom line p (',' :: rest) = recordFrom line .start rest >>= fun r => .ok (r.cons ',') := by
  cases rest with
  | nil => simp [recordFrom, nextRecord, Record.cons]
  | cons d rest => cases p <;> simp_all [recordFrom, nextRecord]

theorem recordFrom_quote (hp : p = .start ∨ p = .plain) :
    recordFrom line p ('"' :: rest) = recordFrom line (p.next '"') rest >>= fun r => .ok (r.cons '"') := by
  rcases hp with rfl | rfl
  · cases rest <;> simp [recordFrom, nextRecord, Record.cons, Place.next]
  · cases rest <;> simp [recordFrom, nextRecord, Record.cons, Place.next]

theorem recordFrom_doubled :
    recordFrom line .quoted ('"' :: '"' :: rest) =
      recordFrom line .quoted rest >>= fun r => .ok ((r.cons '"').cons '"') := by
  simp [recordFrom, nextRecord]

theorem recordFrom_close (h : rest.head? ≠ some '"') :
    recordFrom line .quoted ('"' :: rest) = recordFrom line .closed rest >>= fun r => .ok (r.cons '"') := by
  cases rest with
  | nil => simp [recordFrom, nextRecord, Record.cons]
  | cons d rest =>
    have hd : d ≠ '"' := fun heq => h (heq ▸ rfl)
    simp [recordFrom, nextRecord, hd]

theorem recordFrom_feed : recordFrom line .quoted ('\n' :: rest) =
    recordFrom (saturatingAdd line 1) .quoted rest >>= fun r => .ok (r.cons '\n') := by
  cases rest <;> simp [recordFrom, nextRecord, Record.cons]

theorem recordFrom_pair : recordFrom line .quoted ('\r' :: '\n' :: rest) =
    recordFrom (saturatingAdd line 1) .quoted rest >>= fun r => .ok ((r.cons '\n').cons '\r') := by
  simp [recordFrom, nextRecord]

theorem recordFrom_feed_end (hp : p ≠ .quoted) :
    recordFrom line p ('\n' :: rest) = .ok ⟨[], rest, saturatingAdd line 1⟩ := by
  cases rest <;> cases p <;> simp_all [recordFrom, nextRecord]

theorem recordFrom_pair_end (hp : p ≠ .quoted) :
    recordFrom line p ('\r' :: '\n' :: rest) = .ok ⟨[], rest, saturatingAdd line 1⟩ := by
  cases p <;> simp_all [recordFrom, nextRecord]

theorem lineBehind_feed (line : Nat) (text : List Char) :
    lineBehind (saturatingAdd line 1) text = lineBehind line ('\n' :: text) :=
  lineBehind_append line ['\n'] text

theorem lineBehind_cons (hc : c ≠ '\n') (line : Nat) (text : List Char) :
    lineBehind line (c :: text) = lineBehind line text := by
  rw [lineBehind, List.count_cons_of_ne hc]
  rfl

theorem bind_cons {x : Exec CsvIngestError Record} (c : Char) (text : List Char) :
    ((x >>= fun r => .ok (r.append text)) >>= fun r => .ok (r.cons c)) = x >>= fun r => .ok (r.append (c :: text)) :=
  bind_append x [c] text

/-- **A text that breaks lines only within quotes** is part of the record. -/
theorem recordFrom_within {text more : List Char} (hline : line ≤ usizeMax) (hwithin : Within p text)
    (hends : ReturnsEndLines text) (hopen : p = .closed → (text ++ more).head? ≠ some '"')
    (hclosed : p.behind text = .closed → more.head? ≠ some '"') :
    recordFrom line p (text ++ more) =
      recordFrom (lineBehind line text) (p.behind text) more >>= fun r => .ok (r.append text) := by
  induction hlength : text.length using Nat.strong_induction_on generalizing text line p with
  | _ n ih =>
    subst hlength
    cases text with
    | nil =>
      rw [List.nil_append, lineBehind_nil hline, Place.behind_nil]
      cases recordFrom line p more <;> rfl
    | cons c text =>
      have hlt : text.length < (c :: text).length := Nat.lt_succ_self _
      have hnext : saturatingAdd line 1 ≤ usizeMax := Nat.min_le_right _ _
      obtain ⟨hbreak, hrest⟩ := hwithin
      by_cases hreturn : c = '\r'
      · -- The two halves of a line ending are taken at once.
        subst hreturn
        obtain rfl := hbreak (.inr rfl)
        cases text with
        | nil => exact absurd (hends 0 rfl) (Option.some_ne_none _).symm
        | cons d text =>
          obtain rfl := Option.some.inj (hends 0 rfl)
          have hlt' : text.length < ('\r' :: '\n' :: text).length := by simp only [List.length_cons]; omega
          have hih := @ih _ hlt' _ .quoted text hnext hrest.2 (returnsEndLines_pair.1 hends)
            (fun heq => absurd heq (by decide)) hclosed rfl
          rw [List.cons_append, List.cons_append, recordFrom_pair, hih, lineBehind_feed,
            lineBehind_cons (by decide : '\r' ≠ '\n')]
          exact bind_append _ ['\r', '\n'] text
      have hends' : ReturnsEndLines text := (returnsEndLines_cons hreturn).1 hends
      by_cases hfeed : c = '\n'
      · subst hfeed
        obtain rfl := hbreak (.inl rfl)
        have hih := @ih _ hlt _ .quoted text hnext hrest hends' (fun heq => absurd heq (by decide)) hclosed rfl
        rw [List.cons_append, recordFrom_feed, hih, lineBehind_feed]
        exact bind_cons _ _
      rw [lineBehind_cons hfeed, List.cons_append]
      by_cases hquote : c = '"'
      · subst hquote
        by_cases hp : p = .start ∨ p = .plain
        · have hnot : p.next '"' ≠ .closed := by rcases hp with rfl | rfl <;> decide
          have hih := @ih _ hlt _ _ text hline hrest hends' (fun heq => absurd heq hnot) hclosed rfl
          rw [recordFrom_quote hp, hih]
          exact bind_cons _ _
        cases p with
        | start => exact absurd (.inl rfl) hp
        | plain => exact absurd (.inr rfl) hp
        | closed => exact absurd rfl (hopen rfl)
        | quoted =>
          by_cases hdoubled : text.head? = some '"'
          · obtain ⟨text, rfl⟩ := List.head?_eq_some_iff.1 hdoubled
            have hlt' : text.length < ('"' :: '"' :: text).length := by simp only [List.length_cons]; omega
            have hih := @ih _ hlt' _ .quoted text hline hrest.2 ((returnsEndLines_cons (by decide)).1 hends')
              (fun heq => absurd heq (by decide)) hclosed rfl
            rw [List.cons_append, recordFrom_doubled, hih, lineBehind_cons (by decide)]
            exact bind_append _ ['"', '"'] text
          · have hhead : (text ++ more).head? ≠ some '"' := by
              cases text with
              | nil => exact hclosed rfl
              | cons d text => exact hdoubled
            have hih := @ih _ hlt _ .closed text hline hrest hends' (fun _ => hhead) hclosed rfl
            rw [recordFrom_close hhead, hih]
            exact bind_cons _ _
      · have hih := @ih _ hlt _ _ text hline hrest hends' (fun heq => absurd heq (p.next_ne_closed hquote)) hclosed rfl
        by_cases hcomma : c = ',' ∧ p ≠ .quoted
        · obtain ⟨rfl, hp⟩ := hcomma
          have hstart : p.next ',' = .start := by cases p <;> first | rfl | exact absurd rfl hp
          rw [recordFrom_comma hp, ← hstart, hih]
          exact bind_cons _ _
        · have hplain : c = ',' → p = .quoted := fun heq => not_not.1 fun hp => hcomma ⟨heq, hp⟩
          rw [recordFrom_data hfeed hreturn hquote hplain, hih]
          exact bind_cons _ _

end

/-! ## One record -/

def Ending (ending : List Char) : Prop := ending = ['\n'] ∨ ending = ['\r', '\n']

/-- What stands behind the text of a record: nothing, a line ending outside quotes, or a carriage return alone. -/
inductive Stops (p : Place) : List Char → Prop where
  | done : Stops p []
  | line (ending rest : List Char) : p ≠ .quoted → Ending ending → Stops p (ending ++ rest)
  | bare {rest : List Char} : rest.head? ≠ some '\n' → Stops p ('\r' :: rest)

theorem Stops.head {p : Place} {more : List Char} (h : Stops p more) : more.head? ≠ some '"' := by
  cases h with
  | done => exact (Option.some_ne_none _).symm
  | line _ _ _ hending => rcases hending with rfl | rfl <;> exact fun heq => absurd (Option.some.inj heq) (by decide)
  | bare => exact fun heq => absurd (Option.some.inj heq) (by decide)

theorem within_cons {p : Place} {c : Char} {text : List Char} (hc : c = '\n' ∨ c = '\r' → p = .quoted)
    (h : Within (p.next c) text) : Within p (c :: text) := ⟨hc, h⟩

theorem exists_within (p : Place) (input : List Char) :
    ∃ text more, input = text ++ more ∧ Within p text ∧ ReturnsEndLines text ∧ Stops (p.behind text) more := by
  induction hlength : input.length using Nat.strong_induction_on generalizing input p with
  | _ n ih =>
    subst hlength
    cases input with
    | nil => exact ⟨[], [], rfl, trivial, returnsEndLines_nil, .done⟩
    | cons c input =>
      have hlt : input.length < (c :: input).length := Nat.lt_succ_self _
      by_cases hreturn : c = '\r'
      · subst hreturn
        by_cases hfeed : input.head? = some '\n'
        · obtain ⟨input, rfl⟩ := List.head?_eq_some_iff.1 hfeed
          by_cases hp : p = .quoted
          · subst hp
            have hlt' : input.length < ('\r' :: '\n' :: input).length := by simp only [List.length_cons]; omega
            obtain ⟨text, more, rfl, hwithin, hends, hstops⟩ := ih _ hlt' .quoted input rfl
            refine ⟨'\r' :: '\n' :: text, more, rfl, ?_, returnsEndLines_pair.2 hends, hstops⟩
            exact within_cons (fun _ => rfl) (within_cons (fun _ => rfl) hwithin)
          · exact ⟨[], _, rfl, trivial, returnsEndLines_nil, .line ['\r', '\n'] input hp (.inr rfl)⟩
        · exact ⟨[], _, rfl, trivial, returnsEndLines_nil, .bare hfeed⟩
      · by_cases hbreak : c = '\n' ∧ p ≠ .quoted
        · obtain ⟨rfl, hp⟩ := hbreak
          exact ⟨[], _, rfl, trivial, returnsEndLines_nil, .line ['\n'] input hp (.inl rfl)⟩
        · obtain ⟨text, more, rfl, hwithin, hends, hstops⟩ := ih _ hlt (p.next c) input rfl
          refine ⟨c :: text, more, rfl, within_cons (fun hc => ?_) hwithin, (returnsEndLines_cons hreturn).2 hends, hstops⟩
          exact not_not.1 fun hp => hbreak ⟨hc.resolve_right hreturn, hp⟩

section
variable {line : Nat} {text rest ending : List Char}

theorem nextRecord_within {more : List Char} (hline : line ≤ usizeMax) (hwithin : Within .start text)
    (hends : ReturnsEndLines text) (hmore : more.head? ≠ some '"') :
    nextRecord line true false (text ++ more) =
      recordFrom (lineBehind line text) (Place.start.behind text) more >>= fun r => .ok (r.append text) :=
  recordFrom_within hline hwithin hends (fun heq => absurd heq (by decide)) fun _ => hmore

theorem nextRecord_all (hline : line ≤ usizeMax) (hwithin : Within .start text) (hends : ReturnsEndLines text) :
    nextRecord line true false text = .ok ⟨text, [], lineBehind line text⟩ := by
  have hnext := @nextRecord_within line text [] hline hwithin hends (Option.some_ne_none _).symm
  rw [List.append_nil] at hnext
  rw [hnext, recordFrom_nil, Exec.ok_bind, Record.append, List.append_nil]

theorem recordFrom_ending {p : Place} (hp : p ≠ .quoted) (hending : Ending ending) :
    recordFrom line p (ending ++ rest) = .ok ⟨[], rest, lineBehind line ending⟩ := by
  rcases hending with rfl | rfl
  · exact recordFrom_feed_end hp
  · exact recordFrom_pair_end hp

/-- **A record ends at the first line break outside quotes.** -/
theorem nextRecord_line (hline : line ≤ usizeMax) (hwithin : Within .start text) (hends : ReturnsEndLines text)
    (houtside : Place.start.behind text ≠ .quoted) (hending : Ending ending) :
    nextRecord line true false (text ++ (ending ++ rest)) = .ok ⟨text, rest, lineBehind line (text ++ ending)⟩ := by
  have hstops : Stops (Place.start.behind text) (ending ++ rest) := .line _ _ houtside hending
  rw [nextRecord_within hline hwithin hends hstops.head, recordFrom_ending houtside hending, Exec.ok_bind,
    Record.append, List.append_nil, lineBehind_append]

theorem nextRecord_bare (hline : line ≤ usizeMax) (hwithin : Within .start text) (hends : ReturnsEndLines text)
    (hrest : rest.head? ≠ some '\n') :
    nextRecord line true false (text ++ '\r' :: rest) = .error (.invalidLineEnding (lineBehind line text)) := by
  have hstops : Stops (Place.start.behind text) ('\r' :: rest) := .bare hrest
  rw [nextRecord_within hline hwithin hends hstops.head, recordFrom, nextRecord_return hrest]
  rfl

end

/-! ## Fields -/

/-- What the scanner takes for a field: an unquoted text without a quote, or the doubled contents of quotes. -/
inductive Loose : List Char × Bool → Prop where
  | plain {text : List Char} (h : ∀ c ∈ text, c ≠ ',' ∧ c ≠ '"') : Loose (text, false)
  | quoted (text : List Char) : Loose (double text, true)

def recordText (fields : List (List Char × Bool)) : List Char := join ',' (fields.map fieldText)

theorem recordText_cons (field : List Char × Bool) {fields : List (List Char × Bool)} (hne : fields ≠ []) :
    recordText (field :: fields) = fieldText field ++ ',' :: recordText fields := by
  rw [recordText, List.map_cons, join_cons _ _ (mt List.map_eq_nil_iff.1 hne)]
  rfl

theorem scanQuoted_spec {input contents rest : List Char} (h : scanQuoted input = some (contents, rest)) :
    (∃ text, contents = double text) ∧ input = contents ++ '"' :: rest ∧ rest.head? ≠ some '"' := by
  induction input using scanQuoted.induct generalizing contents with
  | case1 => cases h
  | case2 =>
    obtain ⟨rfl, rfl⟩ := Prod.mk.inj (Option.some.inj h)
    exact ⟨⟨[], rfl⟩, rfl, (Option.some_ne_none _).symm⟩
  | case3 c hc =>
    rw [scanQuoted, if_neg hc] at h
    cases h
  | case4 input ih =>
    rw [scanQuoted, if_pos rfl, if_pos rfl] at h
    obtain ⟨⟨contents', rest'⟩, hrest, heq⟩ := Option.map_eq_some_iff.1 h
    obtain ⟨rfl, rfl⟩ := Prod.mk.inj heq
    obtain ⟨⟨text, rfl⟩, rfl, hhead⟩ := ih hrest
    exact ⟨⟨'"' :: text, rfl⟩, rfl, hhead⟩
  | case5 d input hd =>
    rw [scanQuoted, if_pos rfl, if_neg hd] at h
    obtain ⟨rfl, rfl⟩ := Prod.mk.inj (Option.some.inj h)
    exact ⟨⟨[], rfl⟩, rfl, fun heq => hd (Option.some.inj heq)⟩
  | case6 c d input hc ih =>
    rw [scanQuoted, if_neg hc] at h
    obtain ⟨⟨contents', rest'⟩, hrest, heq⟩ := Option.map_eq_some_iff.1 h
    obtain ⟨rfl, rfl⟩ := Prod.mk.inj heq
    obtain ⟨⟨text, rfl⟩, hinput, hhead⟩ := ih hrest
    exact ⟨⟨c :: text, (double_cons hc text).symm⟩, congrArg (c :: ·) hinput, hhead⟩

/-- Quotes that are not closed, or closed in the middle of a field. -/
theorem scanRecord_malformed {line column : Nat} {input : List Char}
    (h : ∀ contents rest, scanQuoted input = some (contents, rest) → rest ≠ [] ∧ rest.head? ≠ some ',') :
    scanRecord line column ('"' :: input) = .error (.malformedQuoting line column) := by
  rw [scanRecord, List.head?_cons, if_pos rfl]
  simp only [List.tail_cons]
  split
  · rfl
  · rename_i contents rest hsome
    obtain ⟨hne, hhead⟩ := h contents rest hsome
    cases rest with
    | nil => exact absurd rfl hne
    | cons d rest => exact if_pos fun heq : d = ',' => hhead (heq ▸ rfl)

def Scans (line column : Nat) (record : List Char) : Exec CsvIngestError (List (List Char × Bool)) → Prop
  | .ok fields => fields ≠ [] ∧ (∀ field ∈ fields, Loose field) ∧ record = recordText fields
  | .error e => ∃ column', e = .malformedQuoting line column' ∧ column ≤ column' ∧ column' ≤ column + record.count ','
  | .panic => False

theorem scans_malformed (line column : Nat) (record : List Char) :
    Scans line column record (.error (.malformedQuoting line column)) :=
  ⟨column, rfl, Nat.le_refl _, Nat.le_add_right _ _⟩

theorem scans_single {line column : Nat} {field : List Char × Bool} (h : Loose field) :
    Scans line column (fieldText field) (.ok [field]) :=
  ⟨List.cons_ne_nil _ _, List.forall_mem_singleton.2 h, rfl⟩

theorem Scans.cons {line column : Nat} {field : List Char × Bool} {record : List Char}
    {x : Exec CsvIngestError (List (List Char × Bool))} (hcolumn : column ≤ usizeMax) (hfield : Loose field)
    (h : Scans line (saturatingAdd column 1) record x) :
    Scans line column (fieldText field ++ ',' :: record) (x >>= fun fields => .ok (field :: fields)) := by
  cases x with
  | panic => exact h
  | ok fields =>
    obtain ⟨hne, hfields, rfl⟩ := h
    exact ⟨List.cons_ne_nil _ _, List.forall_mem_cons.2 ⟨hfield, hfields⟩, (recordText_cons field hne).symm⟩
  | error e =>
    obtain ⟨column', rfl, hfirst, hlast⟩ := h
    refine ⟨column', rfl, Nat.le_trans (Nat.le_min.2 ⟨Nat.le_succ _, hcolumn⟩) hfirst, Nat.le_trans hlast ?_⟩
    have hnext : saturatingAdd column 1 ≤ column + 1 := Nat.min_le_left _ _
    rw [List.count_append, List.count_cons_self]
    omega

/-- **The scanner** splits a record at its commas outside quotes, or names a column of it. -/
theorem scanRecord_scans (line : Nat) {column : Nat} (hcolumn : column ≤ usizeMax) (record : List Char) :
    Scans line column record (scanRecord line column record) := by
  induction hlength : record.length using Nat.strong_induction_on generalizing record column with
  | _ n ih =>
    subst hlength
    have hnext : saturatingAdd column 1 ≤ usizeMax := Nat.min_le_right _ _
    by_cases hquote : record.head? = some '"'
    · obtain ⟨input, rfl⟩ := List.head?_eq_some_iff.1 hquote
      by_cases hmalformed : ∀ contents rest, scanQuoted input = some (contents, rest) → rest ≠ [] ∧ rest.head? ≠ some ','
      · rw [scanRecord_malformed hmalformed]
        exact scans_malformed _ _ _
      · simp only [not_forall] at hmalformed
        obtain ⟨contents, rest, hscan, hrest⟩ := hmalformed
        obtain ⟨⟨text, rfl⟩, rfl, _⟩ := scanQuoted_spec hscan
        cases rest with
        | nil =>
          rw [(scanRecord_quoted hscan).1 rfl]
          exact scans_single (.quoted text)
        | cons d next =>
          have hd : d = ',' := by simpa using hrest
          subst hd
          have hlt : next.length < ('"' :: (double text ++ '"' :: ',' :: next)).length := by
            simp only [List.length_cons, List.length_append]
            omega
          have hfield : '"' :: (double text ++ '"' :: ',' :: next) = fieldText (double text, true) ++ ',' :: next := by
            simp [fieldText]
          rw [(scanRecord_quoted hscan).2 next rfl, hfield]
          exact (ih _ hlt hnext next rfl).cons hcolumn (.quoted text)
    · by_cases hstray : '"' ∈ record.takeWhile (· ≠ ',')
      · rw [scanRecord, if_neg hquote]
        simp only [if_pos hstray]
        exact scans_malformed _ _ _
      · have hfield : ∀ c ∈ record.takeWhile (· ≠ ','), c ≠ ',' ∧ c ≠ '"' := by
          intro c hc
          have hcomma := List.mem_takeWhile_imp hc
          exact ⟨of_decide_eq_true hcomma, fun heq => hstray (heq ▸ hc)⟩
        have hrecord : record.takeWhile (· ≠ ',') ++ record.dropWhile (· ≠ ',') = record := List.takeWhile_append_dropWhile
        cases hdrop : record.dropWhile (· ≠ ',') with
        | nil =>
          rw [hdrop, List.append_nil] at hrecord
          rw [hrecord] at hfield
          rw [(scanRecord_unquoted hfield).1]
          exact scans_single (.plain hfield)
        | cons d next =>
          have hd : d = ',' := by
            have hhead := List.head?_dropWhile_not (· ≠ ',') record
            rw [hdrop] at hhead
            simpa using hhead
          subst hd
          rw [hdrop] at hrecord
          have hlt : next.length < record.length := by
            have hlen := congrArg List.length hrecord
            rw [List.length_append, List.length_cons] at hlen
            omega
          have hscan := (ih _ hlt hnext next rfl).cons hcolumn (.plain hfield)
          rw [← (scanRecord_unquoted hfield).2 next] at hscan
          rw [← hrecord]
          exact hscan

/-! ## Fields at their places -/

theorem returnsEndLines_left {first second : List Char} {d : Char} (hd : d ≠ '\n')
    (h : ReturnsEndLines (first ++ d :: second)) : ReturnsEndLines first := by
  intro i hi
  have hlt : i < first.length := (List.getElem?_eq_some_iff.1 hi).1
  have hnext := h i (by rw [List.getElem?_append_left hlt]; exact hi)
  by_cases hlast : i + 1 < first.length
  · rwa [List.getElem?_append_left hlast] at hnext
  · have hend : i + 1 = first.length := by omega
    rw [hend, List.getElem?_append_right (Nat.le_refl _), Nat.sub_self] at hnext
    exact absurd (Option.some.inj hnext) hd

theorem returnsEndLines_append {first second : List Char} (hfirst : ReturnsEndLines first) :
    ReturnsEndLines (first ++ second) ↔ ReturnsEndLines second := by
  refine ⟨fun h i hi => ?_, fun h i hi => ?_⟩
  · have hnext := h (first.length + i) (by rw [List.getElem?_append_right (Nat.le_add_right _ _), Nat.add_sub_cancel_left]; exact hi)
    rwa [Nat.add_assoc, List.getElem?_append_right (Nat.le_add_right _ _), Nat.add_sub_cancel_left] at hnext
  · by_cases hlt : i < first.length
    · rw [List.getElem?_append_left hlt] at hi
      have hnext := hfirst i hi
      rw [List.getElem?_append_left (List.getElem?_eq_some_iff.1 hnext).1]
      exact hnext
    · rw [List.getElem?_append_right (Nat.le_of_not_lt hlt)] at hi
      rw [List.getElem?_append_right (Nat.le_succ_of_le (Nat.le_of_not_lt hlt)), Nat.succ_sub (Nat.le_of_not_lt hlt)]
      exact h _ hi

theorem returnsEndLines_between {first second : List Char} {d : Char} (hfeed : d ≠ '\n') (hreturn : d ≠ '\r') :
    ReturnsEndLines (first ++ d :: second) ↔ ReturnsEndLines first ∧ ReturnsEndLines second := by
  refine ⟨fun h => ?_, fun ⟨hfirst, hsecond⟩ => ?_⟩
  · have hfirst := returnsEndLines_left hfeed h
    exact ⟨hfirst, (returnsEndLines_cons hreturn).1 ((returnsEndLines_append hfirst).1 h)⟩
  · exact (returnsEndLines_append hfirst).2 ((returnsEndLines_cons hreturn).2 hsecond)

theorem behind_double (text : List Char) : Place.quoted.behind (double text) = .quoted := by
  induction text with
  | nil => rfl
  | cons c text ih =>
    by_cases hc : c = '"'
    · subst hc
      exact ih
    · have hnext : Place.quoted.next c = .quoted := if_neg hc
      rw [double_cons hc, Place.behind_cons, hnext, ih]

theorem within_double (text : List Char) : Within .quoted (double text) := by
  induction text with
  | nil => trivial
  | cons c text ih =>
    by_cases hc : c = '"'
    · subst hc
      rw [double_cons_quote]
      exact within_cons (fun _ => rfl) (within_cons (fun heq => absurd heq (by decide)) ih)
    · have hnext : Place.quoted.next c = .quoted := if_neg hc
      rw [double_cons hc, Within, hnext]
      exact ⟨fun _ => rfl, ih⟩

theorem next_plain {p : Place} {c : Char} (hp : p = .start ∨ p = .plain) (hc : c ≠ ',' ∧ c ≠ '"') : p.next c = .plain := by
  rcases hp with rfl | rfl <;> simp [Place.next, hc.1, hc.2]

theorem behind_plain {p : Place} {text : List Char} (hp : p = .start ∨ p = .plain) (h : ∀ c ∈ text, c ≠ ',' ∧ c ≠ '"') :
    p.behind text = .start ∨ p.behind text = .plain := by
  induction text generalizing p with
  | nil => exact hp
  | cons c text ih =>
    obtain ⟨hc, htext⟩ := List.forall_mem_cons.1 h
    exact ih (.inr (next_plain hp hc)) htext

theorem within_plain {p : Place} {text : List Char} (hp : p = .start ∨ p = .plain) (h : ∀ c ∈ text, c ≠ ',' ∧ c ≠ '"') :
    Within p text ↔ ∀ c ∈ text, c ≠ '\n' ∧ c ≠ '\r' := by
  induction text generalizing p with
  | nil => exact iff_of_true trivial (List.forall_mem_nil _)
  | cons c text ih =>
    obtain ⟨hc, htext⟩ := List.forall_mem_cons.1 h
    have hnot : p ≠ .quoted := by rcases hp with rfl | rfl <;> decide
    rw [Within, next_plain hp hc, ih (.inr rfl) htext, List.forall_mem_cons, ← not_or]
    exact and_congr_left fun _ => ⟨fun hbreak hc => hnot (hbreak hc), fun hbreak hc => absurd hc hbreak⟩

/-- A field of the grammar: unquoted without a special character, or quoted with its quotes doubled, each
carriage return in front of a line feed. -/
def Field (field : List Char × Bool) : Prop := Scannable field ∧ ReturnsEndLines field.1

section
variable {field : List Char × Bool} {fields : List (List Char × Bool)}

theorem Scannable.loose (h : Scannable field) : Loose field := by
  cases h with
  | plain h => exact .plain fun c hc => ⟨(h c hc).1, (h c hc).2.1⟩
  | quoted text => exact .quoted text

theorem Loose.behind (h : Loose field) : Place.start.behind (fieldText field) ≠ .quoted := by
  cases h with
  | plain h => rcases behind_plain (.inl rfl) h with hplace | hplace <;> rw [fieldText, hplace] <;> decide
  | quoted text =>
    rw [fieldText, List.cons_append, Place.behind_cons, Place.behind_append]
    show ((Place.quoted.behind (double text)).behind ['"']) ≠ _
    rw [behind_double]
    decide

theorem Loose.field_iff (h : Loose field) :
    Within .start (fieldText field) ∧ ReturnsEndLines (fieldText field) ↔ Field field := by
  cases h with
  | @plain text h =>
    rw [fieldText, within_plain (.inl rfl) h, Field]
    refine and_congr_left fun _ => ⟨fun hbreaks => .plain fun c hc => ?_, fun hscannable c hc => ?_⟩
    · exact ⟨(h c hc).1, (h c hc).2, hbreaks c hc⟩
    · exact (hscannable.of_plain c hc).2.2
  | quoted text =>
    have hwithin : Within .start (fieldText (double text, true)) := by
      refine ⟨fun heq => absurd heq (by decide), within_append.2 ⟨within_double text, ?_⟩⟩
      exact ⟨fun heq => absurd heq (by decide), trivial⟩
    have hends : ReturnsEndLines (fieldText (double text, true)) ↔ ReturnsEndLines (double text) := by
      rw [fieldText, List.cons_append, returnsEndLines_cons (by decide), returnsEndLines_between (by decide) (by decide)]
      exact and_iff_left returnsEndLines_nil
    rw [hends, Field]
    exact and_congr_left fun _ => iff_of_true hwithin (.quoted text)

theorem recordText_iff (hne : fields ≠ []) (h : ∀ field ∈ fields, Loose field) :
    (Within .start (recordText fields) ∧ ReturnsEndLines (recordText fields) ↔ ∀ field ∈ fields, Field field) ∧
      Place.start.behind (recordText fields) ≠ .quoted := by
  induction fields with
  | nil => exact absurd rfl hne
  | cons field fields ih =>
    obtain ⟨hfield, hfields⟩ := List.forall_mem_cons.1 h
    by_cases hlast : fields = []
    · subst hlast
      exact ⟨by rw [List.forall_mem_singleton]; exact hfield.field_iff, hfield.behind⟩
    · obtain ⟨ihFields, ihBehind⟩ := ih hlast hfields
      have hstart : (Place.start.behind (fieldText field)).next ',' = .start := by
        have hplace := hfield.behind
        revert hplace
        cases Place.start.behind (fieldText field) <;> intro hplace <;> first | rfl | exact absurd rfl hplace
      rw [recordText_cons field hlast, Place.behind_append, Place.behind_cons, hstart, within_append, Within, hstart,
        returnsEndLines_between (by decide) (by decide), List.forall_mem_cons, ← hfield.field_iff, ← ihFields]
      refine ⟨⟨fun h => ⟨⟨h.1.1, h.2.1⟩, h.1.2.2, h.2.2⟩, fun h => ⟨⟨h.1.1, ?_, h.2.1⟩, h.1.2, h.2.2⟩⟩, ihBehind⟩
      exact fun heq => absurd heq (by decide)

end

/-! ## All records -/

structure ScannedRecord where
  line : Nat
  record : List Char
  fields : List (List Char × Bool)
  deriving DecidableEq

/-- `DataRecords` with `scan_record` on each record; every record takes at least one character. -/
def scanRecords : (fuel : Nat) → (line : Nat) → List Char → Exec CsvIngestError (List ScannedRecord)
  | 0, _, input => if input = [] then .ok [] else .panic
  | fuel + 1, line, input =>
    if input = [] then .ok []
    else do
      let r ← nextRecord line true false input
      let fields ← scanRecord line 1 r.record
      let records ← scanRecords fuel r.nextLine r.rest
      .ok (⟨line, r.record, fields⟩ :: records)

/-- Records of some fields with their line endings, one behind the other, up to what comes at the end. -/
inductive Splits (F : List Char × Bool → Prop) (T : Nat → List Char → List ScannedRecord → Prop) :
    Nat → List Char → List ScannedRecord → Prop where
  | tail {line : Nat} {input : List Char} {records : List ScannedRecord} : T line input records → Splits F T line input records
  | line {line : Nat} {fields : List (List Char × Bool)} {ending input : List Char} {records : List ScannedRecord} :
      fields ≠ [] → (∀ field ∈ fields, F field) → Ending ending →
      Splits F T (lineBehind line (recordText fields ++ ending)) input records →
      Splits F T line (recordText fields ++ (ending ++ input)) (⟨line, recordText fields, fields⟩ :: records)

/-- The end of an input: nothing, or a last record without a line ending. -/
def Ends (F : List Char × Bool → Prop) (line : Nat) (input : List Char) (records : List ScannedRecord) : Prop :=
  (input = [] ∧ records = []) ∨ ∃ fields, fields ≠ [] ∧ (∀ field ∈ fields, F field) ∧ input = recordText fields ∧
    input ≠ [] ∧ records = [⟨line, input, fields⟩]

/-- **The grammar** of an input whose first record is on a line. -/
abbrev Grammar (F : List Char × Bool → Prop) (line : Nat) (input : List Char) (records : List ScannedRecord) : Prop :=
  Splits F (Ends F) line input records

/-- A carriage return within the first record of an input that does not end a line. -/
def BareReturn (e : CsvIngestError) (line : Nat) (input : List Char) : Prop :=
  ∃ text rest, input = text ++ '\r' :: rest ∧ rest.head? ≠ some '\n' ∧ Within .start text ∧
    e = .invalidLineEnding (lineBehind line text)

/-- A misplaced quote in one of the columns of the first record of an input. -/
def BadQuote (e : CsvIngestError) (line : Nat) (input : List Char) : Prop :=
  ∃ record behind column, input = record ++ behind ∧ Within .start record ∧
    (behind = [] ∨ Place.start.behind record ≠ .quoted ∧ ∃ ending rest, behind = ending ++ rest ∧ Ending ending) ∧
    1 ≤ column ∧ column ≤ 1 + record.count ',' ∧ e = .malformedQuoting line column

def Offends (e : CsvIngestError) (line : Nat) (input : List Char) (records : List ScannedRecord) : Prop :=
  records = [] ∧ (BareReturn e line input ∨ BadQuote e line input)

def Outcome (line : Nat) (input : List Char) : Exec CsvIngestError (List ScannedRecord) → Prop
  | .ok records => Grammar Field line input records
  | .error e => ∃ records, Splits Field (Offends e) line input records
  | .panic => False

theorem one_le_usizeMax : 1 ≤ usizeMax := by decide

theorem fields_of_scan {line : Nat} {text : List Char} {fields : List (List Char × Bool)} (hwithin : Within .start text)
    (hends : ReturnsEndLines text) (hscan : scanRecord line 1 text = .ok fields) :
    fields ≠ [] ∧ (∀ field ∈ fields, Field field) ∧ text = recordText fields ∧ Place.start.behind text ≠ .quoted := by
  have hscans := scanRecord_scans line one_le_usizeMax text
  rw [hscan] at hscans
  obtain ⟨hne, hloose, rfl⟩ := hscans
  obtain ⟨hfields, hbehind⟩ := recordText_iff hne hloose
  exact ⟨hne, hfields.1 ⟨hwithin, hends⟩, rfl, hbehind⟩

theorem badQuote_of_scan {line : Nat} {text behind : List Char} {e : CsvIngestError} (hwithin : Within .start text)
    (hbehind : behind = [] ∨ Place.start.behind text ≠ .quoted ∧ ∃ ending rest, behind = ending ++ rest ∧ Ending ending)
    (hscan : scanRecord line 1 text = .error e) : BadQuote e line (text ++ behind) := by
  have hscans := scanRecord_scans line one_le_usizeMax text
  rw [hscan] at hscans
  obtain ⟨column, rfl, hfirst, hlast⟩ := hscans
  exact ⟨text, behind, column, rfl, hwithin, hbehind, hfirst, hlast, rfl⟩

theorem scanRecord_ne_panic (line : Nat) (text : List Char) : scanRecord line 1 text ≠ .panic := by
  intro hpanic
  have hscans := scanRecord_scans line one_le_usizeMax text
  rw [hpanic] at hscans
  exact hscans

theorem scanRecords_outcome {fuel line : Nat} {input : List Char} (hline : line ≤ usizeMax) (hfuel : input.length ≤ fuel) :
    Outcome line input (scanRecords fuel line input) := by
  induction fuel generalizing line input with
  | zero =>
    obtain rfl := List.eq_nil_of_length_eq_zero (Nat.le_zero.1 hfuel)
    exact .tail (.inl ⟨rfl, rfl⟩)
  | succ fuel ih =>
    by_cases hempty : input = []
    · subst hempty
      exact .tail (.inl ⟨rfl, rfl⟩)
    · rw [scanRecords, if_neg hempty]
      obtain ⟨text, more, rfl, hwithin, hends, hstops⟩ := exists_within .start input
      cases hstops with
      | bare hrest =>
        rw [nextRecord_bare hline hwithin hends hrest]
        exact ⟨[], .tail ⟨rfl, .inl ⟨text, _, rfl, hrest, hwithin, rfl⟩⟩⟩
      | done =>
        rw [List.append_nil] at hempty hfuel ⊢
        rw [nextRecord_all hline hwithin hends, Exec.ok_bind]
        cases hscan : scanRecord line 1 text with
        | panic => exact absurd hscan (scanRecord_ne_panic line text)
        | error e =>
          have hbad : BadQuote e line (text ++ []) := badQuote_of_scan hwithin (.inl rfl) hscan
          rw [List.append_nil] at hbad
          exact ⟨[], .tail ⟨rfl, .inr hbad⟩⟩
        | ok fields =>
          obtain ⟨hne, hfields, htext, _⟩ := fields_of_scan hwithin hends hscan
          have hrest : scanRecords fuel (lineBehind line text) [] = .ok [] := by cases fuel <;> rfl
          rw [Exec.ok_bind, hrest]
          exact .tail (.inr ⟨fields, hne, hfields, htext, hempty, rfl⟩)
      | line ending rest houtside hending =>
        have hshorter : rest.length ≤ fuel := by
          have hlong : 1 ≤ ending.length := by rcases hending with rfl | rfl <;> decide
          rw [List.length_append, List.length_append] at hfuel
          omega
        rw [nextRecord_line hline hwithin hends houtside hending, Exec.ok_bind]
        cases hscan : scanRecord line 1 text with
        | panic => exact absurd hscan (scanRecord_ne_panic line text)
        | error e =>
          exact ⟨[], .tail ⟨rfl, .inr (badQuote_of_scan hwithin (.inr ⟨houtside, ending, rest, rfl, hending⟩) hscan)⟩⟩
        | ok fields =>
          obtain ⟨hne, hfields, rfl, _⟩ := fields_of_scan hwithin hends hscan
          have hrest := ih (lineBehind_le line (recordText fields ++ ending)) hshorter
          dsimp only
          rw [Exec.ok_bind]
          revert hrest
          cases scanRecords fuel (lineBehind line (recordText fields ++ ending)) rest <;> intro hrest
          · exact .line hne hfields hending hrest
          · obtain ⟨records, hrest⟩ := hrest
            exact ⟨_, .line hne hfields hending hrest⟩
          · exact hrest

theorem scanRecords_grammar {fuel line : Nat} {input : List Char} {records : List ScannedRecord} (hline : line ≤ usizeMax)
    (hfuel : input.length ≤ fuel) (h : Grammar Field line input records) : scanRecords fuel line input = .ok records := by
  induction h generalizing fuel with
  | @tail line input records hends =>
    rcases hends with ⟨rfl, rfl⟩ | ⟨fields, hne, hfields, rfl, hempty, rfl⟩
    · cases fuel <;> rfl
    · obtain ⟨fuel, rfl⟩ : ∃ n, fuel = n + 1 :=
        Nat.exists_eq_add_one.2 (Nat.lt_of_lt_of_le (List.length_pos_iff.2 hempty) hfuel)
      obtain ⟨hplaces, _⟩ := recordText_iff hne fun field hfield => (hfields field hfield).1.loose
      obtain ⟨hwithin, hreturns⟩ := hplaces.2 hfields
      have hrest : scanRecords fuel (lineBehind line (recordText fields)) [] = .ok [] := by cases fuel <;> rfl
      rw [scanRecords, if_neg hempty, nextRecord_all hline hwithin hreturns, Exec.ok_bind]
      dsimp only
      rw [recordText, scanRecord_join (fun field hfield => (hfields field hfield).1) hne, Exec.ok_bind]
      rw [recordText] at hrest
      rw [hrest]
      rfl
  | @line line fields ending input records hne hfields hending _ ih =>
    have hlong : 1 ≤ ending.length := by rcases hending with rfl | rfl <;> decide
    rw [List.length_append, List.length_append] at hfuel
    obtain ⟨fuel, rfl⟩ : ∃ n, fuel = n + 1 := Nat.exists_eq_add_one.2 (by omega)
    have hempty : recordText fields ++ (ending ++ input) ≠ [] := by
      refine List.append_ne_nil_of_right_ne_nil _ (List.append_ne_nil_of_left_ne_nil ?_ _)
      exact List.length_pos_iff.1 hlong
    obtain ⟨hplaces, hbehind⟩ := recordText_iff hne fun field hfield => (hfields field hfield).1.loose
    obtain ⟨hwithin, hreturns⟩ := hplaces.2 hfields
    have hrest := @ih fuel (lineBehind_le _ _) (by omega)
    have hscan := scanRecord_join (fun field hfield => (hfields field hfield).1) hne line 1
    rw [scanRecords, if_neg hempty, nextRecord_line hline hwithin hreturns hbehind hending, Exec.ok_bind]
    dsimp only
    rw [show scanRecord line 1 (recordText fields) = .ok fields from hscan, Exec.ok_bind, hrest]
    rfl

theorem Splits.partition {F : List Char × Bool → Prop} {line : Nat} {input : List Char} {records : List ScannedRecord}
    (h : Grammar F line input records) : ∃ endings : List (List Char), endings.length = records.length ∧
      (∀ ending ∈ endings, ending = [] ∨ Ending ending) ∧
      input = (records.zip endings).flatMap fun p => p.1.record ++ p.2 := by
  induction h with
  | tail hends =>
    rcases hends with ⟨rfl, rfl⟩ | ⟨fields, _, _, rfl, _, rfl⟩
    · exact ⟨[], rfl, List.forall_mem_nil _, rfl⟩
    · exact ⟨[[]], rfl, List.forall_mem_singleton.2 (.inl rfl), by simp⟩
  | @line _ _ ending _ _ _ _ hending _ ih =>
    obtain ⟨endings, hlength, hendings, rfl⟩ := ih
    refine ⟨ending :: endings, congrArg Nat.succ hlength, List.forall_mem_cons.2 ⟨.inr hending, hendings⟩, ?_⟩
    rw [List.zip_cons_cons, List.flatMap_cons, List.append_assoc]

def scanInput (firstLine : Nat) (input : Bytes) : Exec CsvIngestError (List ScannedRecord) := do
  let text ← decodeInput .invalidUtf8 input
  scanRecords text.length firstLine text

/-- **CSV records.** What is accepted is the grammar, with its fields and the lines of its records, which with their
line endings are the input. An error names a place in the first record that is not one: the line of a carriage
return in it, or its own line and one of its columns. -/
theorem csv_records {firstLine : Nat} (hline : firstLine ≤ usizeMax) (input : Bytes) :
    (∀ records, scanInput firstLine input = .ok records ↔
      ∃ text : String, input = utf8 text ∧ Grammar Field firstLine text.toList records) ∧
    (∀ records, scanInput firstLine input = .ok records → ∃ text : String, input = utf8 text ∧
      ∃ endings : List (List Char), endings.length = records.length ∧
        (∀ ending ∈ endings, ending = [] ∨ Ending ending) ∧
        text.toList = (records.zip endings).flatMap fun p => p.1.record ++ p.2) ∧
    (∀ e, scanInput firstLine input = .error e →
      (fromUtf8 input = none ∧ ∃ validUpTo, e = .invalidUtf8 validUpTo) ∨
      ∃ (text : String) (records : List ScannedRecord), input = utf8 text ∧
        Splits Field (Offends e) firstLine text.toList records) ∧
    scanInput firstLine input ≠ .panic := by
  have hok : ∀ records, scanInput firstLine input = .ok records ↔
      ∃ text : String, input = utf8 text ∧ Grammar Field firstLine text.toList records := by
    intro records
    constructor
    · intro h
      obtain ⟨chars, hdecode, hscan⟩ := Exec.bind_eq_ok.1 h
      cases htext : fromUtf8 input with
      | none =>
        rw [decodeInput, htext] at hdecode
        cases hdecode
      | some text =>
        rw [decodeInput, htext] at hdecode
        obtain rfl := Exec.ok.inj hdecode
        have houtcome := scanRecords_outcome hline (Nat.le_refl text.toList.length)
        rw [hscan] at houtcome
        exact ⟨text, (utf8_of_fromUtf8 htext).symm, houtcome⟩
    · rintro ⟨text, rfl, hgrammar⟩
      rw [scanInput, decodeInput, fromUtf8_utf8, Exec.ok_bind]
      exact scanRecords_grammar hline (Nat.le_refl _) hgrammar
  refine ⟨hok, fun records h => ?_, fun e h => ?_, fun h => ?_⟩
  · obtain ⟨text, hinput, hgrammar⟩ := (hok records).1 h
    exact ⟨text, hinput, hgrammar.partition⟩
  · cases htext : fromUtf8 input with
    | none =>
      rw [scanInput, decodeInput, htext] at h
      exact .inl ⟨rfl, _, (Exec.error.inj h).symm⟩
    | some text =>
      rw [scanInput, decodeInput, htext, Exec.ok_bind] at h
      have houtcome := scanRecords_outcome hline (Nat.le_refl text.toList.length)
      rw [h] at houtcome
      obtain ⟨records, hsplits⟩ := houtcome
      exact .inr ⟨text, records, (utf8_of_fromUtf8 htext).symm, hsplits⟩
  · cases htext : fromUtf8 input with
    | none =>
      rw [scanInput, decodeInput, htext] at h
      cases h
    | some text =>
      rw [scanInput, decodeInput, htext, Exec.ok_bind] at h
      have houtcome := scanRecords_outcome hline (Nat.le_refl text.toList.length)
      rw [h] at houtcome
      exact houtcome

/-- Two records, the second of them quoted with a line break in it. -/
def recordsSample : List ScannedRecord :=
  [⟨1, "a,b".toList, [("a".toList, false), ("b".toList, false)]⟩, ⟨2, "\"c\nd\"".toList, [("c\nd".toList, true)]⟩]

theorem csv_records_sample : scanInput 1 (utf8 "a,b\r\n\"c\nd\"") = .ok recordsSample ∧
    ∃ text : String, utf8 "a,b\r\n\"c\nd\"" = utf8 text ∧ Grammar Field 1 text.toList recordsSample := by
  have hscan : scanInput 1 (utf8 "a,b\r\n\"c\nd\"") = .ok recordsSample := by
    rw [scanInput, decodeInput, fromUtf8_utf8, Exec.ok_bind]
    decide +kernel
  exact ⟨hscan, ((csv_records one_le_usizeMax _).1 recordsSample).1 hscan⟩

/-- A quoted field with a carriage return alone in it is one of the grammar without the last rule, and refused. -/
theorem bare_return_refused :
    Grammar Scannable 1 "\"a\rb\"".toList [⟨1, "\"a\rb\"".toList, [("a\rb".toList, true)]⟩] ∧
      scanInput 1 (utf8 "\"a\rb\"") = .error (.invalidLineEnding 1) := by
  refine ⟨.tail (.inr ⟨[("a\rb".toList, true)], List.cons_ne_nil _ _, ?_, by decide +kernel, by decide +kernel, rfl⟩), ?_⟩
  · exact List.forall_mem_singleton.2 (.quoted "a\rb".toList)
  · rw [scanInput, decodeInput, fromUtf8_utf8, Exec.ok_bind]
    decide +kernel

end Csv

end RustHouse.Batch
