import RustHouse.OneColumnGrammar

/-!
# Lexemes in a text

A text that is written of lexemes is read in one way: whitespace is skipped as far
as it goes, and a word ends where none goes on. What a language may begin with
is read off its first terminals.
-/

namespace RustHouse.OneColumn

open Decimal (Numeral)
open Exec Scanning TextPositions Words
open Batch (eqIgnoreAsciiCase)

/-! ## Classes of characters -/

theorem classifies_whitespace : Classifies isAsciiWhitespace isBlank :=
  ((((classifies_byte (by decide)).or (classifies_byte (by decide))).or (classifies_byte (by decide))).or
    (classifies_byte (by decide))).or (classifies_byte (by decide))

theorem classifies_digit : Classifies isAsciiDigit Char.isDigit := @classifies_range '0' '9' (by decide) (by decide)

theorem isAlpha_eq : Char.isAlpha = fun c => decide ('A' ≤ c) && decide (c ≤ 'Z') || decide ('a' ≤ c) && decide (c ≤ 'z') := by
  funext c
  have hupper : c.isUpper = (decide ('A' ≤ c) && decide (c ≤ 'Z')) := Bool.decide_and _ _
  have hlower : c.isLower = (decide ('a' ≤ c) && decide (c ≤ 'z')) := rfl
  exact congrArg₂ or hupper hlower

theorem classifies_alphabetic : Classifies isAsciiAlphabetic Char.isAlpha := by
  rw [isAlpha_eq]
  exact (@classifies_range 'A' 'Z' (by decide) (by decide)).or (@classifies_range 'a' 'z' (by decide) (by decide))

theorem classifies_wordStart : Classifies isIdentifierStart isWordStart :=
  classifies_alphabetic.or (classifies_byte (by decide))

theorem classifies_wordChar : Classifies isIdentifierContinue isWordChar :=
  (classifies_alphabetic.or classifies_digit).or (classifies_byte (by decide))

theorem classifies_sign : Classifies isSign (fun c => c = '+' || c = '-') :=
  (classifies_byte (by decide)).or (classifies_byte (by decide))

theorem classifies_operator : Classifies isComparisonOperatorByte (fun c => c = '=' || c = '!' || c = '<' || c = '>') :=
  (((classifies_byte (by decide)).or (classifies_byte (by decide))).or (classifies_byte (by decide))).or
    (classifies_byte (by decide))

theorem classifies_terminator : Classifies isTerminator (fun c => isBlank c || c = ';') :=
  classifies_whitespace.or (classifies_byte (by decide))

theorem isWordChar_of_start {c : Char} (h : isWordStart c = true) : isWordChar c = true := by
  simp only [isWordStart, isWordChar, Bool.or_eq_true] at h ⊢
  rcases h with h | h
  · exact .inl (.inl h)
  · exact .inr h

theorem not_wordChar_of_blank {c : Char} (h : isBlank c = true) : isWordChar c = false := by
  simp only [isBlank, Bool.or_eq_true, decide_eq_true_eq] at h
  rcases h with (((rfl | rfl) | rfl) | rfl) | rfl <;> rfl

theorem not_blank_of_wordChar {c : Char} (h : isWordChar c = true) : isBlank c = false := by
  refine Bool.eq_false_of_not_eq_true fun hblank => ?_
  rw [not_wordChar_of_blank hblank] at h
  cases h

theorem toNat_of_wordChar {c : Char} (h : isWordChar c = true) : c.toNat < 128 := by
  simp only [isWordChar, isAlpha_eq, Char.isDigit, Bool.or_eq_true, Bool.and_eq_true, decide_eq_true_eq, Char.le_def,
    UInt32.le_iff_toNat_le, ge_iff_le] at h
  change (((65 ≤ c.toNat ∧ c.toNat ≤ 90) ∨ (97 ≤ c.toNat ∧ c.toNat ≤ 122)) ∨ 48 ≤ c.toNat ∧ c.toNat ≤ 57) ∨ c = '_' at h
  rcases h with h | h
  · omega
  · subst h
    decide

theorem utf8Size_of_wordChar {c : Char} (h : isWordChar c = true) : c.utf8Size = 1 := by
  rw [Char.utf8Size_eq_one_iff, UInt32.le_iff_toNat_le]
  exact Nat.le_of_lt_succ (toNat_of_wordChar h)

/-! ## Spacing -/

def WordEnds (text : List Char) : Prop := ∀ c ∈ text.head?, isWordChar c = false

def Begins : List Lexeme → List Char → Prop
  | [], text => text = []
  | l :: ls, text => ∃ rest, text = l.chars ++ rest ∧ Written l.edge ls rest

section
variable {edge : Edge} {l : Lexeme} {ls : List Lexeme} {text rest : List Char} {c : Char} {w : Word}

theorem Word.isWordChar_of_mem (w : Word) : ∀ c ∈ w.chars, isWordChar c = true :=
  List.forall_mem_cons.2 ⟨isWordChar_of_start w.starts, w.continues⟩

theorem WordEnds.takeWhile (w : Word) (h : WordEnds rest) :
    (w.chars ++ rest).takeWhile isWordChar = w.chars ∧ (w.chars ++ rest).dropWhile isWordChar = rest := by
  rw [List.takeWhile_append_of_pos w.isWordChar_of_mem, List.dropWhile_append_of_pos w.isWordChar_of_mem]
  cases rest with
  | nil => simp
  | cons c rest =>
    have hc : ¬ isWordChar c = true := by
      rw [h c rfl]
      exact Bool.false_ne_true
    rw [List.takeWhile_cons_of_neg hc, List.dropWhile_cons_of_neg hc, List.append_nil]
    exact ⟨rfl, rfl⟩

theorem head_dropWhile {p : Char → Bool} (text : List Char) : ∀ c ∈ (text.dropWhile p).head?, p c = false := by
  intro c hc
  have h := List.head?_dropWhile_not p text
  rw [Option.mem_def.1 hc] at h
  simpa using h

theorem word_or (text : List Char) :
    (text.head?.any isWordStart = false) ∨ ∃ (w : Word) (rest : List Char), text = w.chars ++ rest ∧ WordEnds rest := by
  cases text with
  | nil => exact .inl rfl
  | cons c text =>
    by_cases hc : isWordStart c = true
    · refine .inr ⟨⟨c, text.takeWhile isWordChar, hc, fun d hd => List.all_eq_true.1 List.all_takeWhile d hd⟩,
        text.dropWhile isWordChar, ?_, ?_⟩
      · rw [Word.chars, List.cons_append, List.takeWhile_append_dropWhile]
      · exact head_dropWhile text
    · exact .inl (Bool.eq_false_of_not_eq_true hc)

theorem Lexeme.head (l : Lexeme) : ∃ c rest, l.chars = c :: rest ∧ isBlank c = false ∧
    (isWordChar c = true → l.edge = .word) ∧ (isWordStart c = true → ∃ w, l = .word w) := by
  cases l with
  | word w =>
    exact ⟨w.head, w.tail, rfl, not_blank_of_wordChar (isWordChar_of_start w.starts), fun _ => rfl, fun _ => ⟨w, rfl⟩⟩
  | number n =>
    have hdigit : ∀ c : Char, c.isDigit = true → isBlank c = false ∧ isWordStart c = false := by
      intro c hc
      refine ⟨not_blank_of_wordChar ?_, ?_⟩
      · simp [isWordChar, hc]
      · have hbounds := Decimal.digit_bounds hc
        refine Bool.eq_false_of_not_eq_true fun hstart => ?_
        simp only [isWordStart, isAlpha_eq, Bool.or_eq_true, Bool.and_eq_true, decide_eq_true_eq, Char.le_def,
          UInt32.le_iff_toNat_le] at hstart
        change ((65 ≤ c.toNat ∧ c.toNat ≤ 90) ∨ (97 ≤ c.toNat ∧ c.toNat ≤ 122)) ∨ c = '_' at hstart
        rcases hstart with hstart | rfl
        · omega
        · exact absurd hc (by decide)
    cases hsign : n.sign with
    | none =>
      cases hdigits : n.digits with
      | nil => exact absurd hdigits n.digits_ne_nil
      | cons c digits =>
        obtain ⟨hblank, hstart⟩ := hdigit c (n.isDigit c (hdigits ▸ List.mem_cons_self ..))
        refine ⟨c, digits, ?_, hblank, fun _ => rfl, fun h => ?_⟩
        · rw [Lexeme.chars, Numeral.chars, hsign, hdigits]
          rfl
        · rw [hstart] at h
          cases h
    | some sign =>
      refine ⟨sign.text, n.digits, ?_, ?_, fun _ => rfl, fun h => ?_⟩
      · rw [Lexeme.chars, Numeral.chars, hsign]
        rfl
      · cases sign <;> rfl
      · cases sign <;> cases h
  | symbol s =>
    cases s <;> exact ⟨_, _, rfl, rfl, nofun, nofun⟩

theorem written_iff : Written edge ls text ↔ ∃ gap rest, text = gap ++ rest ∧ Blank gap ∧
    (∀ l ∈ ls.head?, edge.NeedsGap l → gap ≠ []) ∧ Begins ls rest := by
  cases ls with
  | nil =>
    rw [Written]
    constructor
    · intro h
      exact ⟨text, [], (List.append_nil _).symm, h, nofun, rfl⟩
    · intro hgiven
      obtain ⟨gap, rest, htext, hgap, _, hrest⟩ := hgiven
      rw [Begins] at hrest
      rw [htext, hrest, List.append_nil]
      exact hgap
  | cons l ls =>
    rw [Written]
    constructor
    · intro hgiven
      obtain ⟨gap, rest, htext, hgap, hneeds, hrest⟩ := hgiven
      refine ⟨gap, l.chars ++ rest, htext, hgap, ?_, rest, rfl, hrest⟩
      intro l' hl'
      cases hl'
      exact hneeds
    · intro hgiven
      obtain ⟨gap, rest, htext, hgap, hneeds, rest', hrest, hwritten⟩ := hgiven
      exact ⟨gap, rest', hrest ▸ htext, hgap, hneeds l rfl, hwritten⟩

theorem Begins.head (h : Begins ls text) : ∀ c ∈ text.head?, isBlank c = false := by
  cases ls with
  | nil =>
    rw [Begins] at h
    subst h
    exact nofun
  | cons l ls =>
    obtain ⟨rest, rfl, _⟩ := h
    obtain ⟨c, chars, hchars, hblank, _⟩ := l.head
    rw [hchars]
    intro d hd
    cases hd
    exact hblank

theorem written_iff_dropWhile : Written edge ls text ↔
    (∀ l ∈ ls.head?, edge.NeedsGap l → text.takeWhile isBlank ≠ []) ∧ Begins ls (text.dropWhile isBlank) := by
  rw [written_iff]
  constructor
  · intro hgiven
    obtain ⟨gap, rest, htext, hgap, hneeds, hbegins⟩ := hgiven
    have hsplit : text.takeWhile isBlank = gap ∧ text.dropWhile isBlank = rest := by
      rw [htext, List.takeWhile_append_of_pos hgap, List.dropWhile_append_of_pos hgap]
      cases rest with
      | nil => simp
      | cons c rest =>
        have hc : ¬ isBlank c = true := by
          rw [hbegins.head c rfl]
          exact Bool.false_ne_true
        rw [List.takeWhile_cons_of_neg hc, List.dropWhile_cons_of_neg hc, List.append_nil]
        exact ⟨rfl, rfl⟩
    rw [hsplit.1, hsplit.2]
    exact ⟨hneeds, hbegins⟩
  · intro hgiven
    obtain ⟨hneeds, hbegins⟩ := hgiven
    exact ⟨_, _, List.takeWhile_append_dropWhile.symm, fun c hc => List.all_eq_true.1 List.all_takeWhile c hc, hneeds, hbegins⟩

theorem takeWhile_eq_nil (h : ∀ c ∈ text.head?, isBlank c = false) :
    text.takeWhile isBlank = [] ∧ text.dropWhile isBlank = text := by
  cases text with
  | nil => exact ⟨rfl, rfl⟩
  | cons c text =>
    have hc : ¬ isBlank c = true := by
      rw [h c rfl]
      exact Bool.false_ne_true
    exact ⟨List.takeWhile_cons_of_neg hc, List.dropWhile_cons_of_neg hc⟩

theorem wordEnds_of_blank (h : text.takeWhile isBlank ≠ []) : WordEnds text := by
  cases text with
  | nil => exact nofun
  | cons c text =>
    intro d hd
    cases hd
    refine not_wordChar_of_blank ?_
    by_cases hc : isBlank c = true
    · exact hc
    · rw [List.takeWhile_cons_of_neg hc] at h
      exact absurd rfl h

theorem wordEnds_of_written (h : Written .word ls text) : WordEnds text := by
  obtain ⟨hneeds, hbegins⟩ := written_iff_dropWhile.1 h
  by_cases hgap : text.takeWhile isBlank = []
  · have hdrop := List.takeWhile_append_dropWhile (p := isBlank) (l := text)
    rw [hgap, List.nil_append] at hdrop
    rw [hdrop] at hbegins
    cases ls with
    | nil =>
      rw [Begins] at hbegins
      subst hbegins
      exact nofun
    | cons l ls =>
      obtain ⟨rest, rfl, _⟩ := hbegins
      obtain ⟨c, chars, hchars, _, hword, _⟩ := l.head
      intro d hd
      rw [hchars] at hd
      cases hd
      refine Bool.eq_false_of_not_eq_true fun hc => hneeds l rfl ?_ hgap
      have hedge := hword hc
      cases l with
      | word w => trivial
      | number n => trivial
      | symbol s => cases s <;> cases hedge
  · exact wordEnds_of_blank hgap

theorem begins_word_iff (h : WordEnds rest) :
    Begins ls (w.chars ++ rest) ↔ ∃ ls', ls = .word w :: ls' ∧ Written .word ls' rest := by
  constructor
  · intro hbegins
    cases ls with
    | nil =>
      rw [Begins, List.append_eq_nil_iff] at hbegins
      cases hbegins.1
    | cons l ls =>
      obtain ⟨rest', htext, hwritten⟩ := hbegins
      obtain ⟨c, chars, hchars, _, _, hstart⟩ := l.head
      have hc : c = w.head := by
        rw [hchars, Word.chars] at htext
        exact (List.cons.inj htext).1.symm
      obtain ⟨w', rfl⟩ := hstart (hc ▸ w.starts)
      have hends := wordEnds_of_written hwritten
      have htake := (h.takeWhile w).1
      have hdrop := (h.takeWhile w).2
      rw [htext] at htake hdrop
      have hw : w'.chars = w.chars := (hends.takeWhile w').1.symm.trans htake
      have hrest : rest' = rest := (hends.takeWhile w').2.symm.trans hdrop
      subst hrest
      obtain ⟨head, tail, _, _⟩ := w
      obtain ⟨head', tail', _, _⟩ := w'
      obtain ⟨rfl, rfl⟩ := List.cons.inj hw
      exact ⟨ls, rfl, hwritten⟩
  · intro hgiven
    obtain ⟨ls', hls, hwritten⟩ := hgiven
    subst hls
    exact ⟨rest, rfl, hwritten⟩

theorem begins_word {w' : Word} (h : WordEnds rest) (hbegins : Begins (.word w' :: ls) (w.chars ++ rest)) :
    w' = w ∧ Written .word ls rest := by
  obtain ⟨ls', hls, hwritten⟩ := (begins_word_iff h).1 hbegins
  cases hls
  exact ⟨rfl, hwritten⟩

theorem not_begins_word (h : text.head?.any isWordStart = false) : ¬ Begins (.word w :: ls) text := by
  intro hgiven
  obtain ⟨rest, htext, _⟩ := hgiven
  rw [htext] at h
  have : isWordStart w.head = false := h
  rw [w.starts] at this
  cases this

end

/-! ## Languages of lexemes -/

/-- What the sentences of a language may begin with. -/
def Heads (C : Option Lexeme → Prop) (l : Language Lexeme) : Prop := ∀ ls ∈ l, C ls.head?

/-- The part of a language whose trees meet a condition. -/
def when {τ : Type} (P : τ → Prop) (L : τ → Language Lexeme) (t : τ) : Language Lexeme := {ls | P t ∧ ls ∈ L t}

section
variable {τ : Type} {P : τ → Prop} {L : τ → Language Lexeme} {C : Option Lexeme → Prop} {l m : Language Lexeme}
  {ls : List Lexeme} {expected name : String} {maxIdentifierBytes : Nat} {s : Symbol} {value : Int64} {n : Nat}

theorem mem_when {t : τ} : ls ∈ when P L t ↔ P t ∧ ls ∈ L t := Iff.rfl

theorem mem_keyword_mul : ls ∈ keyword expected * l ↔
    ∃ (w : Word) (rest : List Lexeme), ls = .word w :: rest ∧ eqIgnoreAsciiCase w.text expected = true ∧ rest ∈ l := by
  rw [Language.mem_mul]
  constructor
  · intro hgiven
    obtain ⟨_, ⟨w, hw, ha⟩, rest, hrest, hls⟩ := hgiven
    subst ha
    exact ⟨w, rest, hls.symm, hw, hrest⟩
  · intro hgiven
    obtain ⟨w, rest, hls, hw, hrest⟩ := hgiven
    exact ⟨[.word w], ⟨w, hw, rfl⟩, rest, hrest, hls.symm⟩

theorem mem_identifier_mul : ls ∈ identifier maxIdentifierBytes name * l ↔ ∃ (w : Word) (rest : List Lexeme),
    ls = .word w :: rest ∧ w.text = name ∧ (utf8 name).length ≤ maxIdentifierBytes ∧ rest ∈ l := by
  rw [Language.mem_mul]
  constructor
  · intro hgiven
    obtain ⟨_, ⟨w, hw, hbound, ha⟩, rest, hrest, hls⟩ := hgiven
    subst ha
    exact ⟨w, rest, hls.symm, hw, hbound, hrest⟩
  · intro hgiven
    obtain ⟨w, rest, hls, hw, hbound, hrest⟩ := hgiven
    exact ⟨[.word w], ⟨w, hw, hbound, rfl⟩, rest, hrest, hls.symm⟩

theorem mem_mark_mul : ls ∈ mark s * l ↔ ∃ rest, ls = .symbol s :: rest ∧ rest ∈ l := by
  rw [Language.mem_mul]
  constructor
  · intro hgiven
    obtain ⟨_, ha, rest, hrest, hls⟩ := hgiven
    have ha : _ = [Lexeme.symbol s] := ha
    subst ha
    exact ⟨rest, hls.symm, hrest⟩
  · intro hgiven
    obtain ⟨rest, hls, hrest⟩ := hgiven
    exact ⟨[.symbol s], rfl, rest, hrest, hls.symm⟩

theorem mem_int64_mul : ls ∈ int64 value * l ↔
    ∃ (n : Numeral) (rest : List Lexeme), ls = .number n :: rest ∧ n.value = value.toInt ∧ rest ∈ l := by
  rw [Language.mem_mul]
  constructor
  · intro hgiven
    obtain ⟨_, ⟨n, hn, ha⟩, rest, hrest, hls⟩ := hgiven
    subst ha
    exact ⟨n, rest, hls.symm, hn, hrest⟩
  · intro hgiven
    obtain ⟨n, rest, hls, hn, hrest⟩ := hgiven
    exact ⟨[.number n], ⟨n, hn, rfl⟩, rest, hrest, hls.symm⟩

theorem mem_unsignedInteger_mul : ls ∈ unsignedInteger n * l ↔ ∃ (m : Numeral) (rest : List Lexeme),
    ls = .number m :: rest ∧ m.sign = none ∧ m.value = n ∧ n ≤ Checked.usizeMax ∧ rest ∈ l := by
  rw [Language.mem_mul]
  constructor
  · intro hgiven
    obtain ⟨_, ⟨m, hsign, hm, hmax, ha⟩, rest, hrest, hls⟩ := hgiven
    subst ha
    exact ⟨m, rest, hls.symm, hsign, hm, hmax, hrest⟩
  · intro hgiven
    obtain ⟨m, rest, hls, hsign, hm, hmax, hrest⟩ := hgiven
    exact ⟨[.number m], ⟨m, hsign, hm, hmax, rfl⟩, rest, hrest, hls.symm⟩

theorem heads_keyword (h : ∀ w : Word, eqIgnoreAsciiCase w.text expected = true → C (some (.word w))) :
    Heads C (keyword expected * l) := by
  intro ls hls
  obtain ⟨w, rest, rfl, hw, _⟩ := mem_keyword_mul.1 hls
  exact h w hw

theorem heads_mark (h : C (some (.symbol s))) : Heads C (mark s * l) := by
  intro ls hls
  obtain ⟨rest, rfl, _⟩ := mem_mark_mul.1 hls
  exact h

theorem heads_one (h : C none) : Heads C (1 : Language Lexeme) := by
  intro ls hls
  rw [(Language.mem_one ls).1 hls]
  exact h

theorem Heads.add (hl : Heads C l) (hm : Heads C m) : Heads C (l + m) := by
  intro ls hls
  rcases (Language.mem_add ..).1 hls with hls | hls
  · exact hl ls hls
  · exact hm ls hls

theorem heads_when (h : ∀ t, Heads C (L t)) (t : τ) : Heads C (when P L t) := fun ls hls => h t ls hls.2

theorem when_mul {k : Language Lexeme} : (when P fun t => k * L t) = fun t => k * when P L t := by
  funext t
  ext ls
  rw [mem_when, Language.mem_mul, Language.mem_mul]
  constructor
  · intro hgiven
    obtain ⟨hP, a, ha, b, hb, hab⟩ := hgiven
    exact ⟨a, ha, b, ⟨hP, hb⟩, hab⟩
  · intro hgiven
    obtain ⟨a, ha, b, ⟨hP, hb⟩, hab⟩ := hgiven
    exact ⟨hP, a, ha, b, hb, hab⟩

theorem when_component {α : Type} {f : τ → α} {G : α → Language Lexeme} :
    (when P fun t => G (f t) * L t) = fun t => ⨆ a, G a * when (fun t => P t ∧ f t = a) L t := by
  funext t
  ext ls
  rw [mem_when, Language.mem_iSup]
  simp only [Language.mem_mul, mem_when]
  constructor
  · intro hgiven
    obtain ⟨hP, a, ha, b, hb, hab⟩ := hgiven
    exact ⟨f t, a, ha, b, ⟨⟨hP, rfl⟩, hb⟩, hab⟩
  · intro hgiven
    obtain ⟨_, a, ha, b, ⟨⟨hP, hf⟩, hb⟩, hab⟩ := hgiven
    subst hf
    exact ⟨hP, a, ha, b, hb, hab⟩

end

end RustHouse.OneColumn
