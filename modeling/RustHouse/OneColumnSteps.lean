import RustHouse.OneColumnSpacing
import RustHouse.ScalarCast

/-!
# Steps of the one-column parser

A parser decides a language from a position on if it returns the only tree that
what is left of the statement stands for, or fails where there is none. Each step
of a parser takes one lexeme off the language of the rest.
-/

namespace RustHouse.OneColumn

open Decimal (Numeral)
open Exec Scanning TextPositions Words
open Batch (eqIgnoreAsciiCase)

/-! ## Decisions -/

/-- The parser returns the only acceptable tree, or fails at a character where no tree is acceptable. -/
def Decides {τ : Type} (input : String) (m : Parse τ) (position : Nat) (accepts : τ → Prop) : Prop :=
  Method.wp m (fun t _ => ∀ t', accepts t' ↔ t' = t)
    (fun e _ => (∀ offset ∈ e.offset, Boundary input offset) ∧ ∀ t, ¬ accepts t) position

/-- Where a parser stands: at a lexeme, or right behind one. -/
inductive Place where
  | token
  | behind (edge : Edge)

def Place.Writes : Place → List Lexeme → List Char → Prop
  | token => Begins
  | behind edge => Written edge

def Place.Fits : Place → List Char → Prop
  | token, text => ∀ c ∈ text.head?, isBlank c = false
  | behind edge, text => edge = .word → WordEnds text

def Reads {τ : Type} (input : String) (m : Parse τ) (place : Place) (L : τ → Language Lexeme) : Prop :=
  ∀ position text, At input position text → place.Fits text →
    Decides input m position fun t => ∃ ls ∈ L t, place.Writes ls text

section
variable {τ α : Type} {input : String} {m : Parse α} {k : α → Parse τ} {n : Parse τ} {position position' : Nat} {a : α}
  {accepts accepts' : τ → Prop} {e : ParseError} {L L' : τ → Language Lexeme} {place : Place} {edge : Edge}

theorem Decides.bind (hm : m position = some (.ok a, position')) (h : Decides input (k a) position' accepts) :
    Decides input (m >>= k) position accepts := by
  rw [Decides, Method.wp, Method.bind_of_ok hm]
  exact h

theorem Decides.congr (h : Decides input n position accepts) (heq : ∀ t, accepts' t ↔ accepts t) :
    Decides input n position accepts' := by
  rwa [funext fun t => propext (heq t)]

def Fails {τ : Type} (input : String) (m : Parse τ) (position : Nat) : Prop :=
  ∃ e position', m position = some (.error e, position') ∧ ∀ offset ∈ e.offset, Boundary input offset

theorem Fails.decides (h : Fails input n position) (hnone : ∀ t, ¬ accepts t) : Decides input n position accepts := by
  obtain ⟨e, position', hn, he⟩ := h
  rw [Decides, Method.wp, hn]
  exact ⟨he, hnone⟩

theorem Fails.bind (h : Fails input m position) : Fails input (m >>= k) position := by
  obtain ⟨e, position', hm, he⟩ := h
  exact ⟨e, position', Method.bind_of_error hm, he⟩

theorem Fails.after (hm : m position = some (.ok a, position')) (h : Fails input (k a) position') :
    Fails input (m >>= k) position := by
  obtain ⟨e, position'', hk, he⟩ := h
  exact ⟨e, position'', (Method.bind_of_ok hm).trans hk, he⟩

theorem fails_unexpected (h : Boundary input position) (expected : String) :
    Fails input (unexpected expected : Parse τ) position := by
  refine ⟨_, _, rfl, ?_⟩
  intro offset ho
  cases ho
  exact h

theorem fails_call (h : ∀ offset ∈ e.offset, Boundary input offset) :
    Fails input (Method.call (.error e) : Parse τ) position := ⟨e, position, rfl, h⟩

theorem Reads.congr (h : Reads input n place L) (heq : L' = L) : Reads input n place L' := heq ▸ h

/-- Behind an open edge stands anything that may stand at a lexeme. -/
theorem Reads.token (h : Reads input n (.behind .free) L) : Reads input n .token L := by
  intro position text hat hfits
  refine (h position text hat nofun).congr fun t => exists_congr fun ls => and_congr_right fun _ => ?_
  obtain ⟨_, hdrop⟩ := takeWhile_eq_nil hfits
  rw [Place.Writes, Place.Writes, written_iff_dropWhile, hdrop]
  exact (and_iff_right fun _ _ h => h.elim).symm

/-- Lexemes that need no whitespace stand behind an open edge as well. -/
theorem Reads.behind (h : Reads input n (.behind .free) L)
    (hgap : ∀ t, Heads (fun l? => ∀ l ∈ l?, ¬ edge.NeedsGap l) (L t)) : Reads input n (.behind edge) L := by
  intro position text hat _
  refine (h position text hat nofun).congr fun t => exists_congr fun ls => and_congr_right fun hls => ?_
  rw [Place.Writes, Place.Writes, written_iff_dropWhile, written_iff_dropWhile]
  exact and_congr_left fun _ => iff_of_true (fun l hl hneeds => absurd hneeds (hgap t ls hls l hl)) fun _ _ h => h.elim

/-! ## Whitespace -/

theorem skipWhitespace_eq : skipWhitespace input position =
    some (.ok (), runEnd isAsciiWhitespace (utf8 input) position) := rfl

/-- What the scan tells apart where there is no whitespace. -/
def Edge.Closes : Edge → Lexeme → Prop
  | .free, _ => True
  | .word, .number _ => False
  | .word, _ => True
  | .paren, l => ¬ Edge.paren.NeedsGap l

def Edge.Shuts (edge : Edge) (l? : Option Lexeme) : Prop := ∀ l ∈ l?, edge.Closes l

def Edge.Gaps (edge : Edge) (l? : Option Lexeme) : Prop := ∃ l, l? = some l ∧ edge.NeedsGap l

theorem Reads.skip {k : Unit → Parse τ} (h : Reads input (k ()) .token L)
    (hclose : ∀ t, Heads edge.Shuts (L t)) :
    Reads input (skipWhitespace input >>= k) (.behind edge) L := by
  intro position text hat hfits
  have hnext := hat.runEnd classifies_whitespace
  refine Decides.bind skipWhitespace_eq ((h _ _ hnext ?_).congr fun t => exists_congr fun ls => and_congr_right fun hls => ?_)
  · exact head_dropWhile text
  · rw [Place.Writes, Place.Writes, written_iff_dropWhile]
    refine and_iff_right_of_imp fun hbegins l hl hneeds hnil => ?_
    have hcloses := hclose t ls hls l hl
    have hdrop := List.takeWhile_append_dropWhile (p := isBlank) (l := text)
    rw [hnil, List.nil_append] at hdrop
    rw [hdrop] at hbegins
    cases ls with
    | nil => cases hl
    | cons l' ls =>
      cases hl
      obtain ⟨rest, htext, _⟩ := hbegins
      cases edge with
      | free => exact hneeds
      | paren => exact hcloses hneeds
      | word =>
        cases l with
        | word w =>
          have := hfits rfl w.head (by rw [htext]; rfl)
          rw [isWordChar_of_start w.starts] at this
          cases this
        | number n => exact hcloses
        | symbol s => exact hneeds

theorem Reads.require {k : Unit → Parse τ} {expected : String} (h : Reads input (k ()) .token L)
    (hneeds : ∀ t, Heads edge.Gaps (L t)) :
    Reads input (requireWhitespace input expected >>= k) (.behind edge) L := by
  intro position text hat _
  have hnext := hat.runEnd classifies_whitespace
  have hposition := hat.runEnd_eq classifies_whitespace
  by_cases hgap : text.takeWhile isBlank = []
  · refine (Fails.bind ?_).decides ?_
    · have hstay : runEnd isAsciiWhitespace (utf8 input) position = position := by rw [hposition, hgap]; rfl
      refine Fails.after rfl (Fails.after skipWhitespace_eq (Fails.after rfl ?_))
      rw [if_pos hstay]
      exact fails_unexpected hnext.boundary expected
    · intro t hgiven
      obtain ⟨ls, hls, hwritten⟩ := hgiven
      obtain ⟨l, hl, hl'⟩ := hneeds t ls hls
      exact (written_iff_dropWhile.1 hwritten).1 l hl hl' hgap
  · have hmove : runEnd isAsciiWhitespace (utf8 input) position ≠ position := by
      rw [hposition]
      have := mt byteLen_eq_zero.1 hgap
      omega
    have hstep : requireWhitespace input expected position =
        some (.ok (), runEnd isAsciiWhitespace (utf8 input) position) := by
      rw [requireWhitespace, Method.bind_of_ok rfl, Method.bind_of_ok skipWhitespace_eq, Method.bind_of_ok rfl,
        if_neg hmove]
      rfl
    refine Decides.bind hstep ((h _ _ hnext ?_).congr fun t => exists_congr fun ls => and_congr_right fun hls => ?_)
    · intro c hc
      have := List.head?_dropWhile_not isBlank text
      rw [Option.mem_def.1 hc] at this
      simpa using this
    · rw [Place.Writes, Place.Writes, written_iff_dropWhile]
      exact and_iff_right fun _ _ _ => hgap

end

/-! ## Words -/

/-- The text starts with the keyword. -/
def Leads (expected : String) (text : List Char) : Prop :=
  ∃ (w : Word) (rest : List Char), text = w.chars ++ rest ∧ WordEnds rest ∧ eqIgnoreAsciiCase w.text expected = true

section
variable {input expected : String} {position : Nat} {text rest : List Char} {w : Word} {maxIdentifierBytes : Nat}

theorem wordEnd_none (hat : At input position text) (h : text.head?.any isWordStart = false) :
    wordEnd input position = none := by
  rw [wordEnd, hat.any_eq classifies_wordStart, h]
  rfl

theorem wordEnd_word (hat : At input position (w.chars ++ rest)) (h : WordEnds rest) :
    wordEnd input position = some (position + byteLen w.chars) := by
  have hhead : (w.chars ++ rest).head?.any isWordStart = true := w.starts
  have hsize := utf8Size_of_wordChar (isWordChar_of_start w.starts)
  have hnext : At input (position + 1) (w.tail ++ rest) := by
    have := @At.advance input position [w.head] (w.tail ++ rest) hat
    rwa [byteLen_cons, byteLen_nil, hsize] at this
  have htail : (w.tail ++ rest).takeWhile isWordChar = w.tail := by
    have htake := (h.takeWhile w).1
    rw [Word.chars, List.cons_append, List.takeWhile_cons_of_pos (isWordChar_of_start w.starts)] at htake
    exact (List.cons.inj htake).2
  rw [wordEnd, hat.any_eq classifies_wordStart, hhead, if_pos rfl, hnext.runEnd_eq classifies_wordChar, htail, Word.chars,
    byteLen_cons, hsize, Nat.add_assoc]

theorem keywordAt_word (hat : At input position (w.chars ++ rest)) (h : WordEnds rest) :
    keywordAt input position expected = .ok (eqIgnoreAsciiCase w.text expected) := by
  rw [keywordAt, wordEnd_word hat h]
  dsimp only
  rw [hat.strSlice, Exec.ok_bind]
  rfl

theorem leads_word_iff (h : WordEnds rest) :
    Leads expected (w.chars ++ rest) ↔ eqIgnoreAsciiCase w.text expected = true := by
  constructor
  · intro hgiven
    obtain ⟨w', rest', htext, hends, hw⟩ := hgiven
    have hchars : w'.chars = w.chars := by rw [← (hends.takeWhile w').1, ← htext, (h.takeWhile w).1]
    rwa [Word.text, hchars] at hw
  · intro hw
    exact ⟨w, rest, rfl, h, hw⟩

theorem not_leads (h : text.head?.any isWordStart = false) : ¬ Leads expected text := by
  intro hgiven
  obtain ⟨w, rest, htext, _⟩ := hgiven
  rw [htext] at h
  have : isWordStart w.head = false := h
  rw [w.starts] at this
  cases this

theorem keywordAt_ok (hat : At input position text) (expected : String) :
    ∃ found, keywordAt input position expected = .ok found ∧ (found = true ↔ Leads expected text) := by
  rcases word_or text with hnone | ⟨w, rest, rfl, hends⟩
  · refine ⟨false, ?_, ?_⟩
    · rw [keywordAt, wordEnd_none hat hnone]
    · simp [not_leads hnone]
  · exact ⟨_, keywordAt_word hat hends, (leads_word_iff hends).symm⟩

theorem keywordAtPosition_ok (hat : At input position text) (expected : String) :
    ∃ found, keywordAtPosition input expected position = some (.ok found, position) ∧
      (found = true ↔ Leads expected text) := by
  obtain ⟨found, hfound, hiff⟩ := keywordAt_ok hat expected
  refine ⟨found, ?_, hiff⟩
  rw [keywordAtPosition, Method.bind_of_ok rfl, hfound]
  rfl

theorem keywordFollows_ok (hat : At input position (w.chars ++ rest)) (h : WordEnds rest) (expected : String) :
    ∃ found, keywordFollowsCurrentWord input expected position = some (.ok found, position) ∧
      (found = true ↔ rest.takeWhile isBlank ≠ [] ∧ Leads expected (rest.dropWhile isBlank)) := by
  have hrest := hat.advance
  have hposition := hrest.runEnd_eq classifies_whitespace
  obtain ⟨found, hfound, hiff⟩ := keywordAt_ok (hrest.runEnd classifies_whitespace) expected
  by_cases hgap : rest.takeWhile isBlank = []
  · refine ⟨false, ?_, by simp [hgap]⟩
    rw [keywordFollowsCurrentWord, Method.bind_of_ok rfl, wordEnd_word hat h]
    dsimp only
    rw [if_pos (by rw [hposition, hgap]; rfl)]
    rfl
  · refine ⟨found, ?_, by rw [hiff]; simp [hgap]⟩
    have hmove := mt byteLen_eq_zero.1 hgap
    rw [keywordFollowsCurrentWord, Method.bind_of_ok rfl, wordEnd_word hat h]
    dsimp only
    rw [if_neg (by rw [hposition]; omega), hfound]
    rfl

theorem expectKeyword_fails (hat : At input position text) (h : ¬ Leads expected text) :
    Fails input (expectKeyword input expected) position := by
  refine Fails.after rfl ?_
  rcases word_or text with hnone | ⟨w, rest, rfl, hends⟩
  · rw [wordEnd_none hat hnone]
    exact fails_unexpected hat.boundary expected
  · rw [wordEnd_word hat hends]
    have hslice : (Method.call (strSlice input position (position + byteLen w.chars)) : Parse String) position =
        some (.ok w.text, position) := by
      rw [hat.strSlice]
      rfl
    refine Fails.after hslice ?_
    rw [if_pos (mt (leads_word_iff hends).2 h)]
    exact fails_unexpected hat.boundary expected

theorem expectKeyword_ok (hat : At input position (w.chars ++ rest)) (hends : WordEnds rest)
    (h : eqIgnoreAsciiCase w.text expected = true) :
    expectKeyword input expected position = some (.ok (), position + byteLen w.chars) := by
  have hslice : (Method.call (strSlice input position (position + byteLen w.chars)) : Parse String) position =
      some (.ok w.text, position) := by
    rw [hat.strSlice]
    rfl
  rw [expectKeyword, Method.bind_of_ok rfl, wordEnd_word hat hends]
  dsimp only
  rw [Method.bind_of_ok hslice, if_neg (not_not_intro h)]
  rfl

theorem parseIdentifier_fails (hat : At input position text) (h : text.head?.any isWordStart = false) :
    Fails input (parseIdentifier input maxIdentifierBytes) position := by
  refine Fails.after rfl (Fails.after rfl ?_)
  rw [hat.any_eq classifies_wordStart, h, if_pos Bool.false_ne_true]
  exact fails_unexpected hat.boundary _

theorem parseIdentifier_word (hat : At input position (w.chars ++ rest)) (hends : WordEnds rest) :
    if (utf8 w.text).length ≤ maxIdentifierBytes then
      parseIdentifier input maxIdentifierBytes position = some (.ok w.text, position + byteLen w.chars)
    else Fails input (parseIdentifier input maxIdentifierBytes) position := by
  have hhead : (utf8 input)[position]?.any isIdentifierStart = true := by
    rw [hat.any_eq classifies_wordStart]
    exact w.starts
  have hend := wordEnd_word hat hends
  rw [wordEnd, if_pos hhead, Option.some.injEq] at hend
  have hlength : position + byteLen w.chars - position = (utf8 w.text).length := by
    rw [Nat.add_sub_cancel_left, Word.text, bytes_eq, String.toList_ofList, length_bytes]
  by_cases hbound : (utf8 w.text).length ≤ maxIdentifierBytes
  · rw [if_pos hbound, parseIdentifier, Method.bind_of_ok rfl, Method.bind_of_ok (m := peek input) rfl]
    rw [if_neg (not_not_intro hhead), Method.bind_of_ok rfl, Method.bind_of_ok (m := skipWhile input _) rfl,
      Method.bind_of_ok rfl]
    dsimp only
    rw [hend, hlength, if_neg (Nat.not_lt.2 hbound), hat.strSlice]
    rfl
  · rw [if_neg hbound]
    refine Fails.after rfl (Fails.after rfl ?_)
    rw [if_neg (not_not_intro hhead)]
    refine Fails.after rfl (Fails.after rfl (Fails.after rfl ?_))
    rw [hend, hlength, if_pos (Nat.lt_of_not_le hbound)]
    refine fails_call ?_
    intro offset ho
    cases ho
    exact hat.boundary

end

/-! ## Steps -/

theorem Parse.bind_assoc {α β γ : Type} (m : Parse α) (f : α → Parse β) (g : β → Parse γ) :
    (m >>= f) >>= g = m >>= fun a => f a >>= g := by
  funext position
  rcases hm : m position with _ | ⟨_ | a, position'⟩
  · rw [Method.bind_of_none hm, Method.bind_of_none (Method.bind_of_none hm)]
  · rw [Method.bind_of_error hm, Method.bind_of_error (Method.bind_of_error hm)]
  · rw [Method.bind_of_ok hm]
    rcases hf : f a position' with _ | ⟨_ | b, position''⟩
    · rw [Method.bind_of_none hf, Method.bind_of_none ((Method.bind_of_ok hm).trans hf)]
    · rw [Method.bind_of_error hf, Method.bind_of_error ((Method.bind_of_ok hm).trans hf)]
    · rw [Method.bind_of_ok hf, Method.bind_of_ok ((Method.bind_of_ok hm).trans hf)]

theorem Parse.pure_bind {α β : Type} (a : α) (f : α → Parse β) : (pure a : Parse α) >>= f = f a := by
  funext position
  exact Method.bind_of_ok rfl

section
variable {τ α : Type} {input expected : String} {maxIdentifierBytes : Nat} {L : τ → Language Lexeme}

theorem Reads.keyword {k : Unit → Parse τ} (h : Reads input (k ()) (.behind .word) L) :
    Reads input (expectKeyword input expected >>= k) .token fun t => keyword expected * L t := by
  intro position text hat _
  by_cases hleads : Leads expected text
  · obtain ⟨w, rest, rfl, hends, hw⟩ := hleads
    refine Decides.bind (expectKeyword_ok hat hends hw) ((h _ _ hat.advance fun _ => hends).congr fun t => ?_)
    constructor
    · intro hgiven
      obtain ⟨ls, hls, hbegins⟩ := hgiven
      obtain ⟨w', ls', rfl, _, hls'⟩ := mem_keyword_mul.1 hls
      obtain ⟨rfl, hwritten⟩ := begins_word hends hbegins
      exact ⟨ls', hls', hwritten⟩
    · intro hgiven
      obtain ⟨ls, hls, hwritten⟩ := hgiven
      exact ⟨.word w :: ls, mem_keyword_mul.2 ⟨w, ls, rfl, hw, hls⟩, (begins_word_iff hends).2 ⟨ls, rfl, hwritten⟩⟩
  · refine (expectKeyword_fails hat hleads).bind.decides fun t hgiven => ?_
    obtain ⟨ls, hls, hbegins⟩ := hgiven
    refine hleads ?_
    obtain ⟨w, ls', rfl, hw, _⟩ := mem_keyword_mul.1 hls
    obtain ⟨rest, htext, hwritten⟩ := hbegins
    exact ⟨w, rest, htext, wordEnds_of_written hwritten, hw⟩

theorem Reads.identifier {k : String → Parse τ} {L : String → τ → Language Lexeme}
    (h : ∀ name, Reads input (k name) (.behind .word) (L name)) :
    Reads input (parseIdentifier input maxIdentifierBytes >>= k) .token
      fun t => ⨆ name, identifier maxIdentifierBytes name * L name t := by
  intro position text hat _
  have hmem : ∀ t ls, ls ∈ ⨆ name, OneColumn.identifier maxIdentifierBytes name * L name t ↔
      ∃ (w : Word) (rest : List Lexeme), ls = .word w :: rest ∧ (utf8 w.text).length ≤ maxIdentifierBytes ∧
        rest ∈ L w.text t := by
    intro t ls
    rw [Language.mem_iSup]
    constructor
    · intro hgiven
      obtain ⟨name, hls⟩ := hgiven
      obtain ⟨w, rest, heq, rfl, hbound, hrest⟩ := mem_identifier_mul.1 hls
      exact ⟨w, rest, heq, hbound, hrest⟩
    · intro hgiven
      obtain ⟨w, rest, hls, hbound, hrest⟩ := hgiven
      exact ⟨w.text, mem_identifier_mul.2 ⟨w, rest, hls, rfl, hbound, hrest⟩⟩
  rcases word_or text with hnone | ⟨w, rest, rfl, hends⟩
  · refine (parseIdentifier_fails hat hnone).bind.decides fun t hgiven => ?_
    obtain ⟨ls, hls, hbegins⟩ := hgiven
    obtain ⟨w, rest, rfl, _⟩ := (hmem t ls).1 hls
    exact not_begins_word hnone hbegins
  · have hparse := @parseIdentifier_word input position rest w maxIdentifierBytes hat hends
    by_cases hbound : (utf8 w.text).length ≤ maxIdentifierBytes
    · rw [if_pos hbound] at hparse
      refine Decides.bind hparse ((h w.text _ _ hat.advance fun _ => hends).congr fun t => ?_)
      constructor
      · intro hgiven
        obtain ⟨ls, hls, hbegins⟩ := hgiven
        obtain ⟨w', ls', rfl, _, hls'⟩ := (hmem t ls).1 hls
        obtain ⟨rfl, hwritten⟩ := begins_word hends hbegins
        exact ⟨ls', hls', hwritten⟩
      · intro hgiven
        obtain ⟨ls, hls, hwritten⟩ := hgiven
        exact ⟨.word w :: ls, (hmem t _).2 ⟨w, ls, rfl, hbound, hls⟩, (begins_word_iff hends).2 ⟨ls, rfl, hwritten⟩⟩
    · rw [if_neg hbound] at hparse
      refine hparse.bind.decides fun t hgiven => ?_
      obtain ⟨ls, hls, hbegins⟩ := hgiven
      refine hbound ?_
      obtain ⟨w', ls', rfl, hbound', _⟩ := (hmem t ls).1 hls
      obtain ⟨rfl, _⟩ := begins_word hends hbegins
      exact hbound'

theorem peek_ok {position : Nat} : peek input position = some (.ok (utf8 input)[position]?, position) := rfl

theorem Reads.byte {k : Unit → Parse τ} {s : Symbol} {c : Char} (hs : s.chars = [c]) (hc : c.toNat < 128)
    (h : Reads input (k ()) (.behind (Lexeme.symbol s).edge) L) (hedge : (Lexeme.symbol s).edge ≠ .word) :
    Reads input (expectByte input c.toUInt8 expected >>= k) .token fun t => mark s * L t := by
  intro position text hat _
  have hhead := hat.getElem?_eq_some hc
  by_cases hfound : text.head? = some c
  · cases text with
    | nil => cases hfound
    | cons c' rest =>
      obtain rfl := Option.some.inj hfound
      have hsize : c'.utf8Size = 1 := by
        rw [Char.utf8Size_eq_one_iff, UInt32.le_iff_toNat_le]
        exact Nat.le_of_lt_succ hc
      have hnext : At input (position + 1) rest := by
        have := @At.advance input position [c'] rest hat
        rwa [byteLen_cons, byteLen_nil, hsize] at this
      have hstep : expectByte input c'.toUInt8 expected position = some (.ok (), position + 1) := by
        rw [expectByte, Method.bind_of_ok peek_ok, if_neg (not_not_intro (hhead.2 rfl))]
        rfl
      refine Decides.bind hstep ((h _ _ hnext fun hword => absurd hword hedge).congr fun t => ?_)
      constructor
      · intro hgiven
        obtain ⟨ls, hls, hbegins⟩ := hgiven
        obtain ⟨ls', rfl, hls'⟩ := mem_mark_mul.1 hls
        obtain ⟨rest', htext, hwritten⟩ := hbegins
        rw [Lexeme.chars, hs] at htext
        obtain ⟨_, rfl⟩ := List.cons.inj htext
        exact ⟨ls', hls', hwritten⟩
      · intro hgiven
        obtain ⟨ls, hls, hwritten⟩ := hgiven
        refine ⟨.symbol s :: ls, mem_mark_mul.2 ⟨ls, rfl, hls⟩, rest, ?_, hwritten⟩
        rw [Lexeme.chars, hs]
        rfl
  · have hfails : Fails input (expectByte input c.toUInt8 expected) position := by
      refine Fails.after peek_ok ?_
      rw [if_pos (mt hhead.1 hfound)]
      exact fails_unexpected hat.boundary expected
    refine hfails.bind.decides fun t hgiven => ?_
    obtain ⟨ls, hls, hbegins⟩ := hgiven
    refine hfound ?_
    obtain ⟨ls', rfl, _⟩ := mem_mark_mul.1 hls
    obtain ⟨rest, rfl, _⟩ := hbegins
    rw [Lexeme.chars, hs]
    rfl

def IsKeyword (expected : String) (l? : Option Lexeme) : Prop :=
  ∃ w : Word, l? = some (.word w) ∧ eqIgnoreAsciiCase w.text expected = true

theorem leads_of_begins {ls : List Lexeme} {text : List Char} (hbegins : Begins ls text) :
    Leads expected text ↔ IsKeyword expected ls.head? := by
  constructor
  · intro hgiven
    obtain ⟨w, rest, htext, hends, hw⟩ := hgiven
    subst htext
    obtain ⟨ls', rfl, _⟩ := (begins_word_iff hends).1 hbegins
    exact ⟨w, rfl, hw⟩
  · intro hgiven
    obtain ⟨w, hhead, hw⟩ := hgiven
    cases ls with
    | nil => cases hhead
    | cons l ls =>
      obtain rfl := Option.some.inj hhead
      obtain ⟨rest, htext, hwritten⟩ := hbegins
      exact ⟨w, rest, htext, wordEnds_of_written hwritten, hw⟩

theorem Reads.ifKeyword {a b : Parse α} {k : α → Parse τ} {G H : τ → Language Lexeme}
    (hthen : Reads input (a >>= k) .token G) (helse : Reads input (b >>= k) .token H)
    (hG : ∀ t, Heads (IsKeyword expected) (G t)) (hH : ∀ t, Heads (fun l? => ¬ IsKeyword expected l?) (H t)) :
    Reads input ((keywordAtPosition input expected >>= fun found => if found = true then a else b) >>= k) .token
      fun t => G t + H t := by
  intro position text hat hfits
  rw [Parse.bind_assoc]
  obtain ⟨found, hfound, hiff⟩ := keywordAtPosition_ok hat expected
  refine Decides.bind hfound ?_
  by_cases h : found = true
  · rw [if_pos h]
    refine (hthen position text hat hfits).congr fun t => exists_congr fun ls => and_congr_left fun hbegins => ?_
    rw [Language.mem_add]
    exact or_iff_left fun hls => hH t ls hls ((leads_of_begins hbegins).1 (hiff.1 h))
  · rw [if_neg h]
    refine (helse position text hat hfits).congr fun t => exists_congr fun ls => and_congr_left fun hbegins => ?_
    rw [Language.mem_add]
    exact or_iff_right fun hls => h (hiff.2 ((leads_of_begins hbegins).2 (hG t ls hls)))

end

/-! ## Numbers -/

def isSignChar (c : Char) : Bool := c = '+' || c = '-'

def DigitsEnd (text : List Char) : Prop := ∀ c ∈ text.head?, c.isDigit = false

section
variable {text rest : List Char} {n : Numeral}

theorem digitsEnd_of_wordEnds (h : WordEnds text) : DigitsEnd text := by
  intro c hc
  have := h c hc
  simp only [isWordChar, Bool.or_eq_false_iff] at this
  exact this.1.2

theorem not_digit_of_sign {c : Char} (h : isSignChar c = true) : c.isDigit = false := by
  simp only [isSignChar, Bool.or_eq_true, decide_eq_true_eq] at h
  rcases h with rfl | rfl <;> rfl

theorem takeWhile_digits (hdigits : ∀ c ∈ n.digits, c.isDigit = true) (h : DigitsEnd rest) :
    (n.digits ++ rest).takeWhile Char.isDigit = n.digits ∧ (n.digits ++ rest).dropWhile Char.isDigit = rest := by
  rw [List.takeWhile_append_of_pos hdigits, List.dropWhile_append_of_pos hdigits]
  cases rest with
  | nil => simp
  | cons c rest =>
    have hc : ¬ c.isDigit = true := by
      rw [h c rfl]
      exact Bool.false_ne_true
    rw [List.takeWhile_cons_of_neg hc, List.dropWhile_cons_of_neg hc, List.append_nil]
    exact ⟨rfl, rfl⟩

theorem skipOne_numeral (n : Numeral) (rest : List Char) : skipOne isSignChar (n.chars ++ rest) = n.digits ++ rest := by
  rw [Numeral.chars]
  cases n.sign with
  | none =>
    cases hdigits : n.digits with
    | nil => exact absurd hdigits n.digits_ne_nil
    | cons c digits =>
      have hdigit := n.isDigit c (hdigits ▸ List.mem_cons_self ..)
      have hc : ¬ isSignChar c = true := by
        intro hsign
        rw [not_digit_of_sign hsign] at hdigit
        cases hdigit
      rw [Option.map_none, Option.toList_none, List.nil_append, List.cons_append, skipOne, if_neg hc]
  | some sign => cases sign <;> rfl

theorem numeral_or (text : List Char) : (skipOne isSignChar text).takeWhile Char.isDigit = [] ∨
    ∃ (n : Numeral) (rest : List Char), text = n.chars ++ rest ∧ DigitsEnd rest := by
  by_cases h : (skipOne isSignChar text).takeWhile Char.isDigit = []
  · exact .inl h
  · refine .inr ?_
    have hdigits : ∀ c ∈ (skipOne isSignChar text).takeWhile Char.isDigit, c.isDigit := by
      intro c hc
      exact List.all_eq_true.1 List.all_takeWhile c hc
    have hsplit := List.takeWhile_append_dropWhile (p := Char.isDigit) (l := skipOne isSignChar text)
    have hends : DigitsEnd ((skipOne isSignChar text).dropWhile Char.isDigit) := head_dropWhile _
    cases text with
    | nil => exact absurd rfl h
    | cons c text =>
      by_cases hc : isSignChar c = true
      · simp only [isSignChar, Bool.or_eq_true, decide_eq_true_eq] at hc
        rcases hc with rfl | rfl
        · refine ⟨⟨some .plus, _, h, hdigits⟩, _, ?_, hends⟩
          rw [Numeral.chars, List.append_assoc, hsplit]
          rfl
        · refine ⟨⟨some .minus, _, h, hdigits⟩, _, ?_, hends⟩
          rw [Numeral.chars, List.append_assoc, hsplit]
          rfl
      · have hskip : skipOne isSignChar (c :: text) = c :: text := if_neg hc
        refine ⟨⟨none, _, h, hdigits⟩, _, ?_, hends⟩
        rw [Numeral.chars, List.append_assoc, hsplit]
        exact hskip.symm

theorem not_begins_number {ls : List Lexeme} (h : (skipOne isSignChar text).takeWhile Char.isDigit = []) :
    ¬ Begins (.number n :: ls) text := by
  intro hgiven
  obtain ⟨rest, htext, _⟩ := hgiven
  rw [Lexeme.chars] at htext
  rw [htext, skipOne_numeral, List.takeWhile_append_of_pos n.isDigit, List.append_eq_nil_iff] at h
  exact n.digits_ne_nil h.1

theorem begins_number {ls : List Lexeme} {n' : Numeral} (h : DigitsEnd rest)
    (hbegins : Begins (.number n' :: ls) (n.chars ++ rest)) : n' = n ∧ Written .word ls rest := by
  obtain ⟨rest', htext, hwritten⟩ := hbegins
  rw [Lexeme.chars] at htext
  have hends := digitsEnd_of_wordEnds (wordEnds_of_written hwritten)
  have hskip : n.digits ++ rest = n'.digits ++ rest' := by
    rw [← skipOne_numeral, htext, skipOne_numeral]
  have hdigits : n.digits = n'.digits := by
    rw [← (takeWhile_digits n.isDigit h).1, hskip, (takeWhile_digits n'.isDigit hends).1]
  have hrest : rest = rest' := by
    rw [← (takeWhile_digits n.isDigit h).2, hskip, (takeWhile_digits n'.isDigit hends).2]
  subst hrest
  obtain ⟨sign, digits, _, _⟩ := n
  obtain ⟨sign', digits', _, _⟩ := n'
  obtain rfl : digits = digits' := hdigits
  have hsigns := List.append_cancel_right (List.append_cancel_right htext)
  have hsign : sign = sign' := by
    cases sign with
    | none =>
      cases sign' with
      | none => rfl
      | some sign' => cases hsigns
    | some sign =>
      cases sign' with
      | none => cases hsigns
      | some sign' => cases sign <;> cases sign' <;> first | rfl | cases hsigns
  subst hsign
  exact ⟨rfl, hwritten⟩

variable {input : String} {position : Nat}

theorem skipOneOf_ok (hat : At input position text) :
    ∃ position', skipOneOf input isSign position = some (.ok (), position') ∧
      At input position' (skipOne isSignChar text) ∧ position' + byteLen (skipOne isSignChar text) = position + byteLen text := by
  have hany := hat.any_eq classifies_sign
  cases text with
  | nil =>
    refine ⟨position, ?_, hat, rfl⟩
    rw [skipOneOf, Method.bind_of_ok peek_ok, hany, if_neg (by exact Bool.false_ne_true)]
    rfl
  | cons c text =>
    by_cases hc : isSignChar c = true
    · have hskip : skipOne isSignChar (c :: text) = text := if_pos hc
      have hsize : c.utf8Size = 1 := by
        simp only [isSignChar, Bool.or_eq_true, decide_eq_true_eq] at hc
        rcases hc with rfl | rfl <;> rfl
      have hnext := @At.advance input position [c] text hat
      rw [byteLen_cons, byteLen_nil, hsize] at hnext
      refine ⟨position + 1, ?_, by rw [hskip]; exact hnext, ?_⟩
      · rw [skipOneOf, Method.bind_of_ok peek_ok, hany, if_pos (by exact hc)]
        rfl
      · rw [hskip, byteLen_cons, hsize, Nat.add_assoc]
    · have hskip : skipOne isSignChar (c :: text) = c :: text := if_neg hc
      refine ⟨position, ?_, by rw [hskip]; exact hat, by rw [hskip]⟩
      rw [skipOneOf, Method.bind_of_ok peek_ok, hany, if_neg (by exact hc)]
      rfl

theorem scan_numeral (hat : At input position (n.chars ++ rest)) (hends : DigitsEnd rest) :
    ∃ position', skipOneOf input isSign position = some (.ok (), position') ∧
      runEnd isAsciiDigit (utf8 input) position' = position + byteLen n.chars ∧ position + byteLen n.chars ≠ position' := by
  obtain ⟨position', hskip, hnext, hlength⟩ := skipOneOf_ok hat
  rw [skipOne_numeral] at hnext hlength
  rw [byteLen_append, byteLen_append] at hlength
  have hne := mt byteLen_eq_zero.1 n.digits_ne_nil
  refine ⟨position', hskip, ?_, by omega⟩
  rw [hnext.runEnd_eq classifies_digit, (takeWhile_digits n.isDigit hends).1]
  omega

theorem scan_no_numeral (hat : At input position text) (h : (skipOne isSignChar text).takeWhile Char.isDigit = []) :
    ∃ position', skipOneOf input isSign position = some (.ok (), position') ∧
      runEnd isAsciiDigit (utf8 input) position' = position' := by
  obtain ⟨position', hskip, hnext, _⟩ := skipOneOf_ok hat
  refine ⟨position', hskip, ?_⟩
  rw [hnext.runEnd_eq classifies_digit, h]
  rfl

theorem skipWhile_ok {p : UInt8 → Bool} : skipWhile input p position = some (.ok (), runEnd p (utf8 input) position) := rfl

theorem parseLiteral_numeral {position' : Nat} (hat : At input position (n.chars ++ rest)) :
    (∃ v : Int64, n.value = v.toInt ∧
      parseLiteral input position (position + byteLen n.chars) (fun literal => Batch.parseInt64 literal.toList)
        .int64Overflow position' = some (.ok v, position')) ∨
    ((¬ ∃ v : Int64, v.toInt = n.value) ∧
      Fails input (parseLiteral input position (position + byteLen n.chars)
        (fun literal => Batch.parseInt64 literal.toList) .int64Overflow) position') := by
  have hslice : (Method.call (strSlice input position (position + byteLen n.chars)) : Parse String) position' =
      some (.ok n.text, position') := by
    rw [hat.strSlice]
    rfl
  have hparse := Batch.parseInt64_text n
  by_cases hrange : Int64.minValue.toInt ≤ n.value ∧ n.value ≤ Int64.maxValue.toInt
  · obtain ⟨v, hv⟩ := Batch.inRange_iff.1 hrange
    rw [if_pos hrange, ← hv, Int64.ofInt_toInt] at hparse
    refine .inl ⟨v, hv.symm, ?_⟩
    rw [parseLiteral, Method.bind_of_ok hslice, hparse]
    rfl
  · rw [if_neg hrange] at hparse
    refine .inr ⟨mt Batch.inRange_iff.2 hrange, Fails.after hslice ?_⟩
    show Fails input (Method.call (getOr (Batch.parseInt64 n.text.toList) _)) position'
    rw [hparse]
    refine fails_call ?_
    intro offset ho
    cases ho
    exact hat.boundary

end

section
variable {τ : Type} {input : String}

/-- What may stand behind the number of a clause. -/
def EndsNumber (l? : Option Lexeme) : Prop := ∀ s, l? = some (.symbol s) → s = .semicolon

def isTerminatorChar (c : Char) : Bool := isBlank c || c = ';'

theorem terminated_of_written {ls : List Lexeme} {rest : List Char} (h : EndsNumber ls.head?)
    (hwritten : Written .word ls rest) : ∀ c ∈ rest.head?, isTerminatorChar c = true := by
  obtain ⟨hneeds, hbegins⟩ := written_iff_dropWhile.1 hwritten
  intro c hc
  rw [isTerminatorChar, Bool.or_eq_true, decide_eq_true_eq]
  by_cases hblank : isBlank c = true
  · exact .inl hblank
  · right
    cases rest with
    | nil => cases hc
    | cons c' rest =>
      cases hc
      rw [List.takeWhile_cons_of_neg hblank] at hneeds
      rw [List.dropWhile_cons_of_neg hblank] at hbegins
      cases ls with
      | nil =>
        rw [Begins] at hbegins
        cases hbegins
      | cons l ls =>
        obtain ⟨rest', htext, _⟩ := hbegins
        cases l with
        | word w => exact absurd rfl (hneeds _ rfl trivial)
        | number n => exact absurd rfl (hneeds _ rfl trivial)
        | symbol s =>
          obtain rfl := h s rfl
          exact (List.cons.inj htext).1

theorem wordEnds_of_terminated {rest : List Char} (h : ∀ c ∈ rest.head?, isTerminatorChar c = true) : WordEnds rest := by
  intro c hc
  have := h c hc
  rw [isTerminatorChar, Bool.or_eq_true, decide_eq_true_eq] at this
  rcases this with hblank | rfl
  · exact not_wordChar_of_blank hblank
  · rfl

theorem Reads.whereInt64 {k : Int64 → Parse τ} {L : Int64 → τ → Language Lexeme}
    (h : ∀ v, Reads input (k v) (.behind .word) (L v)) (hheads : ∀ v t, Heads EndsNumber (L v t)) :
    Reads input (parseWhereInt64 input >>= k) .token fun t => ⨆ v, int64 v * L v t := by
  intro position text hat _
  have hmem : ∀ t ls, ls ∈ ⨆ v, int64 v * L v t ↔ ∃ (n : Numeral) (rest : List Lexeme) (v : Int64),
      ls = .number n :: rest ∧ n.value = v.toInt ∧ rest ∈ L v t := by
    intro t ls
    rw [Language.mem_iSup]
    simp only [mem_int64_mul]
    constructor
    · intro hgiven
      obtain ⟨v, n, rest, hls⟩ := hgiven
      exact ⟨n, rest, v, hls⟩
    · intro hgiven
      obtain ⟨n, rest, v, hls⟩ := hgiven
      exact ⟨v, n, rest, hls⟩
  rcases numeral_or text with hnone | ⟨n, rest, rfl, hdigits⟩
  · obtain ⟨position', hskip, hend⟩ := scan_no_numeral hat hnone
    have hfails : Fails input (parseWhereInt64 input) position := by
      refine Fails.after rfl (Fails.after hskip (Fails.after rfl (Fails.after skipWhile_ok (Fails.after rfl ?_))))
      rw [if_pos hend]
      refine fails_call ?_
      intro offset ho
      cases ho
      exact hat.boundary
    refine hfails.bind.decides fun t hgiven => ?_
    obtain ⟨ls, hls, hbegins⟩ := hgiven
    obtain ⟨n, rest, v, rfl, _⟩ := (hmem t ls).1 hls
    exact not_begins_number hnone hbegins
  · obtain ⟨position', hskip, hend, hne⟩ := scan_numeral hat hdigits
    have hrest := hat.advance
    have hany := hrest.any_eq classifies_terminator.not
    by_cases hterminated : ∀ c ∈ rest.head?, isTerminatorChar c = true
    · have hnot : ¬ (utf8 input)[position + byteLen n.chars]?.any (fun byte => ¬ isTerminator byte) = true := by
        rw [hany, Option.any_eq_true]
        intro hgiven
        obtain ⟨c, hc, hnot⟩ := hgiven
        have := hterminated c hc
        rw [isTerminatorChar] at this
        simp [this] at hnot
      have hliteral := @parseLiteral_numeral rest n input position (position + byteLen n.chars) hat
      have hstep : parseWhereInt64 input position = parseLiteral input position (position + byteLen n.chars)
          (fun literal => Batch.parseInt64 literal.toList) .int64Overflow (position + byteLen n.chars) := by
        rw [parseWhereInt64, Method.bind_of_ok rfl, Method.bind_of_ok hskip, Method.bind_of_ok rfl,
          Method.bind_of_ok skipWhile_ok, Method.bind_of_ok rfl, hend, if_neg hne, Method.bind_of_ok peek_ok, if_neg hnot]
      rcases hliteral with ⟨v, hv, hok⟩ | ⟨hoverflow, hfails⟩
      · refine Decides.bind (hstep.trans hok) ((h v _ _ hrest fun _ => wordEnds_of_terminated hterminated).congr fun t => ?_)
        constructor
        · intro hgiven
          obtain ⟨ls, hls, hbegins⟩ := hgiven
          obtain ⟨n', ls', v', rfl, hv', hls'⟩ := (hmem t ls).1 hls
          obtain ⟨rfl, hwritten⟩ := begins_number hdigits hbegins
          obtain rfl : v' = v := Int64.toInt_inj.1 (hv'.symm.trans hv)
          exact ⟨ls', hls', hwritten⟩
        · intro hgiven
          obtain ⟨ls, hls, hwritten⟩ := hgiven
          exact ⟨.number n :: ls, (hmem t _).2 ⟨n, ls, v, rfl, hv, hls⟩, rest, rfl, hwritten⟩
      · obtain ⟨e, position'', hm, he⟩ := hfails
        refine (Fails.bind ⟨e, position'', hstep.trans hm, he⟩).decides fun t hgiven => ?_
        obtain ⟨ls, hls, hbegins⟩ := hgiven
        refine hoverflow ?_
        obtain ⟨n', ls', v', rfl, hv', _⟩ := (hmem t ls).1 hls
        obtain ⟨rfl, _⟩ := begins_number hdigits hbegins
        exact ⟨v', hv'.symm⟩
    · have hfails : Fails input (parseWhereInt64 input) position := by
        refine Fails.after rfl (Fails.after hskip (Fails.after rfl (Fails.after skipWhile_ok (Fails.after rfl ?_))))
        rw [hend, if_neg hne]
        refine Fails.after peek_ok ?_
        rw [if_pos]
        · refine fails_call ?_
          intro offset ho
          cases ho
          exact hrest.boundary
        · rw [hany, Option.any_eq_true]
          obtain ⟨c, hc, hnot⟩ : ∃ c, c ∈ rest.head? ∧ ¬ isTerminatorChar c = true := by
            by_contra hall
            exact hterminated fun c hc => by_contra fun hnot => hall ⟨c, hc, hnot⟩
          refine ⟨c, hc, ?_⟩
          rw [isTerminatorChar] at hnot
          simpa using hnot
      refine hfails.bind.decides fun t hgiven => ?_
      obtain ⟨ls, hls, hbegins⟩ := hgiven
      refine hterminated ?_
      obtain ⟨n', ls', v', rfl, _, hls'⟩ := (hmem t ls).1 hls
      obtain ⟨rfl, hwritten⟩ := begins_number hdigits hbegins
      exact terminated_of_written (hheads v' t ls' hls') hwritten

theorem parseUsize_digits {digits : List Char} (hne : digits ≠ []) (hdigits : ∀ c ∈ digits, c.isDigit = true) :
    Batch.parseUsize (.ofList digits) =
      if Decimal.magnitude digits ≤ Checked.usizeMax then some (Decimal.magnitude digits) else none := by
  rw [Batch.parseUsize]
  dsimp only
  rw [String.toList_ofList, if_neg]
  · rfl
  · rw [not_or, not_not]
    exact ⟨hne, List.all_eq_true.2 hdigits⟩

theorem digits_not_terminator {digits rest : List Char} (hdigits : ∀ c ∈ digits, c.isDigit = true)
    (hterminated : ∀ c ∈ rest.head?, isTerminatorChar c = true) :
    (digits ++ rest).takeWhile (fun c => ¬ isTerminatorChar c) = digits ∧
      (digits ++ rest).dropWhile (fun c => ¬ isTerminatorChar c) = rest := by
  have hall : ∀ c ∈ digits, decide (¬ isTerminatorChar c = true) = true := by
    intro c hc
    have hdigit := hdigits c hc
    have hblank : isBlank c = false := not_blank_of_wordChar (by simp [isWordChar, hdigit])
    have hsemicolon : c ≠ ';' := by
      intro heq
      rw [heq] at hdigit
      cases hdigit
    simp [isTerminatorChar, hblank, hsemicolon]
  rw [List.takeWhile_append_of_pos hall, List.dropWhile_append_of_pos hall]
  cases rest with
  | nil => simp
  | cons c rest =>
    simp [hterminated c rfl]

theorem Reads.limit {k : Nat → Parse τ} {L : Nat → τ → Language Lexeme}
    (h : ∀ n, Reads input (k n) (.behind .word) (L n)) (hheads : ∀ n t, Heads EndsNumber (L n t)) :
    Reads input (parseLimit input >>= k) .token fun t => ⨆ n, unsignedInteger n * L n t := by
  intro position text hat _
  let literal := text.takeWhile fun c => ¬ isTerminatorChar c
  let rest := text.dropWhile fun c => ¬ isTerminatorChar c
  have htext : text = literal ++ rest := List.takeWhile_append_dropWhile.symm
  have hend := hat.runEnd_eq classifies_terminator.not
  have hterminated : ∀ c ∈ rest.head?, isTerminatorChar c = true := by
    intro c hc
    have := head_dropWhile text c hc
    simpa using this
  have hslice : (Method.call (strSlice input position (position + byteLen literal)) : Parse String)
      (position + byteLen literal) = some (.ok (.ofList literal), position + byteLen literal) := by
    rw [htext] at hat
    rw [hat.strSlice]
    rfl
  have hrest : At input (position + byteLen literal) rest := by
    rw [htext] at hat
    exact hat.advance
  have hscan : skipWhile input (fun byte => ¬ isTerminator byte) position = some (.ok (), position + byteLen literal) := by
    rw [skipWhile_ok, hend]
    rfl
  have hinvalid : (String.ofList literal = "" ∨ ¬ (utf8 (String.ofList literal)).all isAsciiDigit = true) ↔
      ¬ (literal ≠ [] ∧ ∀ c ∈ literal, c.isDigit = true) := by
    rw [not_and_or, not_not, utf8_ofList, all_bytes classifies_digit, List.all_eq_true, ← String.toList_inj,
      String.toList_ofList]
    rfl
  -- A limit of the language is the literal.
  have hmem : ∀ t ls, ls ∈ ⨆ n, unsignedInteger n * L n t → Begins ls text →
      (literal ≠ [] ∧ ∀ c ∈ literal, c.isDigit = true) ∧ Decimal.magnitude literal ≤ Checked.usizeMax ∧
        ∃ ls' ∈ L (Decimal.magnitude literal) t, Written .word ls' rest := by
    intro t ls hls hbegins
    obtain ⟨n, hls⟩ := (Language.mem_iSup).1 hls
    obtain ⟨m, ls', rfl, hsign, hvalue, hmax, hls'⟩ := mem_unsignedInteger_mul.1 hls
    obtain ⟨rest', htext', hwritten⟩ := hbegins
    have hchars : m.chars = m.digits := by
      rw [Numeral.chars, hsign]
      rfl
    rw [Lexeme.chars, hchars] at htext'
    have hsplit := digits_not_terminator m.isDigit (terminated_of_written (hheads n t ls' hls') hwritten)
    rw [← htext'] at hsplit
    have hliteral : literal = m.digits := hsplit.1
    have hrest' : rest = rest' := hsplit.2
    have hn : n = Decimal.magnitude m.digits := by
      rw [Numeral.value, hsign, if_neg (by decide)] at hvalue
      exact (Int.ofNat_inj.1 hvalue).symm
    rw [hliteral, hrest', ← hn]
    exact ⟨⟨m.digits_ne_nil, m.isDigit⟩, hmax, ls', hls', hwritten⟩
  by_cases hliteral : literal ≠ [] ∧ ∀ c ∈ literal, c.isDigit = true
  · have husize := parseUsize_digits hliteral.1 hliteral.2
    by_cases hmax : Decimal.magnitude literal ≤ Checked.usizeMax
    · rw [if_pos hmax] at husize
      have hstep : parseLimit input position = some (.ok (Decimal.magnitude literal), position + byteLen literal) := by
        rw [parseLimit, Method.bind_of_ok rfl, Method.bind_of_ok hscan, Method.bind_of_ok rfl, Method.bind_of_ok hslice,
          if_neg (mt hinvalid.1 (not_not_intro hliteral)), husize]
        rfl
      refine Decides.bind hstep ((h _ _ _ hrest fun _ => wordEnds_of_terminated hterminated).congr fun t => ?_)
      constructor
      · intro hgiven
        obtain ⟨ls, hls, hbegins⟩ := hgiven
        exact (hmem t ls hls hbegins).2.2
      · intro hgiven
        obtain ⟨ls, hls, hwritten⟩ := hgiven
        refine ⟨.number ⟨none, literal, hliteral.1, hliteral.2⟩ :: ls, Language.mem_iSup.2 ⟨_, mem_unsignedInteger_mul.2
          ⟨_, ls, rfl, rfl, rfl, hmax, hls⟩⟩, rest, htext, hwritten⟩
    · rw [if_neg hmax] at husize
      have hfails : Fails input (parseLimit input) position := by
        refine Fails.after rfl (Fails.after hscan (Fails.after rfl (Fails.after hslice ?_)))
        rw [if_neg (mt hinvalid.1 (not_not_intro hliteral)), husize]
        refine fails_call ?_
        intro offset ho
        cases ho
        exact hat.boundary
      refine hfails.bind.decides fun t hgiven => ?_
      obtain ⟨ls, hls, hbegins⟩ := hgiven
      exact hmax (hmem t ls hls hbegins).2.1
  · have hfails : Fails input (parseLimit input) position := by
      refine Fails.after rfl (Fails.after hscan (Fails.after rfl (Fails.after hslice ?_)))
      rw [if_pos (hinvalid.2 hliteral)]
      refine fails_call ?_
      intro offset ho
      cases ho
      exact hat.boundary
    refine hfails.bind.decides fun t hgiven => ?_
    obtain ⟨ls, hls, hbegins⟩ := hgiven
    exact hliteral (hmem t ls hls hbegins).1

end

/-! ## Operators -/

def Symbol.operator : Symbol → Option ComparisonOperator
  | eq => some .eq
  | bangEq | ltGt => some .ne
  | lt => some .lt
  | le => some .le
  | gt => some .gt
  | ge => some .ge
  | _ => none

def isOperatorChar (c : Char) : Bool := c = '=' || c = '!' || c = '<' || c = '>'

section
variable {τ : Type} {input : String} {position : Nat} {text rest : List Char} {s : Symbol} {operator : ComparisonOperator}

theorem mem_comparisonOperator_mul {l : Language Lexeme} {ls : List Lexeme} : ls ∈ comparisonOperator operator * l ↔
    ∃ s rest, ls = .symbol s :: rest ∧ s.operator = some operator ∧ rest ∈ l := by
  constructor
  · intro h
    cases operator with
    | ne =>
      rw [comparisonOperator, add_mul, Language.mem_add, mem_mark_mul, mem_mark_mul] at h
      rcases h with ⟨rest, hls, hrest⟩ | ⟨rest, hls, hrest⟩
      · exact ⟨_, rest, hls, rfl, hrest⟩
      · exact ⟨_, rest, hls, rfl, hrest⟩
    | _ =>
      obtain ⟨rest, hls, hrest⟩ := mem_mark_mul.1 h
      exact ⟨_, rest, hls, rfl, hrest⟩
  · intro hgiven
    obtain ⟨s, rest, hls, hs, hrest⟩ := hgiven
    have hmark : ls ∈ mark s * l := mem_mark_mul.2 ⟨rest, hls, hrest⟩
    cases s <;> cases hs <;> first | exact hmark | skip
    · rw [comparisonOperator, add_mul]
      exact .inl hmark
    · rw [comparisonOperator, add_mul]
      exact .inr hmark

theorem bytesAhead {c : Char} (hat : At input position (c :: text)) (hc : c.toNat < 128) (d : Char) (hd : d.toNat < 128) :
    ((utf8 input)[position + 1]? = some d.toUInt8 ↔ text.head? = some d) := by
  have hsize : c.utf8Size = 1 := by
    rw [Char.utf8Size_eq_one_iff, UInt32.le_iff_toNat_le]
    exact Nat.le_of_lt_succ hc
  have hnext := @At.advance input position [c] text hat
  rw [byteLen_cons, byteLen_nil, hsize] at hnext
  exact hnext.getElem?_eq_some hd

theorem comparisonOperatorAt_symbol (hat : At input position (s.chars ++ rest)) (hs : s.operator = some operator)
    (hends : ∀ c ∈ rest.head?, isOperatorChar c = false) :
    comparisonOperatorAt (utf8 input)[position]? (utf8 input)[position + 1]? = some (operator, s.chars.length) := by
  have hnext : ∀ d : Char, isOperatorChar d = true → rest.head? ≠ some d := by
    intro d hd hhead
    rw [hends d hhead] at hd
    cases hd
  have hfirst : ∀ c text, s.chars ++ rest = c :: text → c.toNat < 128 → (utf8 input)[position]? = some c.toUInt8 ∧
      ∀ d : Char, d.toNat < 128 → ((utf8 input)[position + 1]? = some d.toUInt8 ↔ text.head? = some d) := by
    intro c text htext hc
    rw [htext] at hat
    exact ⟨(hat.getElem?_eq_some hc).2 rfl, bytesAhead hat hc⟩
  cases s <;> cases hs
  · obtain ⟨h1, _⟩ := hfirst '=' rest rfl (by decide)
    rw [h1]
    rfl
  · obtain ⟨h1, h2⟩ := hfirst '!' ('=' :: rest) rfl (by decide)
    rw [h1, (h2 '=' (by decide)).2 rfl]
    rfl
  · obtain ⟨h1, h2⟩ := hfirst '<' ('>' :: rest) rfl (by decide)
    rw [h1, (h2 '>' (by decide)).2 rfl]
    rfl
  · obtain ⟨h1, h2⟩ := hfirst '<' rest rfl (by decide)
    have hgt := mt (h2 '>' (by decide)).1 (hnext '>' rfl)
    have heq := mt (h2 '=' (by decide)).1 (hnext '=' rfl)
    rw [h1, comparisonOperatorAt]
    simp only [hgt, heq, and_false, if_false]
    rfl
  · obtain ⟨h1, h2⟩ := hfirst '<' ('=' :: rest) rfl (by decide)
    rw [h1, (h2 '=' (by decide)).2 rfl]
    rfl
  · obtain ⟨h1, h2⟩ := hfirst '>' rest rfl (by decide)
    have heq := mt (h2 '=' (by decide)).1 (hnext '=' rfl)
    rw [h1, comparisonOperatorAt]
    simp only [heq, and_false, if_false]
    rfl
  · obtain ⟨h1, h2⟩ := hfirst '>' ('=' :: rest) rfl (by decide)
    rw [h1, (h2 '=' (by decide)).2 rfl]
    rfl

theorem symbol_of_comparisonOperatorAt {length : Nat} (hat : At input position text)
    (h : comparisonOperatorAt (utf8 input)[position]? (utf8 input)[position + 1]? = some (operator, length)) :
    ∃ (s : Symbol) (rest : List Char), text = s.chars ++ rest ∧ s.operator = some operator ∧ s.chars.length = length := by
  have hfirst : ∀ c : Char, c.toNat < 128 → (utf8 input)[position]? = some c.toUInt8 → ∃ rest, text = c :: rest ∧
      ∀ d : Char, d.toNat < 128 → (utf8 input)[position + 1]? = some d.toUInt8 → ∃ rest', rest = d :: rest' := by
    intro c hc hbyte
    have hhead := (hat.getElem?_eq_some hc).1 hbyte
    cases text with
    | nil => cases hhead
    | cons c' rest =>
      obtain rfl := Option.some.inj hhead
      refine ⟨rest, rfl, ?_⟩
      intro d hd hbyte'
      have hhead' := (bytesAhead hat hc d hd).1 hbyte'
      cases rest with
      | nil => cases hhead'
      | cons d' rest' =>
        obtain rfl := Option.some.inj hhead'
        exact ⟨rest', rfl⟩
  have hone : ∀ (s : Symbol) (c : Char), s.chars = [c] → c.toNat < 128 → (utf8 input)[position]? = some c.toUInt8 →
      some (operator, length) = s.operator.map (·, 1) →
        ∃ (s : Symbol) (rest : List Char), text = s.chars ++ rest ∧ s.operator = some operator ∧ s.chars.length = length := by
    intro s c hs hc hbyte hoperator
    obtain ⟨rest, rfl, _⟩ := hfirst c hc hbyte
    cases hop : s.operator with
    | none =>
      rw [hop] at hoperator
      cases hoperator
    | some operator' =>
      rw [hop] at hoperator
      cases hoperator
      exact ⟨s, rest, by rw [hs]; rfl, hop, by rw [hs]; rfl⟩
  have htwo : ∀ (s : Symbol) (c d : Char), s.chars = [c, d] → c.toNat < 128 → d.toNat < 128 →
      (utf8 input)[position]? = some c.toUInt8 → (utf8 input)[position + 1]? = some d.toUInt8 →
      some (operator, length) = s.operator.map (·, 2) →
        ∃ (s : Symbol) (rest : List Char), text = s.chars ++ rest ∧ s.operator = some operator ∧ s.chars.length = length := by
    intro s c d hs hc hd hbyte hbyte' hoperator
    obtain ⟨rest, rfl, hsecond⟩ := hfirst c hc hbyte
    obtain ⟨rest', rfl⟩ := hsecond d hd hbyte'
    cases hop : s.operator with
    | none =>
      rw [hop] at hoperator
      cases hoperator
    | some operator' =>
      rw [hop] at hoperator
      cases hoperator
      exact ⟨s, rest', by rw [hs]; rfl, hop, by rw [hs]; rfl⟩
  cases hbyte : (utf8 input)[position]? with
  | none =>
    rw [hbyte] at h
    cases h
  | some first =>
    rw [hbyte, comparisonOperatorAt] at h
    split_ifs at h with h1 h2 h3 h4 h5 h6 h7
    · exact hone .eq '=' rfl (by decide) (hbyte.trans (congrArg some h1)) h.symm
    · exact htwo .bangEq '!' '=' rfl (by decide) (by decide) (hbyte.trans (congrArg some h2.1)) h2.2 h.symm
    · exact htwo .ltGt '<' '>' rfl (by decide) (by decide) (hbyte.trans (congrArg some h3.1)) h3.2 h.symm
    · exact htwo .le '<' '=' rfl (by decide) (by decide) (hbyte.trans (congrArg some h4.1)) h4.2 h.symm
    · exact hone .lt '<' rfl (by decide) (hbyte.trans (congrArg some h5)) h.symm
    · exact htwo .ge '>' '=' rfl (by decide) (by decide) (hbyte.trans (congrArg some h6.1)) h6.2 h.symm
    · exact hone .gt '>' rfl (by decide) (hbyte.trans (congrArg some h7)) h.symm

theorem byteLen_symbol (s : Symbol) : byteLen s.chars = s.chars.length := by cases s <;> rfl

def IsNumber (l? : Option Lexeme) : Prop := ∃ n, l? = some (.number n)

theorem operator_ends {ls : List Lexeme} (h : IsNumber ls.head?) (hwritten : Written .free ls rest) :
    ∀ c ∈ rest.head?, isOperatorChar c = false := by
  intro c hc
  obtain ⟨_, hbegins⟩ := written_iff_dropWhile.1 hwritten
  have hdigit : ∀ c : Char, c.isDigit = true → isOperatorChar c = false := by
    intro c hc
    refine Bool.eq_false_of_not_eq_true fun hop => ?_
    simp only [isOperatorChar, Bool.or_eq_true, decide_eq_true_eq] at hop
    rcases hop with ((rfl | rfl) | rfl) | rfl <;> cases hc
  cases rest with
  | nil => cases hc
  | cons c' rest =>
    cases hc
    by_cases hblank : isBlank c = true
    · refine Bool.eq_false_of_not_eq_true fun hop => ?_
      simp only [isOperatorChar, Bool.or_eq_true, decide_eq_true_eq] at hop
      rcases hop with ((rfl | rfl) | rfl) | rfl <;> cases hblank
    · rw [List.dropWhile_cons_of_neg hblank] at hbegins
      obtain ⟨n, hn⟩ := h
      cases ls with
      | nil => cases hn
      | cons l ls =>
        obtain rfl := Option.some.inj hn
        obtain ⟨rest', htext, _⟩ := hbegins
        rw [Lexeme.chars, Numeral.chars] at htext
        cases hsign : n.sign with
        | some sign =>
          rw [hsign] at htext
          obtain rfl := (List.cons.inj htext).1
          cases sign <;> rfl
        | none =>
          rw [hsign] at htext
          cases hdigits : n.digits with
          | nil => exact absurd hdigits n.digits_ne_nil
          | cons d digits =>
            rw [hdigits] at htext
            obtain rfl := (List.cons.inj htext).1
            exact hdigit _ (n.isDigit _ (hdigits ▸ List.mem_cons_self ..))

theorem Reads.comparisonOperator {k : ComparisonOperator → Parse τ} {L : ComparisonOperator → τ → Language Lexeme}
    (h : ∀ operator, Reads input (k operator) (.behind .free) (L operator))
    (hheads : ∀ operator t, Heads IsNumber (L operator t)) :
    Reads input (parseComparisonOperator input >>= k) .token
      fun t => ⨆ operator, OneColumn.comparisonOperator operator * L operator t := by
  intro position text hat _
  have hmem : ∀ t ls, ls ∈ ⨆ operator, OneColumn.comparisonOperator operator * L operator t → Begins ls text →
      ∃ (s : Symbol) (operator : ComparisonOperator) (rest : List Char) (ls' : List Lexeme),
        text = s.chars ++ rest ∧ s.operator = some operator ∧ (∀ c ∈ rest.head?, isOperatorChar c = false) ∧ ls' ∈ L operator t ∧ Written .free ls' rest := by
    intro t ls hls hbegins
    obtain ⟨operator, hls⟩ := Language.mem_iSup.1 hls
    obtain ⟨s, ls', rfl, hs, hls'⟩ := mem_comparisonOperator_mul.1 hls
    obtain ⟨rest, htext, hwritten⟩ := hbegins
    have hedge : (Lexeme.symbol s).edge = .free := by cases s <;> cases hs <;> rfl
    rw [hedge] at hwritten
    exact ⟨s, operator, rest, ls', htext, hs, operator_ends (hheads operator t ls' hls') hwritten, hls', hwritten⟩
  cases hfound : comparisonOperatorAt (utf8 input)[position]? (utf8 input)[position + 1]? with
  | none =>
    have hfails : Fails input (parseComparisonOperator input) position := by
      refine Fails.after rfl ?_
      rw [hfound]
      exact fails_unexpected hat.boundary _
    refine hfails.bind.decides fun t hgiven => ?_
    obtain ⟨ls, hls, hbegins⟩ := hgiven
    obtain ⟨s, operator, rest, ls', rfl, hs, hends, _⟩ := hmem t ls hls hbegins
    rw [comparisonOperatorAt_symbol hat hs hends] at hfound
    cases hfound
  | some found =>
    obtain ⟨operator, length⟩ := found
    obtain ⟨s, rest, htext, hs, hlength⟩ := symbol_of_comparisonOperatorAt hat hfound
    subst htext
    have hrest : At input (position + length) rest := by
      rw [← hlength, ← byteLen_symbol]
      exact hat.advance
    have hany := hrest.any_eq classifies_operator
    -- An acceptable operator is the one that was found.
    have hsame : ∀ t ls, ls ∈ ⨆ operator, OneColumn.comparisonOperator operator * L operator t →
        Begins ls (s.chars ++ rest) → (∀ c ∈ rest.head?, isOperatorChar c = false) ∧
          ∃ ls' ∈ L operator t, Written .free ls' rest := by
      intro t ls hls hbegins
      obtain ⟨s', operator', rest', ls', htext, hs', hends, hls', hwritten⟩ := hmem t ls hls hbegins
      have hfound' := comparisonOperatorAt_symbol (htext ▸ hat) hs' hends
      rw [hfound, Option.some.injEq, Prod.mk.injEq] at hfound'
      obtain ⟨rfl, hlength'⟩ := hfound'
      obtain ⟨_, rfl⟩ := List.append_inj htext (hlength.trans hlength')
      exact ⟨hends, ls', hls', hwritten⟩
    by_cases hends : ∀ c ∈ rest.head?, isOperatorChar c = false
    · have hnot : ¬ (utf8 input)[position + length]?.any isComparisonOperatorByte = true := by
        rw [hany, Option.any_eq_true]
        intro hgiven
        obtain ⟨c, hc, hop⟩ := hgiven
        have := hends c hc
        rw [isOperatorChar] at this
        rw [this] at hop
        cases hop
      have hstep : parseComparisonOperator input position = some (.ok operator, position + length) := by
        rw [parseComparisonOperator, Method.bind_of_ok rfl, hfound]
        dsimp only
        rw [Method.bind_of_ok rfl, Method.bind_of_ok peek_ok, if_neg hnot]
        rfl
      refine Decides.bind hstep ((h operator _ _ hrest fun hword => by cases hword).congr fun t => ?_)
      constructor
      · intro hgiven
        obtain ⟨ls, hls, hbegins⟩ := hgiven
        exact (hsame t ls hls hbegins).2
      · intro hgiven
        obtain ⟨ls, hls, hwritten⟩ := hgiven
        refine ⟨.symbol s :: ls, Language.mem_iSup.2 ⟨operator, mem_comparisonOperator_mul.2 ⟨s, ls, rfl, hs, hls⟩⟩, rest,
          rfl, ?_⟩
        have hedge : (Lexeme.symbol s).edge = .free := by cases s <;> cases hs <;> rfl
        rw [hedge]
        exact hwritten
    · have hfails : Fails input (parseComparisonOperator input) position := by
        refine Fails.after rfl ?_
        rw [hfound]
        refine Fails.after rfl (Fails.after peek_ok ?_)
        rw [if_pos]
        · exact Fails.after rfl (fails_unexpected hat.boundary _)
        · rw [hany, Option.any_eq_true]
          obtain ⟨c, hc, hop⟩ : ∃ c, c ∈ rest.head? ∧ ¬ isOperatorChar c = false := by
            by_contra hall
            exact hends fun c hc => by_contra fun hnot => hall ⟨c, hc, hnot⟩
          exact ⟨c, hc, Bool.eq_true_of_not_eq_false hop⟩
      refine hfails.bind.decides fun t hgiven => ?_
      obtain ⟨ls, hls, hbegins⟩ := hgiven
      exact hends (hsame t ls hls hbegins).1

end

/-! ## Values -/

def IsSymbol (s : Symbol) (l? : Option Lexeme) : Prop := l? = some (.symbol s)

section
variable {τ : Type} {input : String} {position : Nat} {text rest : List Char}

theorem head_of_isSymbol {ls : List Lexeme} {edge : Edge} {s : Symbol} {c : Char} (hs : s.chars = [c])
    (h : IsSymbol s ls.head?) (hwritten : Written edge ls rest) : (rest.dropWhile isBlank).head? = some c := by
  obtain ⟨_, hbegins⟩ := written_iff_dropWhile.1 hwritten
  cases ls with
  | nil => cases h
  | cons l ls =>
    obtain rfl := Option.some.inj h
    obtain ⟨rest', htext, _⟩ := hbegins
    rw [htext, Lexeme.chars, hs]
    rfl

theorem Reads.int64Literal {k : Int64 → Parse τ} {L : Int64 → τ → Language Lexeme}
    (h : ∀ v, Reads input (k v) .token (L v)) (hheads : ∀ v t, Heads (IsSymbol .rightParen) (L v t)) :
    Reads input (parseInt64Literal input >>= k) .token fun t => ⨆ v, int64 v * L v t := by
  intro position text hat _
  have hmem : ∀ t ls, ls ∈ ⨆ v, int64 v * L v t ↔ ∃ (n : Numeral) (rest : List Lexeme) (v : Int64),
      ls = .number n :: rest ∧ n.value = v.toInt ∧ rest ∈ L v t := by
    intro t ls
    rw [Language.mem_iSup]
    simp only [mem_int64_mul]
    constructor
    · intro hgiven
      obtain ⟨v, n, rest, hls⟩ := hgiven
      exact ⟨n, rest, v, hls⟩
    · intro hgiven
      obtain ⟨n, rest, v, hls⟩ := hgiven
      exact ⟨v, n, rest, hls⟩
  have hboundary : ∀ {p : Nat}, Boundary input p → ∀ offset ∈ (ParseError.invalidInt64 p).offset, Boundary input offset := by
    intro p hp offset ho
    cases ho
    exact hp
  rcases numeral_or text with hnone | ⟨n, rest, rfl, hdigits⟩
  · obtain ⟨position', hskip, hend⟩ := scan_no_numeral hat hnone
    have hfails : Fails input (parseInt64Literal input) position := by
      refine Fails.after rfl (Fails.after hskip (Fails.after rfl (Fails.after skipWhile_ok (Fails.after rfl ?_))))
      rw [if_pos hend]
      exact fails_call (hboundary hat.boundary)
    refine hfails.bind.decides fun t hgiven => ?_
    obtain ⟨ls, hls, hbegins⟩ := hgiven
    obtain ⟨n, rest, v, rfl, _⟩ := (hmem t ls).1 hls
    exact not_begins_number hnone hbegins
  · obtain ⟨position', hskip, hend, hne⟩ := scan_numeral hat hdigits
    have hrest := hat.advance.runEnd classifies_whitespace
    have hhead := hrest.getElem?_eq_some (c := ')') (by decide)
    -- An acceptable number stands in front of the parenthesis.
    have hsame : ∀ t ls, ls ∈ ⨆ v, int64 v * L v t → Begins ls (n.chars ++ rest) →
        (rest.dropWhile isBlank).head? = some ')' ∧
          ∃ v, n.value = v.toInt ∧ ∃ ls' ∈ L v t, Begins ls' (rest.dropWhile isBlank) := by
      intro t ls hls hbegins
      obtain ⟨n', ls', v, rfl, hv, hls'⟩ := (hmem t ls).1 hls
      obtain ⟨rfl, hwritten⟩ := begins_number hdigits hbegins
      exact ⟨head_of_isSymbol rfl (hheads v t ls' hls') hwritten, v, hv, ls', hls', (written_iff_dropWhile.1 hwritten).2⟩
    by_cases hparen : (rest.dropWhile isBlank).head? = some ')'
    · have hbyte := hhead.2 hparen
      have hliteral := @parseLiteral_numeral rest n input position
        (runEnd isAsciiWhitespace (utf8 input) (position + byteLen n.chars)) hat
      have hstep : parseInt64Literal input position = parseLiteral input position (position + byteLen n.chars)
          (fun literal => Batch.parseInt64 literal.toList) .int64Overflow
          (runEnd isAsciiWhitespace (utf8 input) (position + byteLen n.chars)) := by
        rw [parseInt64Literal, Method.bind_of_ok rfl, Method.bind_of_ok hskip, Method.bind_of_ok rfl,
          Method.bind_of_ok skipWhile_ok, Method.bind_of_ok rfl, hend, if_neg hne, Method.bind_of_ok skipWhitespace_eq,
          Method.bind_of_ok rfl, Method.bind_of_ok peek_ok, hbyte]
        exact congrFun (if_neg (not_not_intro rfl)) _
      rcases hliteral with ⟨v, hv, hok⟩ | ⟨hoverflow, hfails⟩
      · refine Decides.bind (hstep.trans hok) ((h v _ _ hrest (head_dropWhile rest)).congr fun t => ?_)
        constructor
        · intro hgiven
          obtain ⟨ls, hls, hbegins⟩ := hgiven
          obtain ⟨_, v', hv', hls'⟩ := hsame t ls hls hbegins
          obtain rfl : v' = v := Int64.toInt_inj.1 (hv'.symm.trans hv)
          exact hls'
        · intro hgiven
          obtain ⟨ls, hls, hbegins⟩ := hgiven
          refine ⟨.number n :: ls, (hmem t _).2 ⟨n, ls, v, rfl, hv, hls⟩, rest, rfl, written_iff_dropWhile.2 ⟨?_, hbegins⟩⟩
          intro l hl hneeds
          rw [hheads v t ls hls] at hl
          cases hl
          exact hneeds.elim
      · obtain ⟨e, position'', hm, he⟩ := hfails
        refine (Fails.bind ⟨e, position'', hstep.trans hm, he⟩).decides fun t hgiven => ?_
        obtain ⟨ls, hls, hbegins⟩ := hgiven
        refine hoverflow ?_
        obtain ⟨_, v, hv, _⟩ := hsame t ls hls hbegins
        exact ⟨v, hv.symm⟩
    · have hfails : Fails input (parseInt64Literal input) position := by
        refine Fails.after rfl (Fails.after hskip (Fails.after rfl (Fails.after skipWhile_ok (Fails.after rfl ?_))))
        rw [hend, if_neg hne]
        refine Fails.after skipWhitespace_eq (Fails.after rfl (Fails.after peek_ok ?_))
        cases hbyte : (utf8 input)[runEnd isAsciiWhitespace (utf8 input) (position + byteLen n.chars)]? with
        | none => exact fails_unexpected hrest.boundary _
        | some byte =>
          dsimp only
          rw [if_pos]
          · exact fails_call (hboundary hrest.boundary)
          · intro heq
            exact hparen (hhead.1 (hbyte.trans (congrArg some heq)))
      refine hfails.bind.decides fun t hgiven => ?_
      obtain ⟨ls, hls, hbegins⟩ := hgiven
      exact hparen (hsame t ls hls hbegins).1

end

end RustHouse.OneColumn
