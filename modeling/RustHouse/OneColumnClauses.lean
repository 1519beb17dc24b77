import RustHouse.OneColumnSteps

/-!
# Clauses of the one-column parser

A clause decides the sum of its languages over all its trees, each followed by the
language of what is parsed behind it.
-/

namespace RustHouse.OneColumn

open Decimal (Numeral)
open Exec Scanning TextPositions Words
open Batch (eqIgnoreAsciiCase)

/-! ## Clauses -/

section
variable {τ α : Type} {input expected whitespace : String} {maxIdentifierBytes : Nat} {edge : Edge} {P : τ → Prop}
  {L : τ → Language Lexeme} {l : Language Lexeme} {s : Symbol} {c : Char}

theorem heads_identifier {C : Option Lexeme → Prop} {name : String} (h : ∀ w, C (some (.word w))) :
    Heads C (identifier maxIdentifierBytes name * l) := by
  intro ls hls
  obtain ⟨w, rest, rfl, _⟩ := mem_identifier_mul.1 hls
  exact h w

theorem gaps_keyword : Heads Edge.word.Gaps (keyword expected * l) := heads_keyword fun _ _ => ⟨_, rfl, trivial⟩

theorem gaps_identifier {name : String} : Heads Edge.word.Gaps (identifier maxIdentifierBytes name * l) :=
  heads_identifier fun _ => ⟨_, rfl, trivial⟩

theorem shuts_free : Heads Edge.free.Shuts l := fun _ _ _ _ => trivial

theorem shuts_symbol (s : Symbol) : edge.Shuts (some (.symbol s)) := by
  intro l hl
  cases hl
  cases edge with
  | free => trivial
  | word => trivial
  | paren => exact id

theorem shuts_none : edge.Shuts none := nofun

theorem shuts_word (w : Word) : Edge.word.Shuts (some (.word w)) := by
  intro l hl
  cases hl
  trivial

theorem Reads.whenMul {m : Parse τ} {place : Place} (h : Reads input m place fun t => l * when P L t) :
    Reads input m place (when P fun t => l * L t) := h.congr when_mul

theorem Reads.whenComponent {m : Parse τ} {place : Place} {G : α → Language Lexeme} (f : τ → α)
    (h : Reads input m place fun t => ⨆ a, G a * when (fun t => P t ∧ f t = a) L t) :
    Reads input m place (when P fun t => G (f t) * L t) := h.congr when_component

theorem Reads.keywordBeforeWord {k : Unit → Parse τ} (h : Reads input (k ()) .token L)
    (hneeds : ∀ t, Heads Edge.word.Gaps (L t)) :
    Reads input (OneColumn.keywordBeforeWord input expected whitespace >>= k) .token
      fun t => OneColumn.keyword expected * L t := by
  rw [OneColumn.keywordBeforeWord, Parse.bind_assoc]
  exact Reads.keyword (Reads.require h hneeds)

theorem Reads.byteBetween {k : Unit → Parse τ} (hs : s.chars = [c]) (hc : c.toNat < 128)
    (hedge : (Lexeme.symbol s).edge ≠ .word) (h : Reads input (k ()) .token L)
    (hshuts : ∀ t, Heads (Lexeme.symbol s).edge.Shuts (L t)) :
    Reads input (OneColumn.byteBetween input c.toUInt8 expected >>= k) (.behind edge) fun t => mark s * L t := by
  rw [OneColumn.byteBetween, Parse.bind_assoc]
  refine Reads.skip ?_ fun t => heads_mark (shuts_symbol s)
  rw [Parse.bind_assoc]
  exact Reads.byte hs hc (Reads.skip h hshuts) hedge

theorem Reads.end_ {t₀ : τ} (hP : ∀ t, P t ↔ t = t₀) :
    Reads input (parseEnd input >>= fun _ => pure t₀) .token (when P fun _ => 1) := by
  intro position text hat _
  have hend := hat.eq_length_iff
  by_cases htext : text = []
  · have hstep : parseEnd input position = some (.ok (), position) := by
      rw [parseEnd, Method.bind_of_ok rfl, if_neg (not_not_intro (hend.2 htext))]
      rfl
    refine Decides.bind hstep ?_
    intro t
    rw [← hP]
    constructor
    · intro hgiven
      obtain ⟨ls, hls, _⟩ := hgiven
      exact hls.1
    · intro ht
      exact ⟨[], ⟨ht, rfl⟩, htext⟩
  · have hfails : Fails input (parseEnd input) position := by
      refine Fails.after rfl ?_
      rw [if_pos (mt hend.1 htext)]
      refine fails_call ?_
      intro offset ho
      cases ho
      exact hat.boundary
    refine hfails.bind.decides fun t hgiven => ?_
    obtain ⟨ls, hls, hbegins⟩ := hgiven
    refine htext ?_
    obtain rfl := (Language.mem_one ls).1 hls.2
    exact hbegins

theorem Reads.ifByte {a : Unit → Parse α} {b : Parse α} {k : α → Parse τ} {G H : τ → Language Lexeme}
    (hs : s.chars = [c]) (hc : c.toNat < 128) (hedge : (Lexeme.symbol s).edge ≠ .word)
    (hthen : Reads input (a () >>= k) (.behind (Lexeme.symbol s).edge) G) (helse : Reads input (b >>= k) .token H)
    (hH : ∀ t, Heads (fun l? => ∀ s', l? = some (.symbol s') → s'.chars.head? ≠ some c) (H t))
    (hword : isWordStart c = false ∧ c.isDigit = false ∧ isSignChar c = false) :
    Reads input ((peek input >>= fun byte => if byte = some c.toUInt8 then Method.modify (· + 1) >>= a else b) >>= k) .token
      fun t => mark s * G t + H t := by
  intro position text hat hfits
  rw [Parse.bind_assoc]
  refine Decides.bind peek_ok ?_
  have hhead := hat.getElem?_eq_some hc
  by_cases hfound : text.head? = some c
  · rw [if_pos (hhead.2 hfound), Parse.bind_assoc]
    cases text with
    | nil => cases hfound
    | cons c' rest =>
      obtain rfl := Option.some.inj hfound
      have hsize : c'.utf8Size = 1 := by
        rw [Char.utf8Size_eq_one_iff, UInt32.le_iff_toNat_le]
        exact Nat.le_of_lt_succ hc
      have hnext := @At.advance input position [c'] rest hat
      rw [byteLen_cons, byteLen_nil, hsize] at hnext
      refine Decides.bind rfl ((hthen _ _ hnext fun hword => absurd hword hedge).congr fun t => ?_)
      constructor
      · intro hgiven
        obtain ⟨ls, hls, hbegins⟩ := hgiven
        rcases (Language.mem_add ..).1 hls with hls | hls
        · obtain ⟨ls', rfl, hls'⟩ := mem_mark_mul.1 hls
          obtain ⟨rest', htext, hwritten⟩ := hbegins
          rw [Lexeme.chars, hs] at htext
          obtain ⟨_, rfl⟩ := List.cons.inj htext
          exact ⟨ls', hls', hwritten⟩
        · exfalso
          cases ls with
          | nil => cases hbegins
          | cons l ls =>
            obtain ⟨rest', htext, _⟩ := hbegins
            cases l with
            | word w =>
              have hstart := w.starts
              rw [← (List.cons.inj htext).1, hword.1] at hstart
              cases hstart
            | number n =>
              have hskip := skipOne_numeral n rest'
              rw [Lexeme.chars] at htext
              rw [← htext, skipOne, if_neg (by rw [hword.2.2]; exact Bool.false_ne_true)] at hskip
              cases hdigits : n.digits with
              | nil => exact n.digits_ne_nil hdigits
              | cons d digits =>
                have hd := n.isDigit d (hdigits ▸ List.mem_cons_self ..)
                rw [hdigits] at hskip
                rw [← (List.cons.inj hskip).1, hword.2.1] at hd
                cases hd
            | symbol s' =>
              refine hH t _ hls s' rfl ?_
              obtain ⟨d, chars, hchars, _⟩ := (Lexeme.symbol s').head
              rw [Lexeme.chars] at hchars htext
              rw [hchars] at htext ⊢
              rw [(List.cons.inj htext).1]
              rfl
      · intro hgiven
        obtain ⟨ls, hls, hwritten⟩ := hgiven
        refine ⟨.symbol s :: ls, (Language.mem_add ..).2 (.inl (mem_mark_mul.2 ⟨ls, rfl, hls⟩)), rest, ?_, hwritten⟩
        rw [Lexeme.chars, hs]
        rfl
  · rw [if_neg (mt hhead.1 hfound)]
    refine (helse position text hat hfits).congr fun t => exists_congr fun ls => and_congr_left fun hbegins => ?_
    rw [Language.mem_add]
    refine or_iff_right fun hls => hfound ?_
    obtain ⟨ls', rfl, _⟩ := mem_mark_mul.1 hls
    obtain ⟨rest, rfl, _⟩ := hbegins
    rw [Lexeme.chars, hs]
    rfl

/-- What may stand behind a clause. -/
def AfterClause (l? : Option Lexeme) : Prop := l? = none ∨ l? = some (.symbol .semicolon) ∨ ∃ w, l? = some (.word w)

theorem AfterClause.endsNumber {l? : Option Lexeme} (h : AfterClause l?) : EndsNumber l? := by
  intro s hs
  rcases h with h | h | ⟨w, h⟩ <;> rw [h] at hs <;> cases hs
  rfl

theorem AfterClause.shuts {l? : Option Lexeme} (h : AfterClause l?) : Edge.word.Shuts l? := by
  rcases h with rfl | rfl | ⟨w, rfl⟩
  · exact shuts_none
  · exact shuts_symbol _
  · exact shuts_word w

theorem Reads.fromTable {k : String → Parse τ} {L : String → τ → Language Lexeme} (hedge : edge ≠ .free)
    (h : ∀ name, Reads input (k name) (.behind .word) (L name)) :
    Reads input (parseFromTable input maxIdentifierBytes >>= k) (.behind edge)
      fun t => ⨆ name, fromSyntax maxIdentifierBytes name * L name t := by
  simp only [fromSyntax, mul_assoc, ← Language.mul_iSup]
  rw [parseFromTable, Parse.bind_assoc]
  refine Reads.require ?_ ?_
  · rw [Parse.bind_assoc]
    refine Reads.keywordBeforeWord (Reads.identifier h) ?_
    intro t ls hls
    obtain ⟨name, hls⟩ := Language.mem_iSup.1 hls
    exact gaps_identifier ls hls
  · intro t
    refine heads_keyword fun w hw => ⟨_, rfl, ?_⟩
    cases edge with
    | free => exact absurd rfl hedge
    | word => trivial
    | paren => exact hw

theorem iSup_comparison {G : ComparisonPredicate → Language Lexeme} :
    ⨆ p, G p = ⨆ c, ⨆ o, ⨆ v, G { columnName := c, operator := o, value := v } := by
  refine le_antisymm (iSup_le fun p => ?_) ?_
  · exact le_iSup_of_le p.columnName (le_iSup_of_le p.operator (le_iSup_of_le p.value (le_refl _)))
  · exact iSup_le fun c => iSup_le fun o => iSup_le fun v => le_iSup G _

theorem heads_iSup {C : Option Lexeme → Prop} {G : α → Language Lexeme} (h : ∀ a, Heads C (G a)) : Heads C (⨆ a, G a) := by
  intro ls hls
  obtain ⟨a, hls⟩ := Language.mem_iSup.1 hls
  exact h a ls hls

theorem heads_int64 {C : Option Lexeme → Prop} {v : Int64} (h : ∀ n, C (some (.number n))) : Heads C (int64 v * l) := by
  intro ls hls
  obtain ⟨n, rest, rfl, _⟩ := mem_int64_mul.1 hls
  exact h n

theorem heads_comparisonOperator {C : Option Lexeme → Prop} {operator : ComparisonOperator}
    (h : ∀ s, C (some (.symbol s))) : Heads C (OneColumn.comparisonOperator operator * l) := by
  intro ls hls
  obtain ⟨s, rest, rfl, _⟩ := mem_comparisonOperator_mul.1 hls
  exact h s

theorem Reads.comparison {columnName : String} {k : ComparisonPredicate → Parse τ} {L : ComparisonPredicate → τ → Language Lexeme}
    (h : ∀ p, Reads input (k p) (.behind .word) (L p)) (hheads : ∀ p t, Heads EndsNumber (L p t)) :
    Reads input (parseComparison input columnName >>= k) .token fun t =>
      ⨆ o, OneColumn.comparisonOperator o * ⨆ v, int64 v * L { columnName, operator := o, value := v } t := by
  rw [parseComparison, Parse.bind_assoc]
  refine Reads.comparisonOperator (fun o => ?_) fun o t => heads_iSup fun v => heads_int64 fun n => ⟨n, rfl⟩
  rw [Parse.bind_assoc]
  refine Reads.skip ?_ fun t => shuts_free
  rw [Parse.bind_assoc]
  refine Reads.whereInt64 (fun v => ?_) fun v t => hheads _ t
  rw [Parse.pure_bind]
  exact h _

/-- The parts of a clause that is there, or what follows where it is not. -/
theorem whereSyntax_eq {G : α → Language Lexeme} {L : Option α → Language Lexeme} :
    ⨆ p, whereSyntax G p * L p = OneColumn.keyword "WHERE" * (⨆ a, G a * L (some a)) + L none := by
  rw [iSup_option, Language.mul_iSup, add_comm, whereSyntax, one_mul]
  simp only [whereSyntax, mul_assoc]
  rfl

theorem Reads.optionalComparison {k : Option ComparisonPredicate → Parse τ}
    {L : Option ComparisonPredicate → τ → Language Lexeme} (h : ∀ p, Reads input (k p) .token (L p))
    (hheads : ∀ p t, Heads (fun l? => AfterClause l? ∧ ¬ IsKeyword "WHERE" l?) (L p t)) :
    Reads input (parseOptionalComparisonPredicate input maxIdentifierBytes >>= k) .token
      fun t => ⨆ p, whereSyntax (comparisonSyntax maxIdentifierBytes) p * L p t := by
  simp only [whereSyntax_eq]
  rw [parseOptionalComparisonPredicate]
  refine Reads.ifKeyword ?_ ?_ (fun t => heads_keyword fun w hw => ⟨w, rfl, hw⟩) fun t ls hls => (hheads none t ls hls).2
  · rw [Parse.bind_assoc]
    refine Reads.keywordBeforeWord ?_ ?_
    · simp only [iSup_comparison, comparisonSyntax, mul_assoc, ← Language.mul_iSup]
      rw [Parse.bind_assoc]
      refine Reads.identifier fun c => ?_
      rw [Parse.bind_assoc]
      refine Reads.skip ?_ fun t => heads_iSup fun o => heads_comparisonOperator shuts_symbol
      rw [Parse.bind_assoc]
      refine Reads.comparison (L := fun p => L (some p)) (fun p => ?_) fun p t ls hls => (hheads _ t ls hls).1.endsNumber
      rw [Parse.bind_assoc]
      refine Reads.skip ?_ fun t ls hls => (hheads _ t ls hls).1.shuts
      rw [Parse.pure_bind]
      exact h _
    · intro t
      refine heads_iSup fun p => ?_
      rw [comparisonSyntax, mul_assoc, mul_assoc]
      exact gaps_identifier
  · rw [Parse.pure_bind]
    exact h none

theorem iSup_predicate {G : SelectPredicate → Language Lexeme} :
    ⨆ p, G p = (⨆ c, ⨆ n, G (.nullness { columnName := c, predicate := n })) +
      ⨆ c, ⨆ o, ⨆ v, G (.comparison { columnName := c, operator := o, value := v }) := by
  refine le_antisymm (iSup_le fun p => ?_) (sup_le ?_ ?_)
  · cases p with
    | nullness p =>
      exact le_sup_of_le_left (le_iSup_of_le p.columnName (le_iSup_of_le p.predicate (le_refl _)))
    | comparison p =>
      exact le_sup_of_le_right
        (le_iSup_of_le p.columnName (le_iSup_of_le p.operator (le_iSup_of_le p.value (le_refl _))))
  · exact iSup_le fun c => iSup_le fun n => le_iSup G _
  · exact iSup_le fun c => iSup_le fun o => iSup_le fun v => le_iSup G _

theorem not_isKeyword_symbol {s : Symbol} : ¬ IsKeyword expected (some (.symbol s)) := by
  intro hgiven
  obtain ⟨w, hw, _⟩ := hgiven
  cases hw

theorem Reads.optionalNot {k : NullPredicate → Parse τ} {L : NullPredicate → τ → Language Lexeme}
    (h : ∀ n, Reads input (k n) .token (L n)) (hgaps : ∀ t, Heads Edge.word.Gaps (L .isNotNull t))
    (hnot : ∀ t, Heads (fun l? => ¬ IsKeyword "NOT" l?) (L .isNull t)) :
    Reads input (parseOptionalNot input >>= k) .token fun t => ⨆ n, notSyntax n * L n t := by
  have hsplit : ∀ t, ⨆ n, notSyntax n * L n t = OneColumn.keyword "NOT" * L .isNotNull t + L .isNull t := by
    intro t
    refine le_antisymm (iSup_le fun n => ?_) (sup_le ?_ ?_)
    · cases n with
      | isNull => exact le_sup_of_le_right (by rw [notSyntax, one_mul])
      | isNotNull => exact le_sup_left
    · exact le_iSup (fun n => notSyntax n * L n t) .isNotNull
    · exact le_iSup_of_le .isNull (by rw [notSyntax, one_mul])
  simp only [hsplit]
  rw [parseOptionalNot]
  refine Reads.ifKeyword ?_ ?_ (fun t => heads_keyword fun w hw => ⟨w, rfl, hw⟩) hnot
  · rw [Parse.bind_assoc]
    refine Reads.keywordBeforeWord ?_ hgaps
    rw [Parse.pure_bind]
    exact h _
  · rw [Parse.pure_bind]
    exact h _

theorem Reads.predicateOn {columnName : String} {k : SelectPredicate → Parse τ} {L : SelectPredicate → τ → Language Lexeme}
    (h : ∀ p, Reads input (k p) (.behind .word) (L p)) (hheads : ∀ p t, Heads EndsNumber (L p t)) :
    Reads input (parsePredicateOn input columnName >>= k) .token fun t =>
      (OneColumn.keyword "IS" * ⨆ n, notSyntax n * (OneColumn.keyword "NULL" * L (.nullness { columnName, predicate := n }) t)) +
        ⨆ o, OneColumn.comparisonOperator o *
          ⨆ v, int64 v * L (.comparison { columnName, operator := o, value := v }) t := by
  rw [parsePredicateOn]
  refine Reads.ifKeyword ?_ ?_ (fun t => heads_keyword fun w hw => ⟨w, rfl, hw⟩) fun t =>
    heads_iSup fun o => heads_comparisonOperator fun s => not_isKeyword_symbol
  · rw [Parse.bind_assoc]
    refine Reads.keywordBeforeWord ?_ ?_
    · rw [Parse.bind_assoc]
      refine Reads.optionalNot (fun n => ?_) (fun t => gaps_keyword) fun t => heads_keyword ?_
      · rw [Parse.bind_assoc]
        refine Reads.keyword ?_
        rw [Parse.pure_bind]
        exact h _
      · intro w hw hgiven
        obtain ⟨w', hw', hnot⟩ := hgiven
        cases hw'
        rw [eqIgnoreAsciiCase, beq_iff_eq] at hw hnot
        exact absurd (hw.symm.trans hnot) (by decide)
    · intro t
      refine heads_iSup fun n => ?_
      cases n with
      | isNull =>
        rw [notSyntax, one_mul]
        exact gaps_keyword
      | isNotNull => exact gaps_keyword
  · rw [Parse.bind_assoc]
    refine Reads.comparison (L := fun p => L (.comparison p)) (fun p => ?_) fun p t => hheads _ t
    rw [Parse.pure_bind]
    exact h _

theorem Reads.optionalPredicate {k : Option SelectPredicate → Parse τ} {L : Option SelectPredicate → τ → Language Lexeme}
    (h : ∀ p, Reads input (k p) .token (L p))
    (hheads : ∀ p t, Heads (fun l? => AfterClause l? ∧ ¬ IsKeyword "WHERE" l?) (L p t)) :
    Reads input (parseOptionalPredicate input maxIdentifierBytes >>= k) .token
      fun t => ⨆ p, whereSyntax (predicateSyntax maxIdentifierBytes) p * L p t := by
  simp only [whereSyntax_eq]
  rw [parseOptionalPredicate]
  refine Reads.ifKeyword ?_ ?_ (fun t => heads_keyword fun w hw => ⟨w, rfl, hw⟩) fun t ls hls => (hheads none t ls hls).2
  · rw [Parse.bind_assoc]
    refine Reads.keywordBeforeWord ?_ ?_
    · simp only [iSup_predicate, predicateSyntax, comparisonSyntax, nullnessSyntax, mul_assoc, ← Language.mul_iSup]
      rw [Parse.bind_assoc]
      refine (Reads.identifier fun c => ?_).congr (funext fun t => (iSup_sup_eq.symm.trans
        (iSup_congr fun c => (mul_add ..).symm)))
      rw [Parse.bind_assoc]
      refine Reads.skip ?_ ?_
      · rw [Parse.bind_assoc]
        refine Reads.predicateOn (L := fun p => L (some p)) (fun p => ?_) fun p t ls hls => (hheads _ t ls hls).1.endsNumber
        rw [Parse.bind_assoc]
        refine Reads.skip ?_ fun t ls hls => (hheads _ t ls hls).1.shuts
        rw [Parse.pure_bind]
        exact h _
      · exact fun t => (heads_keyword fun w _ => shuts_word w).add
          (heads_iSup fun o => heads_comparisonOperator shuts_symbol)
    · intro t
      refine heads_iSup fun p => ?_
      cases p with
      | comparison p =>
        rw [predicateSyntax, comparisonSyntax, mul_assoc, mul_assoc]
        exact gaps_identifier
      | nullness p =>
        rw [predicateSyntax, nullnessSyntax, mul_assoc, mul_assoc, mul_assoc]
        exact gaps_identifier
  · rw [Parse.pure_bind]
    exact h none

theorem heads_zero {C : Option Lexeme → Prop} : Heads C (0 : Language Lexeme) := fun _ h => h.elim

theorem Reads.unexpected {k : α → Parse τ} : Reads input (OneColumn.unexpected expected >>= k) .token fun _ => 0 := by
  intro position text hat _
  refine (fails_unexpected hat.boundary expected).bind.decides fun t hgiven => ?_
  obtain ⟨ls, hls, _⟩ := hgiven
  exact hls.elim

theorem Reads.either {first second : String} {a b : α} {k : α → Parse τ} {G H : τ → Language Lexeme}
    (hapart : toAsciiLowercase first ≠ toAsciiLowercase second)
    (ha : Reads input (k a) (.behind .word) G) (hb : Reads input (k b) (.behind .word) H) :
    Reads input (parseEither input first second expected a b >>= k) .token
      fun t => OneColumn.keyword first * G t + OneColumn.keyword second * H t := by
  have hother : ∀ w : Word, eqIgnoreAsciiCase w.text second = true → ¬ IsKeyword first (some (.word w)) := by
    intro w hw hgiven
    obtain ⟨w', hw', hfirst⟩ := hgiven
    cases hw'
    rw [eqIgnoreAsciiCase, beq_iff_eq] at hw hfirst
    exact hapart (hfirst.symm.trans hw)
  rw [parseEither]
  refine Reads.ifKeyword ?_ ?_ (fun t => heads_keyword fun w hw => ⟨w, rfl, hw⟩) fun t => heads_keyword hother
  · rw [Parse.bind_assoc]
    refine Reads.keyword ?_
    rw [Parse.pure_bind]
    exact ha
  · refine (Reads.ifKeyword ?_ Reads.unexpected (fun t => heads_keyword fun w hw => ⟨w, rfl, hw⟩) fun t => heads_zero).congr
      (funext fun t => (add_zero _).symm)
    rw [Parse.bind_assoc]
    refine Reads.keyword ?_
    rw [Parse.pure_bind]
    exact hb

theorem iSup_orderBy {G : OrderByClause → Language Lexeme} :
    ⨆ o, G o = ⨆ c, ⨆ d, ⨆ n, G { columnName := c, direction := d, nullOrder := n } := by
  refine le_antisymm (iSup_le fun o => ?_) ?_
  · exact le_iSup_of_le o.columnName (le_iSup_of_le o.direction (le_iSup_of_le o.nullOrder (le_refl _)))
  · exact iSup_le fun c => iSup_le fun d => iSup_le fun n => le_iSup G _

theorem iSup_direction {L : OrderDirection → Language Lexeme} : ⨆ d, directionSyntax d * L d =
    OneColumn.keyword "ASC" * L .asc + OneColumn.keyword "DESC" * L .desc := by
  refine le_antisymm (iSup_le fun d => ?_) (sup_le ?_ ?_)
  · cases d with
    | asc => exact le_sup_left
    | desc => exact le_sup_right
  · exact le_iSup (fun d => directionSyntax d * L d) .asc
  · exact le_iSup (fun d => directionSyntax d * L d) .desc

theorem iSup_nullOrder {L : NullOrder → Language Lexeme} : ⨆ n, nullOrderSyntax n * L n =
    OneColumn.keyword "FIRST" * L .first + OneColumn.keyword "LAST" * L .last := by
  refine le_antisymm (iSup_le fun n => ?_) (sup_le ?_ ?_)
  · cases n with
    | first => exact le_sup_left
    | last => exact le_sup_right
  · exact le_iSup (fun n => nullOrderSyntax n * L n) .first
  · exact le_iSup (fun n => nullOrderSyntax n * L n) .last

theorem Reads.optionalOrderBy {k : Option OrderByClause → Parse τ} {L : Option OrderByClause → τ → Language Lexeme}
    (h : ∀ o, Reads input (k o) .token (L o))
    (hheads : ∀ o t, Heads (fun l? => AfterClause l? ∧ ¬ IsKeyword "ORDER" l?) (L o t)) :
    Reads input (parseOptionalOrderBy input maxIdentifierBytes >>= k) .token
      fun t => ⨆ o, orderBySyntax maxIdentifierBytes o * L o t := by
  have hsplit : ∀ t, ⨆ o, orderBySyntax maxIdentifierBytes o * L o t = OneColumn.keyword "ORDER" *
      (OneColumn.keyword "BY" * ⨆ c, OneColumn.identifier maxIdentifierBytes c * ⨆ d, directionSyntax d *
        (OneColumn.keyword "NULLS" * ⨆ n, nullOrderSyntax n * L (some { columnName := c, direction := d, nullOrder := n }) t)) +
      L none t := by
    intro t
    rw [iSup_option, iSup_orderBy, orderBySyntax, one_mul]
    simp only [orderBySyntax, mul_assoc, ← Language.mul_iSup]
    exact add_comm _ _
  simp only [hsplit]
  rw [parseOptionalOrderBy]
  refine Reads.ifKeyword ?_ ?_ (fun t => heads_keyword fun w hw => ⟨w, rfl, hw⟩) fun t ls hls => (hheads none t ls hls).2
  · rw [Parse.bind_assoc]
    refine Reads.keywordBeforeWord ?_ fun t => gaps_keyword
    rw [Parse.bind_assoc]
    refine Reads.keywordBeforeWord ?_ fun t => heads_iSup fun c => gaps_identifier
    rw [Parse.bind_assoc]
    refine Reads.identifier fun c => ?_
    rw [Parse.bind_assoc]
    simp only [iSup_direction, iSup_nullOrder]
    refine Reads.require ?_ fun t => gaps_keyword.add gaps_keyword
    rw [Parse.bind_assoc]
    have hdirection : ∀ d, Reads input ((requireWhitespace input "whitespace before NULLS" >>= fun _ =>
        OneColumn.keywordBeforeWord input "NULLS" "whitespace after NULLS" >>= fun _ =>
        parseEither input "FIRST" "LAST" "FIRST or LAST" NullOrder.first .last >>= fun n =>
        skipWhitespace input >>= fun _ => pure (some { columnName := c, direction := d, nullOrder := n })) >>= k)
        (.behind .word) fun t => OneColumn.keyword "NULLS" *
          (OneColumn.keyword "FIRST" * L (some { columnName := c, direction := d, nullOrder := .first }) t +
            OneColumn.keyword "LAST" * L (some { columnName := c, direction := d, nullOrder := .last }) t) := by
      intro d
      rw [Parse.bind_assoc]
      refine Reads.require ?_ fun t => gaps_keyword
      rw [Parse.bind_assoc]
      refine Reads.keywordBeforeWord ?_ fun t => gaps_keyword.add gaps_keyword
      rw [Parse.bind_assoc]
      refine Reads.either (by decide) ?_ ?_
      · rw [Parse.bind_assoc]
        refine Reads.skip ?_ fun t ls hls => (hheads _ t ls hls).1.shuts
        rw [Parse.pure_bind]
        exact h _
      · rw [Parse.bind_assoc]
        refine Reads.skip ?_ fun t ls hls => (hheads _ t ls hls).1.shuts
        rw [Parse.pure_bind]
        exact h _
    exact Reads.either (by decide) (hdirection .asc) (hdirection .desc)
  · rw [Parse.pure_bind]
    exact h none

theorem heads_unsignedInteger {C : Option Lexeme → Prop} {n : Nat} (h : ∀ n, C (some (.number n))) :
    Heads C (unsignedInteger n * l) := by
  intro ls hls
  obtain ⟨m, rest, rfl, _⟩ := mem_unsignedInteger_mul.1 hls
  exact h m

theorem Reads.optionalLimit {k : Option Nat → Parse τ} {L : Option Nat → τ → Language Lexeme}
    (h : ∀ n, Reads input (k n) .token (L n))
    (hheads : ∀ n t, Heads (fun l? => AfterClause l? ∧ ¬ IsKeyword "LIMIT" l?) (L n t)) :
    Reads input (parseOptionalLimit input >>= k) .token fun t => ⨆ n, limitSyntax n * L n t := by
  have hsplit : ∀ t, ⨆ n, limitSyntax n * L n t =
      OneColumn.keyword "LIMIT" * (⨆ n, unsignedInteger n * L (some n) t) + L none t := by
    intro t
    rw [iSup_option, limitSyntax, one_mul]
    simp only [limitSyntax, mul_assoc, ← Language.mul_iSup]
    exact add_comm _ _
  simp only [hsplit]
  rw [parseOptionalLimit]
  refine Reads.ifKeyword ?_ ?_ (fun t => heads_keyword fun w hw => ⟨w, rfl, hw⟩) fun t ls hls => (hheads none t ls hls).2
  · rw [Parse.bind_assoc]
    refine Reads.keywordBeforeWord ?_ fun t => heads_iSup fun n => heads_unsignedInteger fun m => ⟨_, rfl, trivial⟩
    rw [Parse.bind_assoc]
    refine Reads.limit (fun n => ?_) fun n t ls hls => (hheads _ t ls hls).1.endsNumber
    rw [Parse.bind_assoc]
    refine Reads.skip ?_ fun t ls hls => (hheads _ t ls hls).1.shuts
    rw [Parse.pure_bind]
    exact h _
  · rw [Parse.pure_bind]
    exact h none

end

/-! ## Words ahead -/

section
variable {τ α : Type} {input expected : String} {maxIdentifierBytes : Nat} {P : τ → Prop} {L : τ → Language Lexeme}
  {rest : List Char} {ls : List Lexeme}

theorem follows_iff (hwritten : Written .word ls rest) :
    (rest.takeWhile isBlank ≠ [] ∧ Leads expected (rest.dropWhile isBlank)) ↔ IsKeyword expected ls.head? := by
  obtain ⟨hneeds, hbegins⟩ := written_iff_dropWhile.1 hwritten
  rw [leads_of_begins hbegins]
  refine and_iff_right_of_imp fun hgiven => ?_
  obtain ⟨w, hw, _⟩ := hgiven
  exact hneeds (.word w) hw trivial

theorem Reads.projectedColumn {k : String → Parse τ} {L : String → τ → Language Lexeme}
    (h : ∀ name, Reads input (k name) (.behind .word) (L name))
    (hheads : ∀ name t, Heads (IsKeyword "FROM") (L name t)) :
    Reads input (parseProjectedColumn input maxIdentifierBytes >>= k) .token
      fun t => ⨆ name, OneColumn.identifier maxIdentifierBytes name * L name t := by
  intro position text hat hfits
  have hidentifier : Decides input (parseIdentifier input maxIdentifierBytes >>= k) position _ :=
    Reads.identifier h position text hat hfits
  rw [parseProjectedColumn, Parse.bind_assoc]
  obtain ⟨found, hfound, hiff⟩ := keywordAtPosition_ok hat "FROM"
  refine Decides.bind hfound ?_
  rw [Parse.bind_assoc]
  rcases word_or text with hnone | ⟨w, rest, rfl, hends⟩
  · have hfollows : keywordFollowsCurrentWord input "FROM" position = some (.ok false, position) := by
      rw [keywordFollowsCurrentWord, Method.bind_of_ok rfl, wordEnd_none hat hnone]
      rfl
    have hnot : found = false := Bool.eq_false_of_not_eq_true fun hf => not_leads hnone (hiff.1 hf)
    refine Decides.bind hfollows ?_
    rw [hnot, if_neg (by decide)]
    exact hidentifier
  · obtain ⟨found', hfound', hiff'⟩ := keywordFollows_ok hat hends "FROM"
    refine Decides.bind hfound' ?_
    by_cases hmissing : (found && !found') = true
    · rw [if_pos hmissing]
      rw [Bool.and_eq_true, Bool.not_eq_true'] at hmissing
      refine (fails_unexpected hat.boundary _).bind.decides fun t hgiven => ?_
      obtain ⟨ls, hls, hbegins⟩ := hgiven
      obtain ⟨name, hls⟩ := Language.mem_iSup.1 hls
      obtain ⟨w', ls', rfl, _, _, hls'⟩ := mem_identifier_mul.1 hls
      obtain ⟨rfl, hwritten⟩ := begins_word hends hbegins
      rw [hiff'.2 ((follows_iff hwritten).2 (hheads name t ls' hls'))] at hmissing
      cases hmissing.2
    · rw [if_neg hmissing]
      exact hidentifier

def WordSecond (ls : List Lexeme) : Prop := ∃ l w rest, ls = l :: .word w :: rest

theorem Reads.ifNotExists {k : Bool → Parse τ} {L : Bool → τ → Language Lexeme}
    (h : ∀ b, Reads input (k b) .token (L b)) (hgaps : ∀ t, Heads Edge.word.Gaps (L true t))
    (hsecond : ∀ t, ∀ ls ∈ L false t, ¬ WordSecond ls) :
    Reads input (parseIfNotExists input >>= k) .token fun t => ⨆ b, ifNotExistsSyntax b * L b t := by
  have hthen : Reads input ((OneColumn.keywordBeforeWord input "IF" "whitespace after IF" >>= fun _ =>
      OneColumn.keywordBeforeWord input "NOT" "whitespace after NOT" >>= fun _ =>
      OneColumn.keywordBeforeWord input "EXISTS" "whitespace after EXISTS" >>= fun _ => pure true) >>= k) .token
      fun t => OneColumn.keyword "IF" * (OneColumn.keyword "NOT" * (OneColumn.keyword "EXISTS" * L true t)) := by
    rw [Parse.bind_assoc]
    refine Reads.keywordBeforeWord ?_ fun t => gaps_keyword
    rw [Parse.bind_assoc]
    refine Reads.keywordBeforeWord ?_ fun t => gaps_keyword
    rw [Parse.bind_assoc]
    refine Reads.keywordBeforeWord ?_ hgaps
    rw [Parse.pure_bind]
    exact h true
  have hsplit : ∀ t, ⨆ b, ifNotExistsSyntax b * L b t =
      OneColumn.keyword "IF" * (OneColumn.keyword "NOT" * (OneColumn.keyword "EXISTS" * L true t)) + L false t := by
    intro t
    rw [iSup_bool_eq, ifNotExistsSyntax, ifNotExistsSyntax, one_mul, mul_assoc, mul_assoc]
    rfl
  intro position text hat hfits
  rw [parseIfNotExists, Parse.bind_assoc]
  obtain ⟨found, hfound, hiff⟩ := keywordAtPosition_ok hat "IF"
  refine Decides.bind hfound ?_
  rw [Parse.bind_assoc]
  -- The three words are there if the second one is `NOT`.
  have hchoice : ∃ found', keywordFollowsCurrentWord input "NOT" position = some (.ok found', position) ∧
      ((found && found') = true → ∀ ls, Begins ls text → WordSecond ls) ∧ ∀ t ls,
        ls ∈ OneColumn.keyword "IF" * (OneColumn.keyword "NOT" * (OneColumn.keyword "EXISTS" * L true t)) →
          Begins ls text → (found && found') = true := by
    rcases word_or text with hnone | ⟨w, rest, rfl, hends⟩
    · refine ⟨false, ?_, fun hand => ?_, fun t ls hls hbegins => ?_⟩
      · rw [keywordFollowsCurrentWord, Method.bind_of_ok rfl, wordEnd_none hat hnone]
        rfl
      · rw [Bool.and_false] at hand
        cases hand
      · obtain ⟨w, ls', rfl, _⟩ := mem_keyword_mul.1 hls
        exact absurd hbegins (not_begins_word hnone)
    · obtain ⟨found', hfound', hiff'⟩ := keywordFollows_ok hat hends "NOT"
      refine ⟨found', hfound', fun hand ls hbegins => ?_, fun t ls hls hbegins => ?_⟩
      · rw [Bool.and_eq_true] at hand
        obtain ⟨ls', rfl, hwritten⟩ := (begins_word_iff hends).1 hbegins
        obtain ⟨w', hw', _⟩ := (follows_iff hwritten).1 (hiff'.1 hand.2)
        cases ls' with
        | nil => cases hw'
        | cons l ls' =>
          obtain rfl := Option.some.inj hw'
          exact ⟨_, w', ls', rfl⟩
      · obtain ⟨w', ls', rfl, hw', hls'⟩ := mem_keyword_mul.1 hls
        obtain ⟨w'', ls'', rfl, hw'', _⟩ := mem_keyword_mul.1 hls'
        obtain ⟨rfl, hwritten⟩ := begins_word hends hbegins
        rw [Bool.and_eq_true]
        exact ⟨hiff.2 ((leads_word_iff hends).2 hw'), hiff'.2 ((follows_iff hwritten).2 ⟨w'', rfl, hw''⟩)⟩
  obtain ⟨found', hfound', hsome, hall⟩ := hchoice
  refine Decides.bind hfound' ?_
  by_cases hand : (found && found') = true
  · rw [if_pos hand]
    refine (hthen position text hat hfits).congr fun t => exists_congr fun ls => and_congr_left fun hbegins => ?_
    dsimp only
    rw [hsplit, Language.mem_add]
    exact or_iff_left fun hls => hsecond t ls hls (hsome hand ls hbegins)
  · rw [if_neg hand, Parse.pure_bind]
    refine (h false position text hat hfits).congr fun t => exists_congr fun ls => and_congr_left fun hbegins => ?_
    dsimp only
    rw [hsplit, Language.mem_add]
    exact or_iff_right fun hls => hand (hall t ls hls hbegins)

/-! ## Types and arguments -/

theorem Reads.ifAhead {a b : Parse α} {k : α → Parse τ} {G H : τ → Language Lexeme} {s : Symbol} {c : Char}
    (hs : s.chars = [c]) (hc : c.toNat < 128) (hthen : Reads input (a >>= k) .token G)
    (helse : Reads input (b >>= k) .token H) (hG : ∀ t, Heads (IsSymbol s) (G t))
    (hH : ∀ t, Heads (fun l? => ∃ w, l? = some (.word w)) (H t)) (hword : isWordStart c = false) :
    Reads input ((peek input >>= fun byte => if byte = some c.toUInt8 then a else b) >>= k) .token fun t => G t + H t := by
  intro position text hat hfits
  rw [Parse.bind_assoc]
  refine Decides.bind peek_ok ?_
  have hhead := hat.getElem?_eq_some hc
  by_cases hfound : text.head? = some c
  · rw [if_pos (hhead.2 hfound)]
    refine (hthen position text hat hfits).congr fun t => exists_congr fun ls => and_congr_left fun hbegins => ?_
    rw [Language.mem_add]
    refine or_iff_left fun hls => ?_
    obtain ⟨w, hw⟩ := hH t ls hls
    cases ls with
    | nil => cases hw
    | cons l ls =>
      obtain rfl := Option.some.inj hw
      obtain ⟨rest, rfl, _⟩ := hbegins
      have hstart := w.starts
      rw [Option.some.inj (show some w.head = some c from hfound), hword] at hstart
      cases hstart
  · rw [if_neg (mt hhead.1 hfound)]
    refine (helse position text hat hfits).congr fun t => exists_congr fun ls => and_congr_left fun hbegins => ?_
    rw [Language.mem_add]
    refine or_iff_right fun hls => hfound ?_
    have hsymbol := hG t ls hls
    cases ls with
    | nil => cases hsymbol
    | cons l ls =>
      obtain rfl := Option.some.inj hsymbol
      obtain ⟨rest, rfl, _⟩ := hbegins
      rw [Lexeme.chars, hs]
      rfl

theorem isWord_keyword {l : Language Lexeme} : Heads (fun l? => ∃ w, l? = some (.word w)) (OneColumn.keyword expected * l) :=
  heads_keyword fun w _ => ⟨w, rfl⟩

theorem keyword_apart {other : String} (hapart : toAsciiLowercase expected ≠ toAsciiLowercase other)
    {l : Language Lexeme} : Heads (fun l? => ¬ IsKeyword expected l?) (OneColumn.keyword other * l) := by
  refine heads_keyword fun w hw hgiven => ?_
  obtain ⟨w', hw', hexpected⟩ := hgiven
  cases hw'
  rw [eqIgnoreAsciiCase, beq_iff_eq] at hw hexpected
  exact hapart (hexpected.symm.trans hw)

theorem not_gap_symbol {edge : Edge} {s : Symbol} {l? : Option Lexeme} (h : IsSymbol s l?) : ∀ l ∈ l?, ¬ edge.NeedsGap l := by
  intro l hl
  rw [IsSymbol] at h
  rw [h] at hl
  cases hl
  cases edge <;> exact id

theorem Reads.nullability {k : Bool → Parse τ} {L : Bool → τ → Language Lexeme}
    (h : ∀ b, Reads input (k b) (.behind .free) (L b)) (hheads : ∀ b t, Heads (IsSymbol .rightParen) (L b t)) :
    Reads input (parseNullability input >>= k) (.behind .word) fun t => L true t + (OneColumn.keyword "NULL" * L true t +
      OneColumn.keyword "NOT" * (OneColumn.keyword "NULL" * L false t)) := by
  have hword : ∀ b, Reads input (k b) (.behind .word) (L b) :=
    fun b => (h b).behind fun t ls hls => not_gap_symbol (hheads b t ls hls)
  rw [parseNullability, Parse.bind_assoc]
  refine Reads.skip ?_ ?_
  · refine Reads.ifAhead (s := .rightParen) rfl (by decide) ?_ ?_ (hheads true) (fun t => isWord_keyword.add isWord_keyword)
      rfl
    · rw [Parse.pure_bind]
      exact (h true).token
    · refine Reads.ifKeyword ?_ ?_ (fun t => heads_keyword fun w hw => ⟨w, rfl, hw⟩) fun t => keyword_apart (by decide)
      · rw [Parse.bind_assoc]
        refine Reads.keyword ?_
        rw [Parse.pure_bind]
        exact hword true
      · refine (Reads.ifKeyword ?_ Reads.unexpected (fun t => heads_keyword fun w hw => ⟨w, rfl, hw⟩)
          fun t => heads_zero).congr (funext fun t => (add_zero _).symm)
        rw [Parse.bind_assoc]
        refine Reads.keyword ?_
        rw [Parse.bind_assoc]
        refine Reads.require ?_ fun t => gaps_keyword
        rw [Parse.bind_assoc]
        refine Reads.keyword ?_
        rw [Parse.pure_bind]
        exact hword false
  · intro t
    refine Heads.add (fun ls hls => ?_) ((heads_keyword fun w _ => shuts_word w).add (heads_keyword fun w _ => shuts_word w))
    rw [hheads true t ls hls]
    exact shuts_symbol _

theorem Reads.columnType {k : Bool → Parse τ} {L : Bool → τ → Language Lexeme}
    (h : ∀ b, Reads input (k b) (.behind .free) (L b)) (hheads : ∀ b t, Heads (IsSymbol .rightParen) (L b t)) :
    Reads input (parseColumnType input >>= k) .token fun t => ⨆ b, columnTypeSyntax b * L b t := by
  have hsplit : ∀ t, ⨆ b, columnTypeSyntax b * L b t = OneColumn.keyword "Nullable" * (mark .leftParen *
      (OneColumn.keyword "Int64" * (mark .rightParen * L true t))) + OneColumn.keyword "Int64" * (L true t +
        (OneColumn.keyword "NULL" * L true t + OneColumn.keyword "NOT" * (OneColumn.keyword "NULL" * L false t))) := by
    intro t
    have hsup : ∀ a b : Language Lexeme, a ⊔ b = a + b := fun _ _ => rfl
    rw [iSup_bool_eq, columnTypeSyntax, columnTypeSyntax, opt, hsup]
    simp only [add_mul, mul_add, mul_assoc, one_mul]
    ac_rfl
  simp only [hsplit]
  rw [parseColumnType]
  refine Reads.ifKeyword ?_ ?_ (fun t => heads_keyword fun w hw => ⟨w, rfl, hw⟩) fun t => keyword_apart (by decide)
  · rw [Parse.bind_assoc]
    refine Reads.keyword ?_
    rw [Parse.bind_assoc]
    refine Reads.byteBetween rfl (by decide) (by decide) ?_ fun t => shuts_free
    rw [Parse.bind_assoc]
    refine Reads.keyword ?_
    rw [Parse.bind_assoc]
    refine Reads.skip ?_ fun t => heads_mark (shuts_symbol _)
    rw [Parse.bind_assoc]
    refine Reads.byte rfl (by decide) ?_ (by decide)
    rw [Parse.pure_bind]
    exact (h true).behind fun t ls hls => not_gap_symbol (hheads true t ls hls)
  · rw [Parse.bind_assoc]
    exact Reads.keyword (Reads.nullability h hheads)

theorem Reads.engine {k : Unit → Parse τ} (h : Reads input (k ()) .token L) (hheads : ∀ t, Heads (fun l? => l? = none) (L t)) :
    Reads input (parseEngine input >>= k) .token fun t =>
      opt (OneColumn.keyword "ENGINE" * mark .eq * OneColumn.keyword "Memory") * L t := by
  have hsplit : ∀ t, opt (OneColumn.keyword "ENGINE" * mark .eq * OneColumn.keyword "Memory") * L t =
      OneColumn.keyword "ENGINE" * (mark .eq * (OneColumn.keyword "Memory" * L t)) + L t := by
    intro t
    rw [opt, add_mul, one_mul, mul_assoc, mul_assoc, add_comm]
  simp only [hsplit]
  rw [parseEngine]
  refine Reads.ifKeyword ?_ ?_ (fun t => heads_keyword fun w hw => ⟨w, rfl, hw⟩) fun t ls hls => ?_
  · rw [Parse.bind_assoc]
    refine Reads.keyword ?_
    rw [Parse.bind_assoc]
    refine Reads.byteBetween rfl (by decide) (by decide) ?_ fun t => shuts_free
    rw [Parse.bind_assoc]
    refine Reads.keyword (Reads.skip h fun t ls hls => ?_)
    rw [hheads t ls hls]
    exact shuts_none
  · rw [Parse.pure_bind]
    exact h
  · rw [hheads t ls hls]
    intro hgiven
    obtain ⟨w, hw, _⟩ := hgiven
    cases hw

theorem Reads.terminator {t₀ : τ} (hP : ∀ t, P t ↔ t = t₀) :
    Reads input (parseTerminator input >>= fun _ => pure t₀) .token (when P fun _ => optionalSemicolon) := by
  have hend := @Reads.end_ τ input P t₀ hP
  have hsplit : (when P fun _ => optionalSemicolon) = fun t => mark .semicolon * when P (fun _ => 1) t + when P (fun _ => 1) t := by
    funext t
    have hmul : mark .semicolon * when P (fun _ => 1) t = when P (fun _ => mark .semicolon * 1) t :=
      (congrFun when_mul t).symm
    ext ls
    rw [hmul, mem_when, Language.mem_add, mem_when, mem_when, mul_one, optionalSemicolon, opt, Language.mem_add]
    rw [← and_or_left, or_comm]
  rw [hsplit, parseTerminator, Parse.bind_assoc, parseOptionalSemicolon]
  refine Reads.ifByte (s := .semicolon) rfl (by decide) (by decide) ?_ ?_ (fun t ls hls => ?_) ⟨rfl, rfl, rfl⟩
  · exact Reads.skip hend fun t => shuts_free
  · rw [Parse.pure_bind]
    exact hend
  · intro s' hs'
    obtain rfl := (Language.mem_one ls).1 hls.2
    cases hs'

def ReadsArgument (input : String) (m : Parse α) (G : α → Language Lexeme) : Prop :=
  ∀ (τ : Type) (k : α → Parse τ) (L : α → τ → Language Lexeme), (∀ a, Reads input (k a) (.behind .free) (L a)) →
    (∀ a t, Heads (IsSymbol .rightParen) (L a t)) → Reads input (m >>= k) .token fun t => ⨆ a, G a * L a t

theorem readsArgument_identifier :
    ReadsArgument input (parseIdentifier input maxIdentifierBytes) (OneColumn.identifier maxIdentifierBytes) :=
  fun _ _ _ h hheads => Reads.identifier fun name => (h name).behind fun t ls hls => not_gap_symbol (hheads name t ls hls)

theorem readsArgument_count :
    ReadsArgument input (parseCountArgument input maxIdentifierBytes) (countArgumentSyntax maxIdentifierBytes) := by
  intro τ k L h hheads
  have hsplit : ∀ t, ⨆ a, countArgumentSyntax maxIdentifierBytes a * L a t =
      mark .star * L .star t + ⨆ c, OneColumn.identifier maxIdentifierBytes c * L (.column c) t := by
    intro t
    refine le_antisymm (iSup_le fun a => ?_) (sup_le ?_ ?_)
    · cases a with
      | star => exact le_sup_left
      | column c => exact le_sup_of_le_right (le_iSup_of_le c (le_refl _))
    · exact le_iSup (fun a => countArgumentSyntax maxIdentifierBytes a * L a t) .star
    · exact iSup_le fun c => le_iSup (fun a => countArgumentSyntax maxIdentifierBytes a * L a t) (.column c)
  simp only [hsplit]
  rw [parseCountArgument]
  refine Reads.ifByte (s := .star) rfl (by decide) (by decide) ?_ ?_ (fun t => heads_iSup fun c => heads_identifier fun w => nofun)
    ⟨rfl, rfl, rfl⟩
  · rw [Parse.pure_bind]
    exact h _
  · rw [Parse.bind_assoc]
    refine readsArgument_identifier τ _ (fun c => L (.column c)) (fun c => ?_) fun c => hheads _
    rw [Parse.pure_bind]
    exact h _

theorem Reads.argument {m : Parse α} {G : α → Language Lexeme} {k : α → Parse τ} {L : α → τ → Language Lexeme}
    (hm : ReadsArgument input m G) (h : ∀ a, Reads input (k a) (.behind .paren) (L a)) :
    Reads input (parseArgument input m >>= k) (.behind .word) fun t => ⨆ a, parenthesized (G a) * L a t := by
  have hsplit : ∀ t, ⨆ a, parenthesized (G a) * L a t = mark .leftParen * ⨆ a, G a * (mark .rightParen * L a t) := by
    intro t
    simp only [parenthesized, mul_assoc, ← Language.mul_iSup]
  have hargument := hm τ (fun a => skipWhitespace input >>= fun _ => expectByte input ')'.toUInt8 "')'" >>= fun _ => k a)
    (fun a t => mark .rightParen * L a t) (fun a => Reads.skip (Reads.byte rfl (by decide) (h a) (by decide)) fun t => shuts_free)
    fun a t => heads_mark rfl
  simp only [hsplit]
  rw [parseArgument, Parse.bind_assoc]
  refine Reads.byteBetween rfl (by decide) (by decide) ?_ fun t => shuts_free
  simp only [Parse.bind_assoc, Parse.pure_bind]
  exact hargument

theorem Reads.value {k : Option Int64 → Parse τ} {L : Option Int64 → τ → Language Lexeme}
    (h : ∀ v, Reads input (k v) (.behind .free) (L v)) (hheads : ∀ v t, Heads (IsSymbol .rightParen) (L v t)) :
    Reads input (parseInt64Value input >>= k) .token fun t => ⨆ v, valueSyntax v * L v t := by
  have hsplit : ∀ t, ⨆ v, valueSyntax v * L v t =
      OneColumn.keyword "NULL" * L none t + ⨆ v, int64 v * L (some v) t := fun t => iSup_option _
  simp only [hsplit]
  rw [parseInt64Value]
  refine Reads.ifKeyword ?_ ?_ (fun t => heads_keyword fun w hw => ⟨w, rfl, hw⟩) fun t =>
    heads_iSup fun v => heads_int64 fun n => ?_
  · rw [Parse.bind_assoc]
    refine Reads.keyword ?_
    rw [Parse.pure_bind]
    exact (h none).behind fun t ls hls => not_gap_symbol (hheads none t ls hls)
  · rw [Parse.bind_assoc]
    refine Reads.int64Literal (L := fun v => L (some v)) (fun v => ?_) fun v => hheads _
    rw [Parse.pure_bind]
    exact (h (some v)).token
  · intro hgiven
    obtain ⟨w, hw, _⟩ := hgiven
    cases hw

end

end RustHouse.OneColumn
