import RustHouse.SqlLexerSound
import RustHouse.SqlStatement

/-!
# The parser comes to an end

A loop of the parser steps over a token each time, and there are no more tokens
than characters. The depth of a predicate and the number of its nodes are
bounded, so the call stack of its productions is never exhausted either.
-/

namespace RustHouse.Batch

open Method

/-! ## Tokens that are left -/

namespace Parser

/-- No fewer than the tokens that are left. -/
def left (parser : Parser) : Nat := parser.lexer.rest.length + parser.current.kind.isProper.toNat

/-- What a production keeps: tokens are only taken, the depth is restored, and nodes are only counted. -/
structure Onward (p q : Parser) : Prop where
  left_le : q.left ≤ p.left
  depth_eq : q.predicateDepth = p.predicateDepth
  nodes_le : p.predicateNodes ≤ q.predicateNodes

theorem Onward.refl (p : Parser) : p.Onward p := ⟨Nat.le_refl _, rfl, Nat.le_refl _⟩

theorem Onward.trans {p q r : Parser} (h : p.Onward q) (h' : q.Onward r) : p.Onward r :=
  ⟨h'.left_le.trans h.left_le, h'.depth_eq.trans h.depth_eq, h.nodes_le.trans h'.nodes_le⟩

end Parser

theorem Lexer.left_nextOrInvalid (lexer : Lexer) :
    lexer.nextOrInvalid.2.rest.length + lexer.nextOrInvalid.1.kind.isProper.toNat ≤ lexer.rest.length := by
  have hrest : lexer.skipIgnored.rest = dropIgnored false lexer.rest :=
    (List.suffix_iff_eq_drop.1 (dropIgnored_suffix false lexer.rest)).symm
  have hskipped : lexer.skipIgnored.rest.length ≤ lexer.rest.length := by
    rw [hrest]
    exact (dropIgnored_suffix false lexer.rest).length_le
  have hscan := @scanToken_length lexer.skipIgnored.position lexer.skipIgnored.rest
  unfold nextOrInvalid
  dsimp only
  revert hscan
  generalize scanToken lexer.skipIgnored.position lexer.skipIgnored.rest = scanned
  obtain ⟨kind, length⟩ := scanned
  intro hscan
  have hdrop : (lexer.skipIgnored.advance length).rest.length = lexer.skipIgnored.rest.length - length :=
    List.length_drop ..
  cases hproper : kind.isProper with
  | false => cases kind <;> cases hproper <;> simp only [TokenKind.isProper, Bool.toNat_false] <;> omega
  | true =>
    obtain ⟨hpos, hle⟩ := hscan hproper
    cases kind <;> cases hproper <;> simp only [TokenKind.isProper, Bool.toNat_true] <;> omega

namespace Parse

variable {α β : Type}

theorem wp_modify {f : Parser → Parser} {Q : Unit → Parser → Prop} {E : Error → Parser → Prop} {p : Parser} :
    wp (.modify f) Q E p ↔ Q () (f p) := Iff.rfl

/-! ## Productions that come to an end -/

/-- A production that comes to an end, and takes tokens from the front. -/
class Total (m : Parse α) : Prop where
  total : ∀ p, wp m (fun _ q => q.left ≤ p.left) (fun _ _ => True) p

/-- A production that also keeps the depth and the nodes of the predicate it is part of. -/
class Steady (m : Parse α) : Prop where
  steady : ∀ p, wp m (fun _ q => p.Onward q) (fun _ _ => True) p

instance (priority := low) total_of_steady (m : Parse α) [h : Steady m] : Total m :=
  ⟨fun p => wp_mono (h.steady p) (fun _ _ h => h.left_le) fun _ _ h => h⟩

section
variable (m : Parse α) (f : α → Parse β)

instance total_bind [hm : Total m] [hf : ∀ a, Total (f a)] : Total (m >>= f) := by
  refine ⟨fun p => wp_bind.2 (wp_mono (hm.total p) (fun a q hq => ?_) fun _ _ h => h)⟩
  exact wp_mono ((hf a).total q) (fun _ _ h => h.trans hq) fun _ _ h => h

instance steady_bind [hm : Steady m] [hf : ∀ a, Steady (f a)] : Steady (m >>= f) := by
  refine ⟨fun p => wp_bind.2 (wp_mono (hm.steady p) (fun a q hq => ?_) fun _ _ h => h)⟩
  exact wp_mono ((hf a).steady q) (fun _ _ h => hq.trans h) fun _ _ h => h

theorem steady_of_bind {m : Parse α} {f : α → Parse β} [Steady m] (hf : ∀ a, Steady (f a)) : Steady (m >>= f) :=
  steady_bind m f

instance steady_pure (a : α) : Steady (pure a) := ⟨fun p => wp_pure a |>.2 (.refl p)⟩

instance steady_read : Steady .read := ⟨fun p => wp_read.2 (.refl p)⟩

instance steady_fail (error : Error) : Steady (fail error : Parse α) := ⟨fun _ => trivial⟩

instance steady_failAt (position : Nat) (message : String) : Steady (failAt position message : Parse α) :=
  inferInstanceAs (Steady (fail _))

theorem total_of_bind {m : Parse α} {f : α → Parse β} [Total m] (hf : ∀ a, Total (f a)) : Total (m >>= f) :=
  total_bind m f

instance total_ite (c : Prop) [Decidable c] (m n : Parse α) [hm : Total m] [hn : Total n] :
    Total (if c then m else n) := by
  split
  · exact hm
  · exact hn

instance steady_ite (c : Prop) [Decidable c] (m n : Parse α) [hm : Steady m] [hn : Steady n] :
    Steady (if c then m else n) := by
  split
  · exact hm
  · exact hn

theorem total_of_if {test : Parse Bool} {m n : Parse α} [Total test] [hm : Total m] (hn : Total n) :
    Total (do if ← test then m else n) := total_of_bind fun _ => total_ite _ _ _

theorem error_wp {Q : α → Parser → Prop} (message : String) (p : Parser) :
    wp (error message) Q (fun _ _ => True) p := by
  rw [error, wp_bind, wp_read]
  split <;> trivial

instance steady_error (message : String) : Steady (error message : Parse α) := ⟨fun p => error_wp message p⟩

instance steady_okOrAt (position : Nat) (message : String) (value : Option α) :
    Steady (okOrAt position message value) := by
  cases value
  · exact steady_failAt position message
  · exact steady_pure _

end

/-! ## Tokens -/

instance steady_position : Steady position := by unfold position; infer_instance

instance steady_peekIs (test : TokenKind → Bool) : Steady (peekIs test) := by unfold peekIs; infer_instance

instance steady_lookahead (tests : List (TokenKind → Bool)) : Steady (lookahead tests) := by
  unfold lookahead
  infer_instance

instance steady_atKeyword (expected : String) : Steady (atKeyword expected) := steady_peekIs _

theorem advance_wp (p : Parser) {E : Error → Parser → Prop} :
    wp advance (fun _ q => p.Onward q ∧ (p.current.kind.isProper → q.left < p.left)) E p := by
  have hleft := p.lexer.left_nextOrInvalid
  refine ⟨⟨?_, rfl, Nat.le_refl _⟩, fun hproper => ?_⟩
  · exact hleft.trans (Nat.le_add_right _ _)
  · show _ < p.lexer.rest.length + p.current.kind.isProper.toNat
    rw [hproper]
    exact Nat.lt_succ_of_le hleft

instance steady_advance : Steady advance := ⟨fun p => wp_mono (advance_wp p) (fun _ _ h => h.1) fun _ _ h => h⟩

section
variable (reading : TokenKind → Option α)

instance steady_take : Steady (take reading) := by
  unfold take
  refine steady_of_bind fun parser => ?_
  split <;> infer_instance

theorem take_wp (hproper : ∀ kind, (reading kind).isSome → kind.isProper) (p : Parser) {E : Error → Parser → Prop} :
    wp (take reading) (fun value q => p.Onward q ∧ (value.isSome → q.left < p.left)) E p := by
  rw [take, wp_bind, wp_read]
  cases hreading : reading p.current.kind with
  | none => exact ⟨.refl p, fun h => absurd h Bool.false_ne_true⟩
  | some value =>
    rw [wp_bind]
    refine wp_mono (advance_wp p) (fun _ q h => ⟨h.1, fun _ => h.2 ?_⟩) fun _ _ h => h
    exact hproper _ (by rw [hreading]; rfl)

end

def Proper (test : TokenKind → Bool) : Prop := ∀ kind, test kind → kind.isProper

theorem proper_keyword (expected : String) : Proper (isKeyword expected) := by
  intro kind h
  cases kind <;> first | rfl | exact absurd h Bool.false_ne_true

theorem proper_isToken {expected : TokenKind} (h : expected.isProper) : Proper (isToken expected) := by
  intro kind hkind
  rw [isToken, decide_eq_true_iff] at hkind
  rw [hkind]
  exact h

instance steady_eatIf (test : TokenKind → Bool) : Steady (eatIf test) := by unfold eatIf; infer_instance

theorem eatIf_wp {test : TokenKind → Bool} (htest : Proper test) (p : Parser) {E : Error → Parser → Prop} :
    wp (eatIf test) (fun eaten q => p.Onward q ∧ (eaten → q.left < p.left)) E p := by
  rw [eatIf, wp_bind]
  refine wp_mono (take_wp _ (fun kind hkind => htest kind ?_) p) (fun value q h => h) fun _ _ h => h
  by_contra hne
  rw [if_neg hne] at hkind
  cases hkind

instance steady_eat (expected : TokenKind) : Steady (eat expected) := steady_eatIf _

instance steady_eatKeyword (expected : String) : Steady (eatKeyword expected) := steady_eatIf _

instance steady_expect (expected : TokenKind) (description : String) : Steady (expect expected description) := by
  unfold expect
  infer_instance

instance steady_expectKeyword (expected : String) : Steady (expectKeyword expected) := by
  unfold expectKeyword
  infer_instance

instance steady_takeIdentifier : Steady takeIdentifier := steady_take _

instance steady_takeNumber : Steady takeNumber := steady_take _

instance steady_takeString : Steady takeString := steady_take _

instance steady_expectIdentifier (description : String) : Steady (expectIdentifier description) := by
  unfold expectIdentifier
  refine steady_of_bind fun name => ?_
  split <;> infer_instance

instance steady_expectTerminator (message : String) : Steady (expectTerminator message) := by
  unfold expectTerminator
  infer_instance

/-! ## Counters -/

instance steady_reserveAstListItem : Steady reserveAstListItem := by
  unfold reserveAstListItem
  refine ⟨fun p => ?_⟩
  rw [wp_bind, wp_read]
  split
  · trivial
  · exact ⟨Nat.le_refl _, rfl, Nat.le_refl _⟩

instance steady_checkInsertRow : Steady checkInsertRow := by
  unfold checkInsertRow
  infer_instance

instance steady_checkInsertValue : Steady checkInsertValue := by
  unfold checkInsertValue
  infer_instance

instance steady_countInsertRow : Steady countInsertRow := ⟨fun _ => ⟨Nat.le_refl _, rfl, Nat.le_refl _⟩⟩

instance steady_countInsertValue : Steady countInsertValue := ⟨fun _ => ⟨Nat.le_refl _, rfl, Nat.le_refl _⟩⟩

/-! ## Loops -/

section
variable {test : TokenKind → Bool} {body : α → Parse α} (htest : Proper test)
include htest

theorem whileEatFuel_total {I : α → Parser → Prop} (hstable : ∀ a p q, I a p → p.Onward q → I a q)
    (hbody : ∀ a p, I a p → wp (body a) (fun b q => I b q ∧ p.Onward q) (fun _ _ => True) p) {fuel : Nat} {a : α}
    {p : Parser} (hI : I a p) (hfuel : p.left < fuel) :
    wp (whileEatFuel test body fuel a) (fun b q => I b q ∧ p.Onward q) (fun _ _ => True) p := by
  induction fuel generalizing a p with
  | zero => exact absurd hfuel (Nat.not_lt_zero _)
  | succ fuel ih =>
    rw [whileEatFuel, wp_bind]
    refine wp_mono (eatIf_wp htest p) (fun eaten q hq => ?_) fun _ _ h => h
    obtain ⟨honward, hless⟩ := hq
    split
    · rename_i heaten
      rw [wp_bind]
      refine wp_mono (hbody a q (hstable a p q hI honward)) (fun b r hr => ?_) fun _ _ h => h
      have hleft := hless heaten
      refine wp_mono (ih hr.1 ?_) (fun _ _ h => ⟨h.1, (honward.trans hr.2).trans h.2⟩) fun _ _ h => h
      exact lt_of_le_of_lt hr.2.left_le (Nat.lt_of_lt_of_le hleft (Nat.lt_succ_iff.1 hfuel))
    · exact ⟨hstable a p q hI honward, honward⟩

theorem whileEat_total {I : α → Parser → Prop} (hstable : ∀ a p q, I a p → p.Onward q → I a q)
    (hbody : ∀ a p, I a p → wp (body a) (fun b q => I b q ∧ p.Onward q) (fun _ _ => True) p) {a : α} {p : Parser}
    (hI : I a p) : wp (whileEat test body a) (fun b q => I b q ∧ p.Onward q) (fun _ _ => True) p := by
  rw [whileEat, wp_bind, wp_read]
  refine whileEatFuel_total htest hstable hbody hI ?_
  have hone := p.current.kind.isProper.toNat_le
  unfold Parser.left
  omega

theorem steady_whileEat (hbody : ∀ a, Steady (body a)) (a : α) : Steady (whileEat test body a) := by
  refine ⟨fun p => ?_⟩
  have hloop := whileEat_total (I := fun _ _ => True) htest (fun _ _ _ _ _ => trivial) (fun a q _ =>
    wp_mono ((hbody a).steady q) (fun _ _ h => ⟨trivial, h⟩) fun _ _ h => h) (a := a) (p := p) trivial
  exact wp_mono hloop (fun _ _ h => h.2) fun _ _ h => h

end

instance steady_commaSeparated (item : Parse α) [Steady item] : Steady (commaSeparated item) := by
  unfold commaSeparated
  refine steady_of_bind fun first => ?_
  exact steady_whileEat (proper_isToken rfl) (fun _ => inferInstance) _

/-! ## Names and literals -/

instance steady_parseAlias : Steady parseAlias := by unfold parseAlias; infer_instance

instance steady_parseSign : Steady parseSign := by unfold parseSign; infer_instance

section
variable (float : FloatText)

instance steady_parseLiteral : Steady (parseLiteral float) := by
  unfold parseLiteral
  refine steady_of_bind fun text => ?_
  split
  · infer_instance
  · refine steady_of_bind fun sign => steady_of_bind fun number => ?_
    split <;> infer_instance

instance steady_parseInsertLiteral : Steady (parseInsertLiteral float) := by unfold parseInsertLiteral; infer_instance

instance steady_parseSignedInt64Literal (context : String) : Steady (parseSignedInt64Literal context) := by
  unfold parseSignedInt64Literal
  infer_instance

instance steady_parseAlterUpdateLiteral (context : String) : Steady (parseAlterUpdateLiteral float context) := by
  unfold parseAlterUpdateLiteral
  refine steady_of_bind fun text => ?_
  split
  · infer_instance
  · refine steady_of_bind fun isTrue => @steady_ite _ _ _ _ _ _ (steady_of_bind fun isFalse => ?_)
    infer_instance

instance steady_parseHavingThreshold : Steady (parseHavingThreshold float) := by
  unfold parseHavingThreshold
  infer_instance

end

instance steady_parseComparisonOperator : Steady parseComparisonOperator := by
  unfold parseComparisonOperator
  refine steady_of_bind fun operator => ?_
  split <;> infer_instance

end Parse

/-! ## Predicates -/

theorem lowerInFrames_isSome (column : String) {frames : Nat} {literals : List Value} (hne : literals ≠ [])
    (hlength : literals.length ≤ frames) : (lowerInFrames column frames literals).isSome := by
  induction frames generalizing literals with
  | zero => exact absurd (List.eq_nil_of_length_eq_zero (Nat.le_zero.1 hlength)) hne
  | succ frames ih =>
    match literals with
    | [] => exact absurd rfl hne
    | [literal] => rfl
    | first :: second :: rest =>
      rw [List.length_cons, List.length_cons] at hlength
      have hhalf (literals : List Value) (hpos : 0 < literals.length) (hle : literals.length ≤ rest.length + 1) :
          ∃ predicate, lowerInFrames column frames literals = some predicate :=
        Option.isSome_iff_exists.1 (ih (List.ne_nil_of_length_pos hpos) (by omega))
      have htake : ((first :: second :: rest).take ((rest.length + 2) / 2)).length = (rest.length + 2) / 2 := by
        rw [List.length_take, List.length_cons, List.length_cons]
        omega
      have hdrop : ((first :: second :: rest).drop ((rest.length + 2) / 2)).length =
          rest.length + 2 - (rest.length + 2) / 2 := by
        rw [List.length_drop, List.length_cons, List.length_cons]
      obtain ⟨left, hleft⟩ := hhalf ((first :: second :: rest).take ((rest.length + 2) / 2)) (by omega) (by omega)
      obtain ⟨right, hright⟩ := hhalf ((first :: second :: rest).drop ((rest.length + 2) / 2)) (by omega) (by omega)
      rw [lowerInFrames, hleft, hright]
      rfl

namespace Parse

variable {α : Type}

instance steady_nextTokenIsPredicateOperator : Steady nextTokenIsPredicateOperator := by
  unfold nextTokenIsPredicateOperator
  infer_instance

theorem recordPredicateNode_wp (p : Parser) :
    wp recordPredicateNode (fun _ q => p.Onward q ∧ p.predicateNodes < q.predicateNodes ∧
      q.predicateNodes ≤ maxPredicateNodes) (fun _ _ => True) p := by
  rw [recordPredicateNode, wp_bind, wp_read]
  split
  · exact error_wp _ p
  · rename_i hfew
    refine ⟨⟨Nat.le_refl _, rfl, Nat.le_succ _⟩, Nat.lt_succ_self _, ?_⟩
    exact Nat.lt_of_not_le hfew

instance steady_recordPredicateNode : Steady recordPredicateNode :=
  ⟨fun p => wp_mono (recordPredicateNode_wp p) (fun _ _ h => h.1) fun _ _ h => h⟩

instance steady_columnOperand (message : String) (operand : Operand) : Steady (columnOperand message operand) := by
  cases operand
  · exact steady_pure _
  all_goals exact steady_error message

theorem nested_wp {production : Parse α} {p : Parser}
    (h : p.predicateDepth < maxPredicateDepth →
      let deeper : Parser := { p with predicateDepth := p.predicateDepth + 1 }
      wp production (fun _ q => deeper.Onward q) (fun _ _ => True) deeper) :
    wp (nested production) (fun _ q => p.Onward q) (fun _ _ => True) p := by
  rw [nested, wp_bind, wp_read]
  split
  · exact error_wp _ p
  · rename_i hdepth
    have hproduction := h (Nat.lt_of_not_le hdepth)
    rw [wp_bind, wp_write, wp_afterwards]
    refine wp_mono hproduction (fun _ q hq => ⟨hq.left_le, ?_, hq.nodes_le⟩) fun _ _ h => h
    show q.predicateDepth - 1 = p.predicateDepth
    rw [hq.depth_eq]
    rfl

section
variable (float : FloatText)

instance steady_parseOperand : Steady (parseOperand float) := by unfold parseOperand; infer_instance

instance steady_takePattern : Steady takePattern := by
  unfold takePattern
  refine steady_of_bind fun position => steady_of_bind fun pattern => ?_
  split <;> infer_instance

instance steady_parseLikePredicate (left : Operand) (negated : Bool) : Steady (parseLikePredicate left negated) := by
  unfold parseLikePredicate
  infer_instance

instance steady_parseBetweenPredicate (left : Operand) (negated : Bool) :
    Steady (parseBetweenPredicate float left negated) := by
  unfold parseBetweenPredicate
  infer_instance

instance steady_parseNullness (left : Operand) : Steady (parseNullness left) := by unfold parseNullness; infer_instance

instance steady_parseComparison (left : Operand) : Steady (parseComparison float left) := by
  unfold parseComparison
  infer_instance

theorem parseInLiteral_wp {literals : List Value} {p : Parser} (h : literals.length ≤ p.predicateNodes) :
    wp (parseInLiteral float literals) (fun literals q => p.Onward q ∧ literals ≠ [] ∧
      literals.length ≤ q.predicateNodes ∧ q.predicateNodes ≤ maxPredicateNodes) (fun _ _ => True) p := by
  rw [parseInLiteral, wp_bind]
  refine wp_mono (steady_reserveAstListItem.steady p) (fun _ q hq => ?_) fun _ _ h => h
  rw [wp_bind]
  refine wp_mono ((steady_parseLiteral float).steady q) (fun literal r hr => ?_) fun _ _ h => h
  rw [wp_bind]
  refine wp_mono (recordPredicateNode_wp r) (fun _ s hs => ?_) fun _ _ h => h
  obtain ⟨honward, hcounted, hbounded⟩ := hs
  have hps := (hq.trans hr).trans honward
  have hlength : (literals ++ [literal]).length ≤ s.predicateNodes := by
    rw [List.length_append, List.length_singleton]
    exact Nat.lt_of_le_of_lt (h.trans (hq.trans hr).nodes_le) hcounted
  have hne : literals ++ [literal] ≠ [] := List.append_ne_nil_of_right_ne_nil _ (List.cons_ne_nil _ _)
  split
  · exact ⟨hps, hne, hlength, hbounded⟩
  · rw [wp_bind]
    refine wp_mono (recordPredicateNode_wp s) (fun _ u hu => ?_) fun _ _ h => h
    exact ⟨hps.trans hu.1, hne, hlength.trans hu.2.1.le, hu.2.2⟩

theorem parseInLiterals_wp {first : List Value} {p : Parser} (hne : first ≠ [])
    (hfirst : first.length ≤ p.predicateNodes) (hbounded : first.length ≤ maxPredicateNodes) :
    wp (whileEat (isToken .comma) (parseInLiteral float) first)
      (fun literals q => (literals ≠ [] ∧ literals.length ≤ maxPredicateNodes) ∧ p.Onward q) (fun _ _ => True) p := by
  have hbody : ∀ (literals : List Value) (p : Parser),
      (literals ≠ [] ∧ literals.length ≤ p.predicateNodes ∧ literals.length ≤ maxPredicateNodes) →
        wp (parseInLiteral float literals) (fun literals q => (literals ≠ [] ∧ literals.length ≤ q.predicateNodes ∧
          literals.length ≤ maxPredicateNodes) ∧ p.Onward q) (fun _ _ => True) p := by
    intro literals p hI
    refine wp_mono (parseInLiteral_wp float hI.2.1) (fun _ q h => ?_) fun _ _ h => h
    exact ⟨⟨h.2.1, h.2.2.1, h.2.2.1.trans h.2.2.2⟩, h.1⟩
  have hloop := whileEat_total (@proper_isToken .comma rfl)
    (fun literals p q hI hq => ⟨hI.1, hI.2.1.trans hq.nodes_le, hI.2.2⟩) hbody ⟨hne, hfirst, hbounded⟩
  exact wp_mono hloop (fun _ _ h => ⟨⟨h.1.1, h.1.2.2⟩, h.2⟩) fun _ _ h => h

theorem steady_parseInPredicate {frames : Nat} (hframes : maxPredicateNodes ≤ frames) (left : Operand)
    (negated : Bool) : Steady (parseInPredicate float frames left negated) := by
  unfold parseInPredicate
  refine steady_of_bind fun column => steady_of_bind fun _ => steady_of_bind fun atEnd => ?_
  have hlist : Steady (do
      let first ← parseInLiteral float []
      let literals ← whileEat (isToken .comma) (parseInLiteral float) first
      expect .rightParen "')' after IN list"
      if negated then recordPredicateNode
      return negateIf negated (← .call (Exec.orPanic (lowerInFrames column frames literals))) : Parse Predicate) := by
    refine ⟨fun p => ?_⟩
    rw [wp_bind]
    refine wp_mono (parseInLiteral_wp float (Nat.zero_le _)) (fun first q hq => ?_) fun _ _ h => h
    rw [wp_bind]
    refine wp_mono (parseInLiterals_wp float hq.2.1 hq.2.2.1 (hq.2.2.1.trans hq.2.2.2)) (fun literals r hr => ?_)
      fun _ _ h => h
    have hpr := hq.1.trans hr.2
    obtain ⟨lowered, hlowered⟩ :=
      Option.isSome_iff_exists.1 (lowerInFrames_isSome column hr.1.1 (hr.1.2.trans hframes))
    have hrest : Steady (do
        expect .rightParen "')' after IN list"
        if negated then recordPredicateNode
        return negateIf negated (← .call (Exec.orPanic (some lowered))) : Parse Predicate) := by
      have hcall : Steady (.call (Exec.orPanic (some lowered)) : Parse Predicate) := steady_pure lowered
      infer_instance
    rw [hlowered]
    exact wp_mono (hrest.steady r) (fun _ _ h => hpr.trans h) fun _ _ h => h
  infer_instance

theorem steady_parseOperandAtom {frames : Nat} (hframes : maxPredicateNodes ≤ frames) :
    Steady (parseOperandAtom float frames) := by
  have hin (left : Operand) (negated : Bool) := steady_parseInPredicate float hframes left negated
  unfold parseOperandAtom
  refine steady_of_bind fun left => steady_of_bind fun isNull => @steady_ite _ _ _ _ _ _ ?_
  refine steady_of_bind fun negated => steady_of_bind fun isBetween => @steady_ite _ _ _ _ _ _ ?_
  infer_instance

theorem operands_total {test : TokenKind → Bool} (htest : Proper test) {operand : Parse Predicate}
    {combine : Predicate → Predicate → Predicate} {p : Parser}
    (hoperand : ∀ q, p.Onward q → wp operand (fun _ r => q.Onward r) (fun _ _ => True) q) {first : Predicate}
    {q : Parser} (hq : p.Onward q) :
    wp (whileEat test (fun predicate => do
      let right ← operand
      recordPredicateNode
      return combine predicate right) first) (fun _ r => p.Onward r) (fun _ _ => True) q := by
  refine wp_mono (whileEat_total (I := fun _ r => p.Onward r) htest (fun _ _ _ hI h => hI.trans h)
    (fun predicate r hr => ?_) hq) (fun _ _ h => h.1) fun _ _ h => h
  rw [wp_bind]
  refine wp_mono (hoperand r hr) (fun right s hs => ?_) fun _ _ h => h
  have hrest : Steady (do recordPredicateNode; return combine predicate right : Parse Predicate) := inferInstance
  exact wp_mono (hrest.steady s) (fun _ _ h => ⟨hr.trans (hs.trans h), hs.trans h⟩) fun _ _ h => h

def atomFrames (depth : Nat) : Nat := 4 * (maxPredicateDepth - depth) + maxPredicateNodes + 1

theorem atomFrames_succ {depth : Nat} (h : depth < maxPredicateDepth) :
    atomFrames (depth + 1) + 4 = atomFrames depth := by
  unfold atomFrames
  omega

/-- **Frames are enough**: each level of nesting takes four of them at most. -/
theorem predicates_total (frames : Nat) (p : Parser) :
    (atomFrames p.predicateDepth + 3 ≤ frames →
      wp (parseOrPredicate float frames) (fun _ q => p.Onward q) (fun _ _ => True) p) ∧
    (atomFrames p.predicateDepth + 2 ≤ frames →
      wp (parseAndPredicate float frames) (fun _ q => p.Onward q) (fun _ _ => True) p) ∧
    (atomFrames p.predicateDepth + 1 ≤ frames →
      wp (parseNotPredicate float frames) (fun _ q => p.Onward q) (fun _ _ => True) p) ∧
    (atomFrames p.predicateDepth ≤ frames →
      wp (parsePredicateAtom float frames) (fun _ q => p.Onward q) (fun _ _ => True) p) := by
  induction frames generalizing p with
  | zero =>
    have hpos : 0 < atomFrames p.predicateDepth := Nat.succ_pos _
    refine ⟨?_, ?_, ?_, ?_⟩ <;> (intro hframes; omega)
  | succ frames ih =>
    refine ⟨fun hframes => ?_, fun hframes => ?_, fun hframes => ?_, fun hframes => ?_⟩
    · rw [parseOrPredicate, wp_bind]
      refine wp_mono ((ih p).2.1 (Nat.le_of_succ_le_succ hframes)) (fun first q hq => ?_) fun _ _ h => h
      refine wp_mono (operands_total (proper_keyword "OR") (fun r hr => ?_) hq) (fun _ _ h => h) fun _ _ h => h
      refine (ih r).2.1 ?_
      rw [hr.depth_eq]
      exact Nat.le_of_succ_le_succ hframes
    · rw [parseAndPredicate, wp_bind]
      refine wp_mono ((ih p).2.2.1 (Nat.le_of_succ_le_succ hframes)) (fun first q hq => ?_) fun _ _ h => h
      refine wp_mono (operands_total (proper_keyword "AND") (fun r hr => ?_) hq) (fun _ _ h => h) fun _ _ h => h
      refine (ih r).2.2.1 ?_
      rw [hr.depth_eq]
      exact Nat.le_of_succ_le_succ hframes
    · rw [parseNotPredicate, wp_bind]
      refine wp_mono ((steady_atKeyword "NOT").steady p) (fun atNot q hq => ?_) fun _ _ h => h
      rw [wp_bind]
      refine wp_mono (steady_nextTokenIsPredicateOperator.steady q) (fun operatorFollows r hr => ?_) fun _ _ h => h
      have hpr := hq.trans hr
      split
      · have hatom := (ih r).2.2.2
        rw [hpr.depth_eq] at hatom
        exact wp_mono (hatom (Nat.le_of_succ_le_succ hframes)) (fun _ _ h => hpr.trans h) fun _ _ h => h
      · rw [wp_bind]
        refine wp_mono (steady_advance.steady r) (fun _ s hs => ?_) fun _ _ h => h
        rw [wp_bind]
        have hps := hpr.trans hs
        refine wp_mono (nested_wp fun hdepth => (ih _).2.2.1 ?_) (fun predicate t ht => ?_) fun _ _ h => h
        · have hsucc := atomFrames_succ hdepth
          rw [hps.depth_eq] at hsucc
          show atomFrames (s.predicateDepth + 1) + 1 ≤ frames
          rw [hps.depth_eq]
          omega
        · have hrest : Steady (do recordPredicateNode; return .not predicate : Parse Predicate) := inferInstance
          exact wp_mono (hrest.steady t) (fun _ _ h => (hps.trans ht).trans h) fun _ _ h => h
    · rw [parsePredicateAtom, wp_bind]
      refine wp_mono ((steady_eat .leftParen).steady p) (fun atParen q hq => ?_) fun _ _ h => h
      split
      · rw [wp_bind]
        refine wp_mono (nested_wp fun hdepth => (ih _).1 ?_) (fun predicate r hr => ?_) fun _ _ h => h
        · have hsucc := atomFrames_succ hdepth
          rw [hq.depth_eq] at hsucc
          show atomFrames (q.predicateDepth + 1) + 3 ≤ frames
          rw [hq.depth_eq]
          omega
        · have hrest : Steady (do
              expect .rightParen "right parenthesis after predicate"
              return predicate : Parse Predicate) := inferInstance
          exact wp_mono (hrest.steady r) (fun _ _ h => (hq.trans hr).trans h) fun _ _ h => h
      · have hnodes : maxPredicateNodes ≤ frames := by
          unfold atomFrames at hframes
          omega
        exact wp_mono ((steady_parseOperandAtom float hnodes).steady q) (fun _ _ h => hq.trans h) fun _ _ h => h

end

end Parse

end RustHouse.Batch
