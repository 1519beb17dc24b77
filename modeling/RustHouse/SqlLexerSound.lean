import RustHouse.SqlParser

/-!
# The length of a token

The lexer passes over at least one character for every token but the end of
the input, so that it reaches the end of every text.
-/

namespace RustHouse.Batch

/-! ## Tokens that are there -/

def TokenKind.isProper : TokenKind → Bool
  | endOfInput | invalid _ => false
  | _ => true

/-! ## Parts of a text -/

theorem dropIgnored_suffix (inComment : Bool) (text : List Char) : dropIgnored inComment text <:+ text := by
  induction text generalizing inComment with
  | nil => exact List.suffix_refl _
  | cons c text ih =>
    rw [dropIgnored]
    split
    · exact (ih _).trans (List.suffix_cons ..)
    · split
      · exact (ih _).trans (List.suffix_cons ..)
      · split
        · exact (ih _).trans (List.suffix_cons ..)
        · exact List.suffix_refl _

theorem scanFraction_begins : ∀ text : List Char, scanFraction text <+: text
  | [] => List.prefix_refl _
  | c :: text => by
    rw [scanFraction]
    split
    · exact List.cons_prefix_cons.2 ⟨rfl, List.takeWhile_prefix _⟩
    · exact List.nil_prefix

theorem scanSigned_begins : ∀ text : List Char, scanSigned text <+: text
  | [] => List.prefix_refl _
  | c :: text => by
    rw [scanSigned]
    split
    · exact List.cons_prefix_cons.2 ⟨rfl, List.takeWhile_prefix _⟩
    · exact List.takeWhile_prefix _

theorem scanExponent_begins : ∀ text : List Char, scanExponent text <+: text
  | [] => List.prefix_refl _
  | c :: text => by
    rw [scanExponent]
    split
    · exact List.cons_prefix_cons.2 ⟨rfl, scanSigned_begins _⟩
    · exact List.nil_prefix

theorem append_prefix_of_drop {before after text : List Char} (hbefore : before <+: text)
    (hafter : after <+: text.drop before.length) : before ++ after <+: text := by
  obtain ⟨rest, rfl⟩ := hbefore
  rw [List.drop_left] at hafter
  exact (List.prefix_append_right_inj before).2 hafter

theorem whole_fraction_begins (text : List Char) :
    text.takeWhile Char.isDigit ++ scanFraction (text.drop (text.takeWhile Char.isDigit).length) <+: text :=
  append_prefix_of_drop (List.takeWhile_prefix _) (scanFraction_begins _)

theorem scanNumber_begins (text : List Char) : scanNumber text <+: text :=
  append_prefix_of_drop (whole_fraction_begins text) (scanExponent_begins _)

/-! ## One token -/

theorem length_pos_of_head {c : Char} {text : List Char} (h : text.head? = some c) : 1 ≤ text.length := by
  cases text with
  | nil => cases h
  | cons d text => exact Nat.succ_le_succ (Nat.zero_le _)

theorem length_takeWhile_pos {test : Char → Bool} {c : Char} (hc : test c) (rest : List Char) :
    1 ≤ ((c :: rest).takeWhile test).length := by
  rw [List.takeWhile_cons_of_pos hc]
  exact Nat.succ_le_succ (Nat.zero_le _)

theorem scanLongToken_length (position : Nat) (c : Char) (rest : List Char) :
    (scanLongToken position c rest).1.isProper →
      1 ≤ (scanLongToken position c rest).2 ∧ (scanLongToken position c rest).2 ≤ rest.length + 1 := by
  have htwo {d : Char} (hd : rest.head? = some d) : 1 ≤ 2 ∧ 2 ≤ rest.length + 1 :=
    ⟨Nat.le_succ 1, Nat.succ_le_succ (length_pos_of_head hd)⟩
  have hone : 1 ≤ 1 ∧ 1 ≤ rest.length + 1 := ⟨Nat.le_refl 1, Nat.succ_le_succ (Nat.zero_le _)⟩
  unfold scanLongToken
  split
  · split
    · exact fun _ => htwo ‹_›
    · exact fun h => Bool.noConfusion h
  · split
    · split
      · exact fun _ => htwo ‹_›
      · split
        · exact fun _ => htwo ‹_›
        · exact fun _ => hone
    · split
      · split
        · exact fun _ => htwo ‹_›
        · exact fun _ => hone
      · split
        · cases scanString rest with
          | none => exact fun h => Bool.noConfusion h
          | some found =>
            intro _
            refine ⟨Nat.le_add_right _ _, ?_⟩
            show 1 + (rest.length - found.2.length) ≤ _
            omega
        · split
          · rename_i hdigit
            intro _
            refine ⟨?_, (scanNumber_begins (c :: rest)).length_le⟩
            have := length_takeWhile_pos hdigit rest
            simp only [scanNumber, List.length_append]
            omega
          · split
            · rename_i hstart
              intro _
              have hcontinue : isSqlIdentifierContinue c := by
                rw [isSqlIdentifierStart, Bool.or_eq_true] at hstart
                rw [isSqlIdentifierContinue, Char.isAlphanum, Bool.or_eq_true, Bool.or_eq_true]
                exact hstart.imp_left .inl
              exact ⟨length_takeWhile_pos hcontinue rest, (List.takeWhile_prefix _).length_le⟩
            · exact fun h => Bool.noConfusion h

theorem scanToken_length {position : Nat} {text : List Char} (h : (scanToken position text).1.isProper) :
    1 ≤ (scanToken position text).2 ∧ (scanToken position text).2 ≤ text.length := by
  cases text with
  | nil => cases h
  | cons c rest =>
    rw [scanToken] at h ⊢
    cases hsingle : singleToken c with
    | some kind => exact ⟨Nat.le_refl 1, Nat.succ_le_succ (Nat.zero_le _)⟩
    | none =>
      rw [hsingle] at h
      exact scanLongToken_length position c rest h

end RustHouse.Batch
