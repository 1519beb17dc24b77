import RustHouse.TsvSound
import RustHouse.JsonCompactEachRow
import RustHouse.JsonEachRowSound
import RustHouse.JsonUnambiguous

/-!
# JSON lines are arrays of the grammar

The parser accepts a line exactly when it is one array of the grammar of JSON, and
counts its elements. What the writer emits for one integer column is read back.
-/

namespace RustHouse.Batch.JsonCompactEachRow

open Checked Delimited Exec Words JsonGrammar

/-! ## Lexemes -/

def Lexeme : JsonTokenKind → List Char → List Char → Prop
  | .leftBracket, t, r => t = '[' :: r
  | .rightBracket, t, r => t = ']' :: r
  | .leftBrace, t, r => t = '\x7b' :: r
  | .rightBrace, t, r => t = '\x7d' :: r
  | .colon, t, r => t = ':' :: r
  | .comma, t, r => t = ',' :: r
  | .string, t, r => ∃ u codes, t = '"' :: u ∧ StringRest u codes r
  | .number _, t, r => Number t r
  | .true, t, r => t = 't' :: 'r' :: 'u' :: 'e' :: r
  | .false, t, r => t = 'f' :: 'a' :: 'l' :: 's' :: 'e' :: r
  | .null, t, r => t = 'n' :: 'u' :: 'l' :: 'l' :: r

theorem isSimpleEscape_iff (c : Char) : isSimpleEscape c = true ↔ ∃ code, escapeCode c = some code := by
  unfold isSimpleEscape escapeCode
  constructor
  · intro h
    simp only [Bool.or_eq_true, beq_iff_eq] at h
    obtain (((((((rfl | rfl) | rfl) | rfl) | rfl) | rfl) | rfl) | rfl) := h <;> exact ⟨_, rfl⟩
  · intro ⟨code, h⟩
    by_contra hnone
    simp only [Bool.or_eq_true, beq_iff_eq, not_or] at hnone
    simp [hnone] at h

theorem isHexDigit_iff (c : Char) : isHexDigit c = true ↔ ∃ value, hexValue c = some value := by
  unfold isHexDigit hexValue
  simp only [Bool.or_eq_true, Bool.and_eq_true, decide_eq_true_eq]
  split_ifs with h₁ h₂ h₃
  · simp [h₁]
  · simp [h₂]
  · simp [h₃]
  · simp [h₁, h₂, h₃]

section
variable {line : Nat}

open JsonLexer

theorem lexStringFrom_sound {cursor : Nat} {t : List Char} {behind : JsonLexer}
    (h : lexStringFrom line cursor t = .ok behind) : ∃ codes, StringRest t codes behind.rest := by
  fun_induction lexStringFrom line cursor t with
  | case1 => cases h
  | case2 cursor rest =>
    obtain rfl := Exec.ok.inj h
    exact ⟨[], .close⟩
  | case3 => cases h
  | case4 cursor escaped rest hsimple _ ih =>
    obtain ⟨codes, hcodes⟩ := ih h
    obtain ⟨code, hcode⟩ := (isSimpleEscape_iff _).1 hsimple
    exact ⟨_, .escape hcode hcodes⟩
  | case5 cursor h₁ h₂ h₃ h₄ rest hhex _ _ ih =>
    obtain ⟨codes, hcodes⟩ := ih h
    simp only [List.all_cons, List.all_nil, Bool.and_true, Bool.and_eq_true, isHexDigit_iff] at hhex
    obtain ⟨⟨_, hi⟩, ⟨_, hj⟩, ⟨_, hk⟩, ⟨_, hl⟩⟩ := hhex
    exact ⟨_, .unicode hi hj hk hl hcodes⟩
  | case6 => cases h
  | case7 => cases h
  | case8 => cases h
  | case9 => cases h
  | case10 cursor c rest hquote hbackslash hcontrol ih =>
    obtain ⟨codes, hcodes⟩ := ih h
    refine ⟨_, .plain ?_ hcodes⟩
    simp [isUnescaped, hquote, hbackslash, Nat.not_lt.1 hcontrol]

theorem lexStringFrom_complete {t r : List Char} {codes : List Nat} (h : StringRest t codes r) (cursor : Nat) :
    ∃ cursor', lexStringFrom line cursor t = .ok ⟨cursor', r⟩ := by
  induction h generalizing cursor with
  | close =>
    refine ⟨cursor + 1, ?_⟩
    rw [lexStringFrom.eq_def]
    exact if_pos rfl
  | @plain c t r codes hc _ ih =>
    obtain ⟨cursor', h⟩ := ih (cursor + c.utf8Size)
    simp only [isUnescaped, Bool.and_eq_true, decide_eq_true_eq, bne_iff_ne] at hc
    refine ⟨cursor', ?_⟩
    rw [lexStringFrom.eq_def]
    dsimp only
    rw [if_neg hc.1.2, if_neg hc.2, if_neg (Nat.not_lt.2 hc.1.1), h]
  | @escape c code t r codes hc _ ih =>
    obtain ⟨cursor', h⟩ := ih (cursor + 2)
    refine ⟨cursor', ?_⟩
    rw [lexStringFrom.eq_def]
    dsimp only
    rw [if_neg (by decide), if_pos rfl, if_pos ((isSimpleEscape_iff c).2 ⟨code, hc⟩), h]
  | @unicode a b c d i j k l t r codes ha hb hc hd _ ih =>
    obtain ⟨cursor', h⟩ := ih (cursor + 6)
    have hhex : [a, b, c, d].all isHexDigit = true := by
      simp only [List.all_cons, List.all_nil, Bool.and_true, Bool.and_eq_true, isHexDigit_iff]
      exact ⟨⟨i, ha⟩, ⟨j, hb⟩, ⟨k, hc⟩, l, hd⟩
    refine ⟨cursor', ?_⟩
    rw [lexStringFrom.eq_def]
    dsimp only
    rw [if_neg (by decide), if_pos rfl, if_neg (by decide), if_pos rfl, if_pos hhex, h]

theorem skip_many (p : Char → Bool) (lexer : JsonLexer) : Many p lexer.rest (lexer.skip p).rest := many_dropWhile _

theorem skip_eq {p : Char → Bool} {cursor : Nat} {t r : List Char} (h : Many p t r) (hr : ∀ c ∈ r.head?, p c = false) :
    ∃ cursor', skip p ⟨cursor, t⟩ = ⟨cursor', r⟩ := ⟨_, by rw [skip, h.dropWhile_eq hr]⟩

theorem lexDigits_sound {lexer behind : JsonLexer} (h : lexDigits line lexer = .ok behind) :
    ∃ c t, lexer.rest = c :: t ∧ isDigit c = true ∧ Many isDigit t behind.rest := by
  unfold lexDigits at h
  split at h
  · rename_i hdigit
    obtain rfl := Exec.ok.inj h
    obtain ⟨cursor, rest⟩ := lexer
    cases rest with
    | nil => cases hdigit
    | cons c t =>
      have hc : isDigit c = true := hdigit
      refine ⟨c, t, rfl, hc, ?_⟩
      rw [skip, show (c :: t).dropWhile isAsciiDigit = t.dropWhile isDigit from List.dropWhile_cons_of_pos hc]
      exact many_dropWhile t
  · cases h

theorem lexDigits_complete {cursor : Nat} {c : Char} {t r : List Char} (hc : isDigit c = true)
    (h : Many isDigit t r) (hr : ∀ c ∈ r.head?, isDigit c = false) :
    ∃ cursor', lexDigits line ⟨cursor, c :: t⟩ = .ok ⟨cursor', r⟩ := by
  obtain ⟨cursor', hskip⟩ := skip_eq (Many.cons hc h) hr
  refine ⟨cursor', ?_⟩
  rw [lexDigits, if_pos (show (c :: t).head?.any isAsciiDigit = true from hc)]
  exact congrArg Exec.ok hskip

theorem lexInteger_sound {lexer behind : JsonLexer} (h : lexInteger line lexer = .ok behind) :
    Integer lexer.rest behind.rest := by
  obtain ⟨cursor, rest⟩ := lexer
  cases rest with
  | nil => cases h
  | cons c rest =>
    unfold lexInteger at h
    by_cases hzero : c = '0'
    · subst hzero
      dsimp only at h
      rw [if_pos rfl] at h
      split at h
      · cases h
      · obtain rfl := Exec.ok.inj h
        exact .zero
    · dsimp only at h
      rw [if_neg hzero] at h
      split at h
      · rename_i hc
        obtain rfl := Exec.ok.inj h
        exact .nonzero hc hzero (many_dropWhile rest)
      · cases h

theorem lexInteger_complete {cursor : Nat} {t r : List Char} (h : Integer t r)
    (hr : ∀ c ∈ r.head?, isDigit c = false) : ∃ cursor', lexInteger line ⟨cursor, t⟩ = .ok ⟨cursor', r⟩ := by
  cases h with
  | zero =>
    refine ⟨cursor + 1, ?_⟩
    have hnone : ¬ r.head?.any isAsciiDigit = true := by
      cases r with
      | nil => exact Bool.false_ne_true
      | cons c r => exact Bool.eq_false_iff.1 (hr c rfl)
    rw [lexInteger]
    dsimp only
    rw [if_pos rfl, if_neg hnone]
  | @nonzero c t _ hc hzero hmany =>
    obtain ⟨cursor', hskip⟩ := skip_eq hmany hr
    refine ⟨cursor', ?_⟩
    rw [lexInteger]
    dsimp only
    rw [if_neg hzero, if_pos (show isAsciiDigit c = true from hc)]
    exact congrArg Exec.ok hskip

theorem lexFraction_sound {lexer behind : JsonLexer} {plain : Bool} (h : lexFraction line lexer = .ok (plain, behind)) :
    Fraction lexer.rest behind.rest := by
  obtain ⟨cursor, rest⟩ := lexer
  cases rest with
  | nil =>
    obtain ⟨_, rfl⟩ := Prod.mk.inj (Exec.ok.inj h)
    exact .absent
  | cons p rest =>
    unfold lexFraction at h
    dsimp only at h
    by_cases hp : p = '.'
    · rw [if_pos hp] at h
      obtain ⟨behind', hdigits, hok⟩ := Exec.bind_eq_ok.1 h
      obtain ⟨c, t, hc, hdigit, hmany⟩ := lexDigits_sound hdigits
      obtain ⟨_, rfl⟩ := Prod.mk.inj (Exec.ok.inj hok)
      obtain rfl : rest = c :: t := hc
      rw [hp]
      exact .digits hdigit hmany
    · rw [if_neg hp] at h
      obtain ⟨_, rfl⟩ := Prod.mk.inj (Exec.ok.inj h)
      exact .absent

theorem lexFraction_complete {cursor : Nat} {t r : List Char} (h : Fraction t r)
    (hr : ∀ c ∈ r.head?, isDigit c = false ∧ c ≠ '.') :
    ∃ plain cursor', lexFraction line ⟨cursor, t⟩ = .ok (plain, ⟨cursor', r⟩) := by
  cases h with
  | absent =>
    refine ⟨true, cursor, ?_⟩
    cases t with
    | nil => rfl
    | cons p t => exact if_neg (hr p rfl).2
  | digits hc hmany =>
    obtain ⟨cursor', hdigits⟩ := lexDigits_complete hc hmany fun c hc => (hr c hc).1
    refine ⟨false, cursor', ?_⟩
    rw [lexFraction]
    dsimp only
    rw [if_pos rfl, hdigits]
    rfl

theorem lexExponent_sound {lexer behind : JsonLexer} {plain : Bool} (h : lexExponent line lexer = .ok (plain, behind)) :
    Exponent lexer.rest behind.rest := by
  obtain ⟨cursor, rest⟩ := lexer
  cases rest with
  | nil =>
    obtain ⟨_, rfl⟩ := Prod.mk.inj (Exec.ok.inj h)
    exact .absent
  | cons e rest =>
    unfold lexExponent at h
    dsimp only at h
    by_cases he : e = 'e' ∨ e = 'E'
    · rw [if_pos he] at h
      have hexponent : isExponent e = true := by simpa [isExponent] using he
      obtain ⟨behind', hdigits, hok⟩ := Exec.bind_eq_ok.1 h
      obtain ⟨c, t, hc, hdigit, hmany⟩ := lexDigits_sound hdigits
      obtain ⟨_, rfl⟩ := Prod.mk.inj (Exec.ok.inj hok)
      cases rest with
      | nil => cases hc
      | cons s rest =>
        unfold lexExponentSign at hc
        dsimp only at hc
        by_cases hs : s = '+' ∨ s = '-'
        · rw [if_pos hs] at hc
          obtain rfl : rest = c :: t := hc
          exact .signed hexponent (by simpa [isSign] using hs) hdigit hmany
        · rw [if_neg hs] at hc
          obtain ⟨rfl, rfl⟩ := List.cons.inj hc
          exact .digits hexponent hdigit hmany
    · rw [if_neg he] at h
      obtain ⟨_, rfl⟩ := Prod.mk.inj (Exec.ok.inj h)
      exact .absent

theorem lexExponent_complete {cursor : Nat} {t r : List Char} (h : Exponent t r) (hr : JsonGrammar.Ends r) :
    ∃ plain cursor', lexExponent line ⟨cursor, t⟩ = .ok (plain, ⟨cursor', r⟩) := by
  cases h with
  | absent =>
    refine ⟨true, cursor, ?_⟩
    cases t with
    | nil => rfl
    | cons e t =>
      have he : ¬ (e = 'e' ∨ e = 'E') := by simpa [isExponent] using (hr e rfl).2.2
      exact if_neg he
  | @digits e c t _ he hc hmany =>
    have hsign : ¬ (c = '+' ∨ c = '-') := by
      rintro (rfl | rfl) <;> exact absurd hc (by decide)
    obtain ⟨cursor', hdigits⟩ := lexDigits_complete hc hmany (ends_digit hr)
    refine ⟨false, cursor', ?_⟩
    rw [lexExponent]
    dsimp only
    rw [if_pos (show e = 'e' ∨ e = 'E' by simpa [isExponent] using he), lexExponentSign]
    dsimp only
    rw [if_neg hsign, hdigits]
    rfl
  | @signed e s c t _ he hs hc hmany =>
    obtain ⟨cursor', hdigits⟩ : ∃ cursor', lexDigits line ⟨cursor + 1 + 1, c :: _⟩ = .ok ⟨cursor', r⟩ :=
      lexDigits_complete hc hmany (ends_digit hr)
    refine ⟨false, cursor', ?_⟩
    rw [lexExponent]
    dsimp only
    rw [if_pos (show e = 'e' ∨ e = 'E' by simpa [isExponent] using he), lexExponentSign]
    dsimp only
    rw [if_pos (show s = '+' ∨ s = '-' by simpa [isSign] using hs), hdigits]
    rfl

theorem lexNumber_sound {lexer behind : JsonLexer} {token : JsonToken} (h : lexNumber line lexer = .ok (token, behind)) :
    (∃ plain, token.kind = .number plain) ∧ Number lexer.rest behind.rest := by
  unfold lexNumber at h
  obtain ⟨integer, hinteger, h⟩ := Exec.bind_eq_ok.1 h
  obtain ⟨⟨plain, fraction⟩, hfraction, h⟩ := Exec.bind_eq_ok.1 h
  obtain ⟨⟨plain', exponent⟩, hexponent, h⟩ := Exec.bind_eq_ok.1 h
  obtain ⟨rfl, rfl⟩ := Prod.mk.inj (Exec.ok.inj h)
  have hparts := lexInteger_sound hinteger
  obtain ⟨cursor, rest⟩ := lexer
  refine ⟨⟨_, rfl⟩, ?_⟩
  cases rest with
  | nil => exact .positive hparts (lexFraction_sound hfraction) (lexExponent_sound hexponent)
  | cons c rest =>
    unfold lexSign at hparts
    dsimp only at hparts
    by_cases hc : c = '-'
    · rw [if_pos hc] at hparts
      rw [hc]
      exact .negative hparts (lexFraction_sound hfraction) (lexExponent_sound hexponent)
    · rw [if_neg hc] at hparts
      exact .positive hparts (lexFraction_sound hfraction) (lexExponent_sound hexponent)

theorem lexNumber_complete {cursor : Nat} {t r : List Char} (h : Number t r) (hr : JsonGrammar.Ends r) :
    ∃ plain stop, lexNumber line ⟨cursor, t⟩ = .ok (⟨.number plain, cursor, stop⟩, ⟨stop, r⟩) := by
  have hparts {start : JsonLexer} {cursor₁ : Nat} {t u v : List Char} (hsign : lexSign start = ⟨cursor₁, t⟩)
      (hinteger : Integer t u) (hfraction : Fraction u v) (hexponent : Exponent v r) :
      ∃ plain stop, lexNumber line start = .ok (⟨.number plain, start.cursor, stop⟩, ⟨stop, r⟩) := by
    have hv := exponent_ends hexponent hr
    obtain ⟨cursor₂, hinteger⟩ : ∃ cursor₂, lexInteger line ⟨cursor₁, t⟩ = .ok ⟨cursor₂, u⟩ :=
      lexInteger_complete hinteger (fraction_ends hfraction fun c hc => (hv c hc).1)
    obtain ⟨plain, cursor₃, hfraction⟩ : ∃ plain cursor₃, lexFraction line ⟨cursor₂, u⟩ = .ok (plain, ⟨cursor₃, v⟩) :=
      lexFraction_complete hfraction hv
    obtain ⟨plain', cursor₄, hexponent⟩ : ∃ plain cursor₄, lexExponent line ⟨cursor₃, v⟩ = .ok (plain, ⟨cursor₄, r⟩) :=
      lexExponent_complete hexponent hr
    refine ⟨plain && plain', cursor₄, ?_⟩
    rw [lexNumber, hsign, hinteger, Exec.ok_bind, hfraction, Exec.ok_bind, hexponent]
    rfl
  cases h with
  | negative hinteger hfraction hexponent =>
    have hsign (t : List Char) : lexSign ⟨cursor, '-' :: t⟩ = ⟨cursor + 1, t⟩ := rfl
    exact hparts (hsign _) hinteger hfraction hexponent
  | positive hinteger hfraction hexponent =>
    have hsign : lexSign ⟨cursor, t⟩ = ⟨cursor, t⟩ := by
      cases t with
      | nil => rfl
      | cons c t =>
        refine if_neg fun hc => ?_
        subst hc
        cases hinteger with
        | nonzero hc => exact absurd hc (by decide)
    exact hparts hsign hinteger hfraction hexponent

/-! ## Tokens -/

theorem lexKeyword_sound {keyword : String} {kind : JsonTokenKind} {lexer behind : JsonLexer} {token : JsonToken}
    (h : lexKeyword line keyword kind lexer = .ok (token, behind)) :
    token.kind = kind ∧ lexer.rest = keyword.toList ++ behind.rest := by
  unfold lexKeyword at h
  split at h
  · rename_i hprefix
    obtain ⟨rest, hrest⟩ := List.isPrefixOf_iff_prefix.1 hprefix
    obtain ⟨rfl, rfl⟩ := Prod.mk.inj (Exec.ok.inj h)
    refine ⟨rfl, ?_⟩
    dsimp only
    rw [← hrest, ← String.length_toList, List.drop_left]
  · cases h

theorem lexKeyword_complete (keyword : String) (kind : JsonTokenKind) (cursor : Nat) (r : List Char) :
    ∃ token cursor', lexKeyword line keyword kind ⟨cursor, keyword.toList ++ r⟩ = .ok (token, ⟨cursor', r⟩) ∧
      token.kind = kind := by
  refine ⟨⟨kind, cursor, cursor + keyword.length⟩, cursor + keyword.length, ?_, rfl⟩
  rw [lexKeyword, if_pos (List.isPrefixOf_iff_prefix.2 (List.prefix_append _ _))]
  dsimp only
  rw [← String.length_toList, List.drop_left]

theorem punctuation_lexeme {c : Char} {kind : JsonTokenKind} (h : punctuation c = some kind) (r : List Char) :
    Lexeme kind (c :: r) r := by
  unfold punctuation at h
  split at h <;> first | (obtain rfl := Option.some.inj h; rfl) | cases h

theorem lexToken_sound {c : Char} {t : List Char} {cursor : Nat} {behind : JsonLexer} {token : JsonToken}
    (h : lexToken line c ⟨cursor, c :: t⟩ = .ok (token, behind)) : Lexeme token.kind (c :: t) behind.rest := by
  unfold lexToken at h
  cases hpunctuation : punctuation c with
  | some kind =>
    rw [hpunctuation] at h
    obtain ⟨rfl, rfl⟩ := Prod.mk.inj (Exec.ok.inj h)
    exact punctuation_lexeme hpunctuation t
  | none =>
    rw [hpunctuation] at h
    dsimp only at h
    by_cases hquote : c = '"'
    · rw [if_pos hquote] at h
      obtain ⟨behind', hstring, hok⟩ := Exec.bind_eq_ok.1 h
      obtain ⟨rfl, rfl⟩ := Prod.mk.inj (Exec.ok.inj hok)
      obtain ⟨codes, hcodes⟩ := lexStringFrom_sound hstring
      exact ⟨t, codes, by rw [hquote], hcodes⟩
    rw [if_neg hquote] at h
    by_cases hnumber : c = '-' ∨ isAsciiDigit c
    · rw [if_pos hnumber] at h
      obtain ⟨⟨plain, hkind⟩, hparts⟩ := lexNumber_sound h
      rw [hkind]
      exact hparts
    rw [if_neg hnumber] at h
    by_cases ht : c = 't'
    · rw [if_pos ht] at h
      obtain ⟨hkind, hrest⟩ := lexKeyword_sound h
      rw [hkind]
      exact hrest
    rw [if_neg ht] at h
    by_cases hf : c = 'f'
    · rw [if_pos hf] at h
      obtain ⟨hkind, hrest⟩ := lexKeyword_sound h
      rw [hkind]
      exact hrest
    rw [if_neg hf] at h
    by_cases hn : c = 'n'
    · rw [if_pos hn] at h
      obtain ⟨hkind, hrest⟩ := lexKeyword_sound h
      rw [hkind]
      exact hrest
    · rw [if_neg hn] at h
      cases h

def JsonTokenKind.Same : JsonTokenKind → JsonTokenKind → Prop
  | .number _, .number _ => True
  | a, b => a = b

/-- What a text must go on with behind a token: nothing that a number goes on with. -/
def Delimits : JsonTokenKind → List Char → Prop
  | .number _, r => JsonGrammar.Ends r
  | _, _ => True

theorem punctuation_digit {c : Char} (h : c = '-' ∨ isDigit c = true) : punctuation c = none ∧ c ≠ '"' := by
  obtain rfl | h := h
  · exact ⟨rfl, by decide⟩
  · unfold punctuation
    split
    all_goals first | exact absurd h (by decide) | skip
    refine ⟨rfl, ?_⟩
    rintro rfl
    exact absurd h (by decide)

theorem lexToken_punctuation {c : Char} {kind : JsonTokenKind} (h : punctuation c = some kind) (cursor : Nat)
    (r : List Char) :
    lexToken line c ⟨cursor, c :: r⟩ = .ok (⟨kind, cursor, cursor + 1⟩, ⟨cursor + 1, r⟩) := by
  rw [lexToken, h]
  rfl

theorem lexToken_complete {kind : JsonTokenKind} {t r : List Char} (h : Lexeme kind t r) (hr : Delimits kind r)
    (cursor : Nat) : ∃ c t' token cursor', t = c :: t' ∧ lexToken line c ⟨cursor, t⟩ = .ok (token, ⟨cursor', r⟩) ∧
      kind.Same token.kind := by
  cases kind with
  | number plain =>
    obtain ⟨c, t', rfl, hc⟩ := number_head h
    obtain ⟨plain', stop, hnumber⟩ : ∃ plain stop,
        lexNumber line ⟨cursor, c :: t'⟩ = .ok (⟨.number plain, cursor, stop⟩, ⟨stop, r⟩) := lexNumber_complete h hr
    obtain ⟨hnone, hquote⟩ := punctuation_digit hc
    refine ⟨c, t', ⟨.number plain', cursor, stop⟩, stop, rfl, ?_, trivial⟩
    rw [lexToken, hnone]
    dsimp only
    rw [if_neg hquote, if_pos (show c = '-' ∨ isAsciiDigit c = true from hc), hnumber]
  | string =>
    obtain ⟨u, codes, rfl, hcodes⟩ := h
    obtain ⟨cursor', hstring⟩ : ∃ cursor', lexStringFrom line (cursor + 1) u = .ok ⟨cursor', r⟩ :=
      lexStringFrom_complete hcodes _
    refine ⟨'"', u, ⟨.string, cursor, cursor'⟩, cursor', rfl, ?_, rfl⟩
    rw [lexToken]
    dsimp only [punctuation]
    rw [if_pos rfl, lexString, List.tail_cons, hstring]
    rfl
  | true =>
    obtain ⟨token, cursor', hkeyword, hkind⟩ : ∃ token cursor',
        lexKeyword line "true" .true ⟨cursor, "true".toList ++ r⟩ = .ok (token, ⟨cursor', r⟩) ∧ token.kind = .true :=
      lexKeyword_complete ..
    exact ⟨'t', _, token, cursor', h, h ▸ hkeyword, hkind.symm⟩
  | false =>
    obtain ⟨token, cursor', hkeyword, hkind⟩ : ∃ token cursor',
        lexKeyword line "false" .false ⟨cursor, "false".toList ++ r⟩ = .ok (token, ⟨cursor', r⟩) ∧ token.kind = .false :=
      lexKeyword_complete ..
    exact ⟨'f', _, token, cursor', h, h ▸ hkeyword, hkind.symm⟩
  | null =>
    obtain ⟨token, cursor', hkeyword, hkind⟩ : ∃ token cursor',
        lexKeyword line "null" .null ⟨cursor, "null".toList ++ r⟩ = .ok (token, ⟨cursor', r⟩) ∧ token.kind = .null :=
      lexKeyword_complete ..
    exact ⟨'n', _, token, cursor', h, h ▸ hkeyword, hkind.symm⟩
  | leftBracket => exact ⟨'[', r, ⟨.leftBracket, cursor, cursor + 1⟩, cursor + 1, h, h ▸ lexToken_punctuation rfl .., rfl⟩
  | rightBracket =>
    exact ⟨']', r, ⟨.rightBracket, cursor, cursor + 1⟩, cursor + 1, h, h ▸ lexToken_punctuation rfl .., rfl⟩
  | leftBrace => exact ⟨'\x7b', r, ⟨.leftBrace, cursor, cursor + 1⟩, cursor + 1, h, h ▸ lexToken_punctuation rfl .., rfl⟩
  | rightBrace => exact ⟨'\x7d', r, ⟨.rightBrace, cursor, cursor + 1⟩, cursor + 1, h, h ▸ lexToken_punctuation rfl .., rfl⟩
  | colon => exact ⟨':', r, ⟨.colon, cursor, cursor + 1⟩, cursor + 1, h, h ▸ lexToken_punctuation rfl .., rfl⟩
  | comma => exact ⟨',', r, ⟨.comma, cursor, cursor + 1⟩, cursor + 1, h, h ▸ lexToken_punctuation rfl .., rfl⟩

/-- The text of a token, or the end of the line. -/
def NextLexeme : Option JsonToken → List Char → List Char → Prop
  | some token, t, r => Lexeme token.kind t r
  | none, t, _ => t = []

theorem nextToken_sound {lexer behind : JsonLexer} {token : Option JsonToken}
    (h : JsonLexer.nextToken line lexer = .ok (token, behind)) :
    ∃ t, Many isJsonWhitespace lexer.rest t ∧ NextLexeme token t behind.rest := by
  have hskip := skip_many isJsonWhitespace lexer
  unfold JsonLexer.nextToken at h
  dsimp only at h
  refine ⟨_, hskip, ?_⟩
  cases hlexer : lexer.skipJsonWhitespace with
  | mk cursor rest =>
    rw [hlexer] at h
    rw [show lexer.skip isJsonWhitespace = ⟨cursor, rest⟩ from hlexer]
    cases rest with
    | nil =>
      obtain ⟨rfl, rfl⟩ := Prod.mk.inj (Exec.ok.inj h)
      rfl
    | cons c t =>
      obtain ⟨⟨token', behind'⟩, htoken, hok⟩ := Exec.bind_eq_ok.1 h
      obtain ⟨rfl, rfl⟩ := Prod.mk.inj (Exec.ok.inj hok)
      exact lexToken_sound htoken

theorem whitespace_digit {c : Char} (hc : c = '-' ∨ isDigit c = true) : isJsonWhitespace c = false := by
  by_contra hspace
  simp only [isJsonWhitespace, Bool.not_eq_false, Bool.or_eq_true, beq_iff_eq] at hspace
  obtain (rfl | rfl) | rfl := hspace <;> exact absurd hc (by decide)

theorem lexeme_head {kind : JsonTokenKind} {t r : List Char} (h : Lexeme kind t r) :
    ∃ c t', t = c :: t' ∧ isJsonWhitespace c = false := by
  cases kind with
  | number plain =>
    obtain ⟨c, t', rfl, hc⟩ := number_head h
    exact ⟨c, t', rfl, whitespace_digit hc⟩
  | string =>
    obtain ⟨u, codes, rfl, _⟩ := h
    exact ⟨_, _, rfl, rfl⟩
  | _ => exact ⟨_, _, h, rfl⟩

theorem nextToken_complete {kind : JsonTokenKind} {t u r : List Char} (hspace : Many isJsonWhitespace t u)
    (h : Lexeme kind u r) (hr : Delimits kind r) (cursor : Nat) :
    ∃ token cursor', JsonLexer.nextToken line ⟨cursor, t⟩ = .ok (some token, ⟨cursor', r⟩) ∧ kind.Same token.kind := by
  obtain ⟨c, t', rfl, hc⟩ := lexeme_head h
  obtain ⟨cursor₁, hskip⟩ : ∃ cursor₁, skip isJsonWhitespace ⟨cursor, t⟩ = ⟨cursor₁, c :: t'⟩ :=
    skip_eq hspace fun d hd => Option.some.inj hd ▸ hc
  obtain ⟨c', t'', token, cursor', hhead, htoken, hkind⟩ : ∃ c' t'' token cursor', c :: t' = c' :: t'' ∧
      lexToken line c' ⟨cursor₁, c :: t'⟩ = .ok (token, ⟨cursor', r⟩) ∧ kind.Same token.kind :=
    lexToken_complete h hr cursor₁
  obtain ⟨rfl, rfl⟩ := List.cons.inj hhead
  refine ⟨token, cursor', ?_, hkind⟩
  rw [JsonLexer.nextToken, skipJsonWhitespace, hskip]
  dsimp only
  rw [htoken]
  rfl

theorem nextToken_none {t : List Char} (h : Many isJsonWhitespace t []) (cursor : Nat) :
    ∃ lexer, JsonLexer.nextToken line ⟨cursor, t⟩ = .ok (none, lexer) := by
  obtain ⟨cursor₁, hskip⟩ : ∃ cursor₁, skip isJsonWhitespace ⟨cursor, t⟩ = ⟨cursor₁, []⟩ :=
    skip_eq h fun d hd => by cases hd
  refine ⟨⟨cursor₁, []⟩, ?_⟩
  rw [JsonLexer.nextToken, skipJsonWhitespace, hskip]

theorem lexeme_length {kind : JsonTokenKind} {t r : List Char} (h : Lexeme kind t r) : r.length < t.length := by
  cases kind with
  | number plain => exact Number.length_lt h
  | string =>
    obtain ⟨u, codes, rfl, hcodes⟩ := h
    exact Nat.lt_succ_of_lt hcodes.length_lt
  | _ =>
    rw [show t = _ from h]
    simp only [List.length_cons]
    omega

/-! ## What an accepting run has read -/

def Closes : JsonFrame → List Char → List Char → Prop
  | .array .valueOrEnd, t, r => Many isJsonWhitespace t (']' :: r) ∨
      ∃ js, Derives isJsonWhitespace .elements t (.array js) (']' :: r)
  | .array .value, t, r => ∃ js, Derives isJsonWhitespace .elements t (.array js) (']' :: r)
  | .array .commaOrEnd, t, r => ∃ u, Many isJsonWhitespace t u ∧ (u = ']' :: r ∨
      ∃ v js, u = ',' :: v ∧ Derives isJsonWhitespace .elements v (.array js) (']' :: r))
  | .object .keyOrEnd, t, r => Many isJsonWhitespace t ('\x7d' :: r) ∨
      ∃ ms, Derives isJsonWhitespace .members t (.object ms) ('\x7d' :: r)
  | .object .key, t, r => ∃ ms, Derives isJsonWhitespace .members t (.object ms) ('\x7d' :: r)
  | .object .colon, t, r => ∃ u j v, Many isJsonWhitespace t (':' :: u) ∧ Derives isJsonWhitespace .element u j v ∧
      (v = '\x7d' :: r ∨ ∃ w ms, v = ',' :: w ∧ Derives isJsonWhitespace .members w (.object ms) ('\x7d' :: r))
  | .object .value, t, r => ∃ j v, Derives isJsonWhitespace .element t j v ∧
      (v = '\x7d' :: r ∨ ∃ w ms, v = ',' :: w ∧ Derives isJsonWhitespace .members w (.object ms) ('\x7d' :: r))
  | .object .commaOrEnd, t, r => ∃ u, Many isJsonWhitespace t u ∧ (u = '\x7d' :: r ∨
      ∃ w ms, u = ',' :: w ∧ Derives isJsonWhitespace .members w (.object ms) ('\x7d' :: r))

def ClosesAll : List JsonFrame → List Char → List Char → Prop
  | [], t, r => t = r
  | frame :: outer, t, r => ∃ u, Closes frame t u ∧ ClosesAll outer u r

theorem beginJsonValue_sound {token : JsonToken} {frame : JsonFrame} {outer frames : List JsonFrame}
    {u v r : List Char} (h : beginJsonValue line token frame outer = .ok frames) (hlexeme : Lexeme token.kind u v)
    (hrest : ClosesAll frames v r) :
    ∃ j w, Derives isJsonWhitespace .value u j w ∧ ClosesAll (frame.afterValue :: outer) w r := by
  obtain ⟨kind, start, stop⟩ := token
  cases kind with
  | leftBracket =>
    obtain rfl := Exec.ok.inj h
    obtain rfl : u = '[' :: v := hlexeme
    obtain ⟨w, hclose, hrest⟩ := hrest
    obtain hempty | ⟨js, hjs⟩ := hclose
    · exact ⟨_, w, .emptyArray hempty, hrest⟩
    · exact ⟨_, w, .array hjs, hrest⟩
  | leftBrace =>
    obtain rfl := Exec.ok.inj h
    obtain rfl : u = '\x7b' :: v := hlexeme
    obtain ⟨w, hclose, hrest⟩ := hrest
    obtain hempty | ⟨ms, hms⟩ := hclose
    · exact ⟨_, w, .emptyObject hempty, hrest⟩
    · exact ⟨_, w, .object hms, hrest⟩
  | string =>
    obtain rfl := Exec.ok.inj h
    obtain ⟨t, codes, rfl, hcodes⟩ := hlexeme
    exact ⟨_, v, .string hcodes, hrest⟩
  | number plain =>
    obtain rfl := Exec.ok.inj h
    have hnumber : Number u v := hlexeme
    obtain ⟨literal, rfl⟩ := hnumber.suffix
    exact ⟨_, v, .number hnumber, hrest⟩
  | true =>
    obtain rfl := Exec.ok.inj h
    obtain rfl : u = 't' :: 'r' :: 'u' :: 'e' :: v := hlexeme
    exact ⟨_, v, .true, hrest⟩
  | false =>
    obtain rfl := Exec.ok.inj h
    obtain rfl : u = 'f' :: 'a' :: 'l' :: 's' :: 'e' :: v := hlexeme
    exact ⟨_, v, .false, hrest⟩
  | null =>
    obtain rfl := Exec.ok.inj h
    obtain rfl : u = 'n' :: 'u' :: 'l' :: 'l' :: v := hlexeme
    exact ⟨_, v, .null, hrest⟩
  | _ => cases h

theorem closes_elements {t u w r : List Char} {j : Json} (hspace : Many isJsonWhitespace t u)
    (hvalue : Derives isJsonWhitespace .value u j w) (h : Closes (.array .commaOrEnd) w r) : Closes (.array .value) t r := by
  obtain ⟨v, hbehind, rfl | ⟨v', js, rfl, hjs⟩⟩ := h
  · exact ⟨[j], .lastElement (.element hspace hvalue hbehind)⟩
  · exact ⟨j :: js, .moreElements (.element hspace hvalue hbehind) hjs⟩

theorem closes_memberValue {t u w r : List Char} {j : Json} (hspace : Many isJsonWhitespace t u)
    (hvalue : Derives isJsonWhitespace .value u j w) (h : Closes (.object .commaOrEnd) w r) : Closes (.object .value) t r := by
  obtain ⟨v, hbehind, h⟩ := h
  exact ⟨j, v, .element hspace hvalue hbehind, h⟩

theorem closes_member {t u codes v r} (hspace : Many isJsonWhitespace t ('"' :: u)) (hcodes : StringRest u codes v)
    (h : Closes (.object .colon) v r) : Closes (.object .key) t r := by
  obtain ⟨w, j, x, hcolon, helement, rfl | ⟨y, ms, rfl, hms⟩⟩ := h
  · exact ⟨[(codes, j)], .lastMember (.member hspace hcodes hcolon helement)⟩
  · exact ⟨(codes, j) :: ms, .moreMembers (.member hspace hcodes hcolon helement) hms⟩

theorem stepFrame_sound {token : JsonToken} {frame : JsonFrame} {outer frames : List JsonFrame}
    {parsed parsed' : ParsedJsonArray} {t u v r : List Char}
    (h : stepFrame line token frame outer parsed = .ok (frames, parsed')) (hspace : Many isJsonWhitespace t u)
    (hlexeme : Lexeme token.kind u v) (hrest : ClosesAll frames v r) : ClosesAll (frame :: outer) t r := by
  have harray (h : (beginJsonValue line token frame outer >>= fun frames =>
      .ok (frames, recordRootArrayValue (frame :: outer) token parsed)) = .ok (frames, parsed'))
      (hafter : frame.afterValue = .array .commaOrEnd) : ∃ w, Closes (.array .value) t w ∧ ClosesAll outer w r := by
    obtain ⟨frames', hbegin, hok⟩ := Exec.bind_eq_ok.1 h
    obtain ⟨rfl, _⟩ := Prod.mk.inj (Exec.ok.inj hok)
    obtain ⟨j, w, hvalue, x, hclose, hrest⟩ := beginJsonValue_sound hbegin hlexeme hrest
    rw [hafter] at hclose
    exact ⟨x, closes_elements hspace hvalue hclose, hrest⟩
  unfold stepFrame at h
  cases frame with
  | array state =>
    cases state with
    | valueOrEnd =>
      dsimp only at h
      by_cases hend : token.kind = .rightBracket
      · rw [if_pos hend] at h
        obtain ⟨rfl, _⟩ := Prod.mk.inj (Exec.ok.inj h)
        rw [hend] at hlexeme
        exact ⟨v, .inl ((show u = _ from hlexeme) ▸ hspace), hrest⟩
      · rw [if_neg hend] at h
        obtain ⟨w, hclose, hrest⟩ := harray h rfl
        exact ⟨w, .inr hclose, hrest⟩
    | value => exact harray h rfl
    | commaOrEnd =>
      dsimp only at h
      by_cases hcomma : token.kind = .comma
      · rw [if_pos hcomma] at h
        obtain ⟨rfl, _⟩ := Prod.mk.inj (Exec.ok.inj h)
        rw [hcomma] at hlexeme
        obtain ⟨w, ⟨js, hjs⟩, hrest⟩ := hrest
        exact ⟨w, ⟨u, hspace, .inr ⟨v, js, hlexeme, hjs⟩⟩, hrest⟩
      rw [if_neg hcomma] at h
      by_cases hend : token.kind = .rightBracket
      · rw [if_pos hend] at h
        obtain ⟨rfl, _⟩ := Prod.mk.inj (Exec.ok.inj h)
        rw [hend] at hlexeme
        exact ⟨v, ⟨u, hspace, .inl hlexeme⟩, hrest⟩
      · rw [if_neg hend] at h
        cases h
  | object state =>
    -- A key and then its colon, in either of the states that wait for a key.
    have hkey (hstring : token.kind = .string) (hframes : frames = .object .colon :: outer) :
        ∃ w, Closes (.object .key) t w ∧ ClosesAll outer w r := by
      rw [hstring] at hlexeme
      rw [hframes] at hrest
      obtain ⟨x, codes, rfl, hcodes⟩ := hlexeme
      obtain ⟨w, hcolon, hrest⟩ := hrest
      exact ⟨w, closes_member hspace hcodes hcolon, hrest⟩
    cases state with
    | keyOrEnd =>
      dsimp only at h
      by_cases hstring : token.kind = .string
      · rw [if_pos hstring] at h
        obtain ⟨hframes, _⟩ := Prod.mk.inj (Exec.ok.inj h)
        obtain ⟨w, hclose, hrest⟩ := hkey hstring hframes.symm
        exact ⟨w, .inr hclose, hrest⟩
      rw [if_neg hstring] at h
      by_cases hend : token.kind = .rightBrace
      · rw [if_pos hend] at h
        obtain ⟨rfl, _⟩ := Prod.mk.inj (Exec.ok.inj h)
        rw [hend] at hlexeme
        exact ⟨v, .inl ((show u = _ from hlexeme) ▸ hspace), hrest⟩
      · rw [if_neg hend] at h
        cases h
    | key =>
      dsimp only at h
      by_cases hstring : token.kind = .string
      · rw [if_pos hstring] at h
        obtain ⟨hframes, _⟩ := Prod.mk.inj (Exec.ok.inj h)
        exact hkey hstring hframes.symm
      · rw [if_neg hstring] at h
        cases h
    | colon =>
      dsimp only at h
      by_cases hcolon : token.kind = .colon
      · rw [if_pos hcolon] at h
        obtain ⟨rfl, _⟩ := Prod.mk.inj (Exec.ok.inj h)
        rw [hcolon] at hlexeme
        obtain ⟨w, ⟨j, x, helement, hclose⟩, hrest⟩ := hrest
        exact ⟨w, ⟨v, j, x, (show u = _ from hlexeme) ▸ hspace, helement, hclose⟩, hrest⟩
      · rw [if_neg hcolon] at h
        cases h
    | value =>
      obtain ⟨frames', hbegin, hok⟩ := Exec.bind_eq_ok.1 h
      obtain ⟨rfl, _⟩ := Prod.mk.inj (Exec.ok.inj hok)
      obtain ⟨j, w, hvalue, x, hclose, hrest⟩ := beginJsonValue_sound hbegin hlexeme hrest
      exact ⟨x, closes_memberValue hspace hvalue hclose, hrest⟩
    | commaOrEnd =>
      dsimp only at h
      by_cases hcomma : token.kind = .comma
      · rw [if_pos hcomma] at h
        obtain ⟨rfl, _⟩ := Prod.mk.inj (Exec.ok.inj h)
        rw [hcomma] at hlexeme
        obtain ⟨w, ⟨ms, hms⟩, hrest⟩ := hrest
        exact ⟨w, ⟨u, hspace, .inr ⟨v, ms, hlexeme, hms⟩⟩, hrest⟩
      rw [if_neg hcomma] at h
      by_cases hend : token.kind = .rightBrace
      · rw [if_pos hend] at h
        obtain ⟨rfl, _⟩ := Prod.mk.inj (Exec.ok.inj h)
        rw [hend] at hlexeme
        exact ⟨v, ⟨u, hspace, .inl hlexeme⟩, hrest⟩
      · rw [if_neg hend] at h
        cases h

theorem parseFrames_sound {lineLen fuel : Nat} {frames : List JsonFrame} {parsed parsed' : ParsedJsonArray}
    {lexer behind : JsonLexer} (h : parseFrames line lineLen fuel frames parsed lexer = .ok (parsed', behind)) :
    ClosesAll frames lexer.rest behind.rest := by
  induction fuel generalizing frames parsed lexer with
  | zero =>
    cases frames with
    | nil =>
      obtain ⟨_, rfl⟩ := Prod.mk.inj (Exec.ok.inj h)
      rfl
    | cons frame outer => cases h
  | succ fuel ih =>
    cases frames with
    | nil =>
      obtain ⟨_, rfl⟩ := Prod.mk.inj (Exec.ok.inj h)
      rfl
    | cons frame outer =>
      rw [parseFrames] at h
      obtain ⟨⟨token, lexer'⟩, htoken, h⟩ := Exec.bind_eq_ok.1 h
      obtain ⟨t, hspace, hlexeme⟩ := nextToken_sound htoken
      cases token with
      | none => cases h
      | some token =>
        obtain ⟨⟨frames', parsed''⟩, hstep, h⟩ := Exec.bind_eq_ok.1 h
        exact stepFrame_sound hstep hspace hlexeme (ih h)

theorem parseArray_sound {text : List Char} {parsed : ParsedJsonArray} (h : parseArray line text = .ok parsed) :
    ∃ js, Text isJsonWhitespace text (.array js) := by
  unfold parseArray at h
  obtain ⟨⟨root, lexer⟩, hroot, h⟩ := Exec.bind_eq_ok.1 h
  obtain ⟨t, hspace, hlexeme⟩ := nextToken_sound hroot
  cases root with
  | none => cases h
  | some root =>
    obtain ⟨_, hbracket, h⟩ := Exec.bind_eq_ok.1 h
    obtain ⟨⟨parsed', lexer'⟩, hframes, h⟩ := Exec.bind_eq_ok.1 h
    obtain ⟨⟨trailing, lexer''⟩, htrailing, h⟩ := Exec.bind_eq_ok.1 h
    obtain ⟨t', hbehind, hnone⟩ := nextToken_sound htrailing
    cases trailing with
    | some trailing => cases h
    | none =>
      obtain rfl : t' = [] := hnone
      have hkind : root.kind = .leftBracket := not_not.1 (rejectIf_eq_ok.1 hbracket)
      have hopen : Lexeme root.kind t lexer.rest := hlexeme
      rw [hkind] at hopen
      obtain rfl : t = '[' :: lexer.rest := hopen
      obtain ⟨_, hempty | ⟨js, hjs⟩, rfl⟩ := parseFrames_sound hframes
      · exact ⟨[], .element hspace (.emptyArray hempty) hbehind⟩
      · exact ⟨js, .element hspace (.array hjs) hbehind⟩

/-! ## Every array of the grammar is accepted -/

/-- One more value, up to the largest count. -/
def bump (count : Nat) : Nat := saturatingAdd count 1

/-- From one stack and text the machine gets to another, having recorded some values. -/
def Goes (line lineLen : Nat) (frames : List JsonFrame) (t : List Char) (frames' : List JsonFrame) (r : List Char)
    (count : Nat) : Prop :=
  ∀ fuel cursor parsed, t.length ≤ fuel → ∃ fuel' cursor' parsed', r.length ≤ fuel' ∧
    parsed'.valueCount = bump^[count] parsed.valueCount ∧
    parseFrames line lineLen fuel frames parsed ⟨cursor, t⟩ = parseFrames line lineLen fuel' frames' parsed' ⟨cursor', r⟩

section
variable {lineLen : Nat} {t u r : List Char} {frame : JsonFrame} {frames frames' frames'' outer : List JsonFrame}

theorem Goes.trans {m n : Nat} (h : Goes line lineLen frames t frames' u m)
    (h' : Goes line lineLen frames' u frames'' r n) : Goes line lineLen frames t frames'' r (m + n) := by
  intro fuel cursor parsed hfuel
  obtain ⟨fuel', cursor', parsed', hfuel', hcount', heq'⟩ := h fuel cursor parsed hfuel
  obtain ⟨fuel'', cursor'', parsed'', hfuel'', hcount'', heq''⟩ := h' fuel' cursor' parsed' hfuel'
  refine ⟨fuel'', cursor'', parsed'', hfuel'', ?_, heq'.trans heq''⟩
  rw [hcount'', hcount', Nat.add_comm, Function.iterate_add_apply]

theorem goes_token {kind : JsonTokenKind} {count : Nat} (hspace : Many isJsonWhitespace t u) (hlexeme : Lexeme kind u r)
    (hr : Delimits kind r)
    (hstep : ∀ token parsed, kind.Same token.kind → ∃ parsed',
      stepFrame line token frame outer parsed = .ok (frames', parsed') ∧
        parsed'.valueCount = bump^[count] parsed.valueCount) :
    Goes line lineLen (frame :: outer) t frames' r count := by
  intro fuel cursor parsed hfuel
  have hlength := lexeme_length hlexeme
  have hle := hspace.length_le
  cases fuel with
  | zero => omega
  | succ fuel =>
    obtain ⟨token, cursor', htoken, hkind⟩ : ∃ token cursor',
        JsonLexer.nextToken line ⟨cursor, t⟩ = .ok (some token, ⟨cursor', r⟩) ∧ kind.Same token.kind :=
      nextToken_complete hspace hlexeme hr cursor
    obtain ⟨parsed', hok, hcount⟩ := hstep token parsed hkind
    refine ⟨fuel, cursor', parsed', by omega, hcount, ?_⟩
    rw [parseFrames, htoken, Exec.ok_bind]
    dsimp only
    rw [hok, Exec.ok_bind]

/-- The frames in which a value may come next. -/
def ExpectsValue : JsonFrame → Prop
  | .array .valueOrEnd | .array .value | .object .value => True
  | _ => False

/-- How many values a value of a frame counts for. -/
def counted (frame : JsonFrame) (outer : List JsonFrame) : Nat :=
  match frame with
  | .array _ => if outer = [] then 1 else 0
  | .object _ => 0

theorem recordRootArrayValue_count (token : JsonToken) (state : JsonArrayState) (outer : List JsonFrame)
    (parsed : ParsedJsonArray) : (recordRootArrayValue (.array state :: outer) token parsed).valueCount =
      bump^[counted (.array state) outer] parsed.valueCount := by
  cases outer with
  | nil => rfl
  | cons frame outer => rfl

theorem stepFrame_value {token : JsonToken} (hframe : ExpectsValue frame) (hend : token.kind ≠ .rightBracket)
    (h : beginJsonValue line token frame outer = .ok frames') (parsed : ParsedJsonArray) :
    ∃ parsed', stepFrame line token frame outer parsed = .ok (frames', parsed') ∧
      parsed'.valueCount = bump^[counted frame outer] parsed.valueCount := by
  cases frame with
  | array state =>
    refine ⟨recordRootArrayValue (.array state :: outer) token parsed, ?_, recordRootArrayValue_count ..⟩
    cases state with
    | valueOrEnd =>
      simp only [stepFrame]
      rw [if_neg hend, h, Exec.ok_bind]
    | value =>
      simp only [stepFrame]
      rw [h, Exec.ok_bind]
    | commaOrEnd => cases hframe
  | object state =>
    refine ⟨parsed, ?_, rfl⟩
    cases state with
    | value =>
      simp only [stepFrame]
      rw [h, Exec.ok_bind]
    | _ => cases hframe

def afterToken (frame : JsonFrame) (outer : List JsonFrame) : JsonTokenKind → Option (List JsonFrame)
  | .leftBracket => some (.array .valueOrEnd :: frame.afterValue :: outer)
  | .leftBrace => some (.object .keyOrEnd :: frame.afterValue :: outer)
  | .string | .number _ | .true | .false | .null => some (frame.afterValue :: outer)
  | _ => none

theorem beginJsonValue_ok {kind : JsonTokenKind} {token : JsonToken} (h : afterToken frame outer kind = some frames')
    (hkind : kind.Same token.kind) :
    beginJsonValue line token frame outer = .ok frames' ∧ token.kind ≠ .rightBracket := by
  obtain ⟨kind', start, stop⟩ := token
  cases kind with
  | number plain =>
    obtain rfl := Option.some.inj h
    cases kind' with
    | number plain' => exact ⟨rfl, by simp⟩
    | _ => cases hkind
  | leftBracket | leftBrace | string | true | false | null =>
    obtain rfl := Option.some.inj h
    obtain rfl : _ = kind' := hkind
    exact ⟨rfl, by simp⟩
  | _ => cases h

theorem goes_value (kind : JsonTokenKind) (hframe : ExpectsValue frame) (hspace : Many isJsonWhitespace t u)
    (hlexeme : Lexeme kind u r) (hr : Delimits kind r) (hafter : afterToken frame outer kind = some frames') :
    Goes line lineLen (frame :: outer) t frames' r (counted frame outer) := by
  refine goes_token hspace hlexeme hr ?_
  intro token parsed hkind
  obtain ⟨hbegin, hend⟩ : beginJsonValue line token frame outer = .ok frames' ∧ token.kind ≠ .rightBracket :=
    beginJsonValue_ok hafter hkind
  exact stepFrame_value hframe hend hbegin parsed

theorem goes_mark (kind : JsonTokenKind) (hspace : Many isJsonWhitespace t u) (hlexeme : Lexeme kind u r)
    (hnumber : ∀ plain, kind ≠ .number plain)
    (hstep : ∀ token parsed, token.kind = kind → stepFrame line token frame outer parsed = .ok (frames', parsed)) :
    Goes line lineLen (frame :: outer) t frames' r 0 := by
  have hsame : ∀ kind', kind.Same kind' → kind' = kind := by
    intro kind' h
    cases kind with
    | number plain => exact absurd rfl (hnumber plain)
    | _ => exact Eq.symm h
  have hr : Delimits kind r := by
    cases kind with
    | number plain => exact absurd rfl (hnumber plain)
    | _ => trivial
  exact goes_token hspace hlexeme hr fun token parsed hkind => ⟨parsed, hstep token parsed (hsame _ hkind), rfl⟩

/-! Separators and the ends of arrays and objects. -/

theorem goes_arrayEnd (hspace : Many isJsonWhitespace t (']' :: r)) :
    Goes line lineLen (.array .valueOrEnd :: outer) t outer r 0 := by
  refine goes_mark .rightBracket hspace rfl (by simp) ?_
  intro token parsed hkind
  simp only [stepFrame]
  rw [if_pos hkind]

theorem goes_elementsEnd (hspace : Many isJsonWhitespace t (']' :: r)) :
    Goes line lineLen (.array .commaOrEnd :: outer) t outer r 0 := by
  refine goes_mark .rightBracket hspace rfl (by simp) ?_
  intro token parsed hkind
  simp only [stepFrame]
  rw [hkind, if_neg (by simp), if_pos rfl]

theorem goes_elementsComma (hspace : Many isJsonWhitespace t (',' :: r)) :
    Goes line lineLen (.array .commaOrEnd :: outer) t (.array .value :: outer) r 0 := by
  refine goes_mark .comma hspace rfl (by simp) ?_
  intro token parsed hkind
  simp only [stepFrame]
  rw [if_pos hkind]

theorem goes_objectEnd (hspace : Many isJsonWhitespace t ('\x7d' :: r)) :
    Goes line lineLen (.object .keyOrEnd :: outer) t outer r 0 := by
  refine goes_mark .rightBrace hspace rfl (by simp) ?_
  intro token parsed hkind
  simp only [stepFrame]
  rw [hkind, if_neg (by simp), if_pos rfl]

theorem goes_membersEnd (hspace : Many isJsonWhitespace t ('\x7d' :: r)) :
    Goes line lineLen (.object .commaOrEnd :: outer) t outer r 0 := by
  refine goes_mark .rightBrace hspace rfl (by simp) ?_
  intro token parsed hkind
  simp only [stepFrame]
  rw [hkind, if_neg (by simp), if_pos rfl]

theorem goes_membersComma (hspace : Many isJsonWhitespace t (',' :: r)) :
    Goes line lineLen (.object .commaOrEnd :: outer) t (.object .key :: outer) r 0 := by
  refine goes_mark .comma hspace rfl (by simp) ?_
  intro token parsed hkind
  simp only [stepFrame]
  rw [if_pos hkind]

theorem goes_colon (hspace : Many isJsonWhitespace t (':' :: r)) :
    Goes line lineLen (.object .colon :: outer) t (.object .value :: outer) r 0 := by
  refine goes_mark .colon hspace rfl (by simp) ?_
  intro token parsed hkind
  simp only [stepFrame]
  rw [if_pos hkind]

theorem goes_key {codes : List Nat} {state : JsonObjectState} (hstate : state = .keyOrEnd ∨ state = .key)
    (hspace : Many isJsonWhitespace t ('"' :: u)) (hcodes : StringRest u codes r) :
    Goes line lineLen (.object state :: outer) t (.object .colon :: outer) r 0 := by
  refine goes_mark .string hspace ⟨u, codes, rfl, hcodes⟩ (by simp) ?_
  intro token parsed hkind
  obtain rfl | rfl := hstate
  · simp only [stepFrame]
    rw [if_pos hkind]
  · simp only [stepFrame]
    rw [if_pos hkind]

/-! From the first character of a symbol to behind its last token. -/

/-- How the machine goes through what a symbol derives, up to whitespace behind it. -/
def Passes (line lineLen : Nat) : Symbol → List Char → Json → List Char → Prop
  | .value, t, _, r => ∀ t₀ frame outer, Many isJsonWhitespace t₀ t → ExpectsValue frame →
      Goes line lineLen (frame :: outer) t₀ (frame.afterValue :: outer) r (counted frame outer)
  | .element, t, _, r => ∀ frame outer, ExpectsValue frame → ∃ v, Many isJsonWhitespace v r ∧
      Goes line lineLen (frame :: outer) t (frame.afterValue :: outer) v (counted frame outer)
  | .elements, t, j, r => ∀ js state outer, j = .array js → ExpectsValue (.array state) → ∃ v, Many isJsonWhitespace v r ∧
      Goes line lineLen (.array state :: outer) t (.array .commaOrEnd :: outer) v
        (js.length * counted (.array state) outer)
  | .member, t, _, r | .members, t, _, r => ∀ state outer, state = .keyOrEnd ∨ state = .key →
      ∃ v, Many isJsonWhitespace v r ∧ Goes line lineLen (.object state :: outer) t (.object .commaOrEnd :: outer) v 0

theorem ends_of_many (hspace : Many isJsonWhitespace t r) (hr : JsonGrammar.Ends r) : JsonGrammar.Ends t := by
  cases hspace with
  | nil => exact hr
  | cons hc _ =>
    simp only [isJsonWhitespace, Bool.or_eq_true, beq_iff_eq] at hc
    obtain (rfl | rfl) | rfl := hc
    all_goals exact ends_cons rfl (by decide) rfl

theorem passes {symbol : Symbol} {j : Json} (h : Derives isJsonWhitespace symbol t j r) (hr : JsonGrammar.Ends r) :
    Passes line lineLen symbol t j r := by
  induction h with
  | null => exact fun t₀ frame outer hspace hframe => goes_value .null hframe hspace rfl trivial rfl
  | true => exact fun t₀ frame outer hspace hframe => goes_value .true hframe hspace rfl trivial rfl
  | false => exact fun t₀ frame outer hspace hframe => goes_value .false hframe hspace rfl trivial rfl
  | number hnumber =>
    exact fun t₀ frame outer hspace hframe => goes_value (.number Bool.true) hframe hspace hnumber hr rfl
  | string hcodes =>
    exact fun t₀ frame outer hspace hframe => goes_value .string hframe hspace ⟨_, _, rfl, hcodes⟩ trivial rfl
  | emptyArray hmany =>
    intro t₀ frame outer hspace hframe
    exact (goes_value .leftBracket hframe hspace rfl trivial rfl).trans (goes_arrayEnd hmany)
  | array helements ih =>
    intro t₀ frame outer hspace hframe
    obtain ⟨v, hv, hgoes⟩ := ih (ends_cons rfl (by decide) rfl) _ .valueOrEnd (frame.afterValue :: outer) rfl trivial
    exact (goes_value .leftBracket hframe hspace rfl trivial rfl).trans (hgoes.trans (goes_elementsEnd hv))
  | emptyObject hmany =>
    intro t₀ frame outer hspace hframe
    exact (goes_value .leftBrace hframe hspace rfl trivial rfl).trans (goes_objectEnd hmany)
  | object hmembers ih =>
    intro t₀ frame outer hspace hframe
    obtain ⟨v, hv, hgoes⟩ := ih (ends_cons rfl (by decide) rfl) .keyOrEnd (frame.afterValue :: outer) (.inl rfl)
    exact (goes_value .leftBrace hframe hspace rfl trivial rfl).trans (hgoes.trans (goes_membersEnd hv))
  | element hspace hvalue hbehind ih =>
    intro frame outer hframe
    exact ⟨_, hbehind, ih (ends_of_many hbehind hr) _ frame outer hspace hframe⟩
  | lastElement helement ih =>
    intro js state outer hjs hstate
    obtain rfl := Json.array.inj hjs
    obtain ⟨v, hv, hgoes⟩ := ih hr (.array state) outer hstate
    exact ⟨v, hv, (Nat.one_mul _).symm ▸ hgoes⟩
  | moreElements helement helements ih ihs =>
    intro js state outer hjs hstate
    obtain rfl := Json.array.inj hjs
    obtain ⟨v, hv, hgoes⟩ := ih (ends_cons rfl (by decide) rfl) (.array state) outer hstate
    obtain ⟨w, hw, hgoes'⟩ := ihs hr _ .value outer rfl trivial
    have hrest := (goes_elementsComma hv).trans hgoes'
    rw [Nat.zero_add] at hrest
    refine ⟨w, hw, ?_⟩
    rw [List.length_cons, Nat.succ_mul, Nat.add_comm]
    exact hgoes.trans hrest
  | member hspace hcodes hcolon helement ih =>
    intro state outer hstate
    obtain ⟨v, hv, hgoes⟩ := ih hr (.object .value) outer trivial
    exact ⟨v, hv, ((goes_key hstate hspace hcodes).trans (goes_colon hcolon)).trans hgoes⟩
  | lastMember hmember ih => exact ih hr
  | moreMembers hmember hmembers ih ihs =>
    intro state outer hstate
    obtain ⟨v, hv, hgoes⟩ := ih (ends_cons rfl (by decide) rfl) state outer hstate
    obtain ⟨w, hw, hgoes'⟩ := ihs hr .key outer (.inr rfl)
    exact ⟨w, hw, (hgoes.trans (goes_membersComma hv)).trans hgoes'⟩

/-- From behind the opening bracket of an array to behind its closing one. -/
theorem goes_root {js : List Json} (h : js = [] ∧ Many isJsonWhitespace t (']' :: r) ∨
    Derives isJsonWhitespace .elements t (.array js) (']' :: r)) :
    Goes line lineLen [.array .valueOrEnd] t [] r js.length := by
  obtain ⟨rfl, hmany⟩ | helements := h
  · exact goes_arrayEnd hmany
  · obtain ⟨v, hv, hgoes⟩ : ∃ v, Many isJsonWhitespace v (']' :: r) ∧
        Goes line lineLen [.array .valueOrEnd] t [.array .commaOrEnd] v (js.length * 1) :=
      passes helements (ends_cons rfl (by decide) rfl) js .valueOrEnd [] rfl trivial
    rw [Nat.mul_one] at hgoes
    exact hgoes.trans (goes_elementsEnd hv)

end

theorem iterate_bump (n : Nat) : bump^[n] 0 = min n usizeMax := by
  induction n with
  | zero => exact (Nat.zero_min _).symm
  | succ n ih =>
    rw [Function.iterate_succ_apply', ih, bump, saturatingAdd]
    omega

theorem parseArray_root {text u v : List Char} {js : List Json} (hspace : Many isJsonWhitespace text ('[' :: u))
    (hroot : js = [] ∧ Many isJsonWhitespace u (']' :: v) ∨ Derives isJsonWhitespace .elements u (.array js) (']' :: v)) :
    ∃ parsed cursor, parsed.valueCount = min js.length usizeMax ∧
      (∀ lexer, JsonLexer.nextToken line ⟨cursor, v⟩ = .ok (none, lexer) → parseArray line text = .ok parsed) ∧
      ∀ parsed', parseArray line text = .ok parsed' → ∃ lexer, JsonLexer.nextToken line ⟨cursor, v⟩ = .ok (none, lexer) := by
  obtain ⟨root, cursor, hopen, hkind⟩ : ∃ token cursor,
      JsonLexer.nextToken line ⟨0, text⟩ = .ok (some token, ⟨cursor, u⟩) ∧ JsonTokenKind.leftBracket.Same token.kind :=
    nextToken_complete hspace (show Lexeme .leftBracket _ u from rfl) trivial 0
  have hle := hspace.length_le
  rw [List.length_cons] at hle
  have hgoes : Goes line (emit text).length [.array .valueOrEnd] u [] v js.length := goes_root hroot
  obtain ⟨fuel, cursor', parsed, hfuel, hcount, hframes⟩ := hgoes (text.length + 1) cursor ⟨0, none⟩ (by omega)
  have hbracket : rejectIf (root.kind ≠ .leftBracket) (invalidJson line root.start) = .ok () :=
    rejectIf_of_not (not_not.2 (Eq.symm hkind))
  have hclosed : parseFrames line (emit text).length fuel [] parsed ⟨cursor', v⟩ = .ok (parsed, ⟨cursor', v⟩) := by
    cases fuel <;> rfl
  refine ⟨parsed, cursor', hcount.trans (iterate_bump _), ?_, ?_⟩
  · intro lexer hend
    unfold parseArray
    rw [hopen, Exec.ok_bind]
    dsimp only
    rw [hbracket, Exec.ok_bind, hframes, hclosed, Exec.ok_bind]
    dsimp only
    rw [hend, Exec.ok_bind]
  · intro parsed' h
    unfold parseArray at h
    rw [hopen, Exec.ok_bind] at h
    dsimp only at h
    rw [hbracket, Exec.ok_bind, hframes, hclosed, Exec.ok_bind] at h
    obtain ⟨⟨trailing, lexer⟩, hend, h⟩ := Exec.bind_eq_ok.1 h
    cases trailing with
    | some trailing => cases h
    | none => exact ⟨lexer, hend⟩

theorem parseArray_complete {text : List Char} {js : List Json} (h : Text isJsonWhitespace text (.array js)) :
    ∃ parsed, parseArray line text = .ok parsed ∧ parsed.valueCount = min js.length usizeMax := by
  obtain ⟨u, v, hspace, hvalue, hbehind⟩ := h.of_element
  obtain ⟨u, rfl, hroot⟩ := hvalue.of_array
  obtain ⟨parsed, cursor, hcount, haccept, _⟩ := @parseArray_root line _ _ _ _ hspace hroot
  obtain ⟨lexer, hend⟩ := @nextToken_none line _ hbehind cursor
  exact ⟨parsed, haccept lexer hend, hcount⟩

theorem parseArray_trailing {text more : List Char} {parsed parsed' : ParsedJsonArray} (h : parseArray line text = .ok parsed)
    (hmore : parseArray line (text ++ more) = .ok parsed') : ∀ c ∈ more, isJsonWhitespace c = true := by
  obtain ⟨js, htext⟩ := parseArray_sound h
  obtain ⟨u, v, hspace, hvalue, hbehind⟩ := htext.of_element
  obtain ⟨u, rfl, hroot⟩ := hvalue.of_array
  have hroot' : js = [] ∧ Many isJsonWhitespace (u ++ more) (']' :: (v ++ more)) ∨
      Derives isJsonWhitespace .elements (u ++ more) (.array js) (']' :: (v ++ more)) :=
    hroot.imp (And.imp_right fun hmany => hmany.append more) fun helements => helements.append more
  obtain ⟨_, cursor, _, _, hends⟩ := @parseArray_root line _ _ _ _ (hspace.append more) hroot'
  obtain ⟨lexer, hend⟩ := hends _ hmore
  obtain ⟨t, hmany, hnone⟩ := nextToken_sound hend
  obtain rfl : t = [] := hnone
  obtain ⟨s, hs, hall⟩ := hmany.suffix
  rw [List.append_nil] at hs
  exact fun c hc => hall c (hs ▸ List.mem_append_right v hc)

/-! ## No line makes the parser panic -/

theorem lexStringFrom_ne_panic (cursor : Nat) (t : List Char) : lexStringFrom line cursor t ≠ .panic := by
  fun_induction lexStringFrom line cursor t with
  | case2 => exact Exec.ok_ne_panic _
  | case4 _ _ _ _ _ ih | case10 _ _ _ _ _ _ ih => exact ih
  | case5 _ _ _ _ _ _ _ _ _ ih => exact ih
  | _ => exact Exec.error_ne_panic _

theorem lexDigits_ne_panic (lexer : JsonLexer) : lexDigits line lexer ≠ .panic := by
  unfold lexDigits
  split
  · exact Exec.ok_ne_panic _
  · exact Exec.error_ne_panic _

theorem lexNumber_ne_panic (lexer : JsonLexer) : lexNumber line lexer ≠ .panic := by
  have hinteger (lexer : JsonLexer) : lexInteger line lexer ≠ .panic := by
    unfold lexInteger
    repeat' split
    all_goals first | exact Exec.ok_ne_panic _ | exact Exec.error_ne_panic _
  have hfraction (lexer : JsonLexer) : lexFraction line lexer ≠ .panic := by
    unfold lexFraction
    repeat' split
    · exact bind_ne_panic (lexDigits_ne_panic _) fun _ _ => Exec.ok_ne_panic _
    all_goals exact Exec.ok_ne_panic _
  have hexponent (lexer : JsonLexer) : lexExponent line lexer ≠ .panic := by
    unfold lexExponent
    repeat' split
    · exact bind_ne_panic (lexDigits_ne_panic _) fun _ _ => Exec.ok_ne_panic _
    all_goals exact Exec.ok_ne_panic _
  exact bind_ne_panic (hinteger _) fun _ _ => bind_ne_panic (hfraction _) fun _ _ =>
    bind_ne_panic (hexponent _) fun _ _ => Exec.ok_ne_panic _

theorem nextToken_ne_panic (lexer : JsonLexer) : JsonLexer.nextToken line lexer ≠ .panic := by
  have hkeyword (keyword : String) (kind : JsonTokenKind) (lexer : JsonLexer) :
      lexKeyword line keyword kind lexer ≠ .panic := by
    unfold lexKeyword
    split
    · exact Exec.ok_ne_panic _
    · exact Exec.error_ne_panic _
  have htoken (c : Char) (lexer : JsonLexer) : lexToken line c lexer ≠ .panic := by
    unfold lexToken
    split
    · exact Exec.ok_ne_panic _
    · repeat' split
      · exact bind_ne_panic (lexStringFrom_ne_panic _ _) fun _ _ => Exec.ok_ne_panic _
      · exact lexNumber_ne_panic _
      · exact hkeyword _ _ _
      · exact hkeyword _ _ _
      · exact hkeyword _ _ _
      · exact Exec.error_ne_panic _
  unfold JsonLexer.nextToken
  dsimp only
  split
  · exact Exec.ok_ne_panic _
  · exact bind_ne_panic (htoken _ _) fun _ _ => Exec.ok_ne_panic _

theorem stepFrame_ne_panic (token : JsonToken) (frame : JsonFrame) (outer : List JsonFrame) (parsed : ParsedJsonArray) :
    stepFrame line token frame outer parsed ≠ .panic := by
  have hbegin : beginJsonValue line token frame outer ≠ .panic := by
    unfold beginJsonValue
    split
    all_goals first | exact Exec.ok_ne_panic _ | exact Exec.error_ne_panic _
  unfold stepFrame
  dsimp only
  repeat' split
  all_goals first
    | exact Exec.ok_ne_panic _
    | exact Exec.error_ne_panic _
    | exact bind_ne_panic hbegin fun _ _ => Exec.ok_ne_panic _

theorem parseFrames_ne_panic {lineLen fuel : Nat} {frames : List JsonFrame} {parsed : ParsedJsonArray}
    {lexer : JsonLexer} (hfuel : lexer.rest.length < fuel) :
    parseFrames line lineLen fuel frames parsed lexer ≠ .panic := by
  induction fuel generalizing frames parsed lexer with
  | zero => exact absurd hfuel (Nat.not_lt_zero _)
  | succ fuel ih =>
    cases frames with
    | nil => exact Exec.ok_ne_panic _
    | cons frame outer =>
      rw [parseFrames]
      refine bind_ne_panic (nextToken_ne_panic _) ?_
      intro ⟨token, lexer'⟩ htoken
      cases token with
      | none => exact Exec.error_ne_panic _
      | some token =>
        refine bind_ne_panic (stepFrame_ne_panic _ _ _ _) fun ⟨frames', parsed'⟩ _ => ih ?_
        obtain ⟨t, hspace, hlexeme⟩ := nextToken_sound htoken
        have hshorter : lexer'.rest.length < t.length := lexeme_length hlexeme
        have hle := hspace.length_le
        omega

theorem parseArray_ne_panic (text : List Char) : parseArray line text ≠ .panic := by
  unfold parseArray
  refine bind_ne_panic (nextToken_ne_panic _) ?_
  intro ⟨root, lexer⟩ hroot
  cases root with
  | none => exact Exec.error_ne_panic _
  | some root =>
    refine bind_ne_panic (rejectIf_ne_panic _ _) fun _ _ => bind_ne_panic (parseFrames_ne_panic ?_) ?_
    · obtain ⟨t, hspace, hlexeme⟩ := nextToken_sound hroot
      have hshorter : lexer.rest.length < t.length := lexeme_length hlexeme
      have hle : t.length ≤ text.length := hspace.length_le
      omega
    · intro ⟨parsed, lexer'⟩ _
      refine bind_ne_panic (nextToken_ne_panic _) ?_
      intro ⟨trailing, _⟩ _
      cases trailing with
      | some trailing => exact Exec.error_ne_panic _
      | none => exact Exec.ok_ne_panic _

end

/-! ## Lines of one integer -/

section
variable {line : Nat} {p : Char → Bool}

open JsonLexer

theorem skip_position (lexer : JsonLexer) :
    (lexer.skip p).cursor + (lexer.skip p).rest.length = lexer.cursor + lexer.rest.length := by
  have hlength := congrArg List.length (List.takeWhile_append_dropWhile (p := p) (l := lexer.rest))
  rw [List.length_append] at hlength
  show lexer.cursor + (lexer.rest.takeWhile p).length + (lexer.rest.dropWhile p).length = _
  omega

theorem lexInteger_position {lexer behind : JsonLexer} (h : lexInteger line lexer = .ok behind) :
    behind.cursor + behind.rest.length = lexer.cursor + lexer.rest.length := by
  obtain ⟨cursor, rest⟩ := lexer
  cases rest with
  | nil => cases h
  | cons c rest =>
    unfold lexInteger at h
    dsimp only at h
    split at h
    · split at h
      · cases h
      · obtain rfl := Exec.ok.inj h
        exact (Nat.add_right_comm ..).trans (Nat.add_assoc ..)
    · split at h
      · obtain rfl := Exec.ok.inj h
        rw [skip_position]
        exact (Nat.add_right_comm ..).trans (Nat.add_assoc ..)
      · cases h

/-- A number without fraction and exponent is an integer token that spans its text. -/
theorem lexNumber_integer {cursor : Nat} {t r : List Char} (h : Integer (lexSign ⟨cursor, t⟩).rest r) (hr : JsonGrammar.Ends r) :
    ∃ stop, lexNumber line ⟨cursor, t⟩ = .ok (⟨.number true, cursor, stop⟩, ⟨stop, r⟩) ∧
      stop + r.length = cursor + t.length := by
  obtain ⟨stop, hinteger⟩ : ∃ stop, lexInteger line (lexSign ⟨cursor, t⟩) = .ok ⟨stop, r⟩ :=
    lexInteger_complete h (ends_digit hr)
  have hsign : (lexSign ⟨cursor, t⟩).cursor + (lexSign ⟨cursor, t⟩).rest.length = cursor + t.length := by
    cases t with
    | nil => rfl
    | cons c t =>
      unfold lexSign
      dsimp only
      split
      · exact (Nat.add_right_comm ..).trans (Nat.add_assoc ..)
      · rfl
  have hposition := lexInteger_position hinteger
  refine ⟨stop, ?_, hposition.trans hsign⟩
  have hfraction : lexFraction line ⟨stop, r⟩ = .ok (true, ⟨stop, r⟩) := by
    cases r with
    | nil => rfl
    | cons c r => exact if_neg (hr c rfl).2.1
  have hexponent : lexExponent line ⟨stop, r⟩ = .ok (true, ⟨stop, r⟩) := by
    cases r with
    | nil => rfl
    | cons e r =>
      have he : ¬ (e = 'e' ∨ e = 'E') := by simpa [isExponent] using (hr e rfl).2.2
      exact if_neg he
  rw [lexNumber, hinteger, Exec.ok_bind, hfraction, Exec.ok_bind, hexponent, Exec.ok_bind]
  rfl

theorem toDigits_integer (n : Nat) (r : List Char) : Integer (Nat.toDigits 10 n ++ r) r := by
  have hdigit : ∀ n < 10, isDigit n.digitChar = true ∧ (0 < n → n.digitChar ≠ '0') := by decide
  have hpositive : ∀ n, 0 < n → ∀ r, ∃ c t, Nat.toDigits 10 n ++ r = c :: t ∧ isDigit c = true ∧ c ≠ '0' ∧ Many isDigit t r := by
    intro n
    induction n using Nat.strongRecOn with
    | ind n ih =>
      intro hn r
      by_cases hlt : n < 10
      · rw [Nat.toDigits_of_lt_base hlt]
        exact ⟨n.digitChar, r, rfl, (hdigit n hlt).1, (hdigit n hlt).2 hn, .nil⟩
      · have hlast := (hdigit (n % 10) (Nat.mod_lt n (by decide))).1
        obtain ⟨c, t, heq, hc, hzero, hmany⟩ := ih (n / 10) (by omega) (by omega) ((n % 10).digitChar :: r)
        rw [Nat.toDigits_of_base_le (by decide) (Nat.not_lt.1 hlt), List.append_assoc, List.singleton_append]
        exact ⟨c, t, heq, hc, hzero, hmany.trans (.cons hlast .nil)⟩
  obtain rfl | hn := Nat.eq_zero_or_pos n
  · exact .zero
  · obtain ⟨c, t, heq, hc, hzero, hmany⟩ := hpositive n hn r
    exact heq ▸ .nonzero hc hzero hmany

def integerText (value : Int64) : List Char := (toString value.toInt).toList

theorem integerText_sign (value : Int64) (r : List Char) (cursor : Nat) :
    Integer (lexSign ⟨cursor, integerText value ++ r⟩).rest r := by
  rw [integerText, int_toList]
  split
  · exact toDigits_integer _ r
  · have hinteger := toDigits_integer value.toInt.natAbs r
    generalize Nat.toDigits 10 value.toInt.natAbs ++ r = t at hinteger
    cases hinteger with
    | zero => exact .zero
    | @nonzero c t _ hc hzero hmany =>
      have hminus : c ≠ '-' := by
        rintro rfl
        exact absurd hc (by decide)
      rw [lexSign]
      dsimp only
      rw [if_neg hminus]
      exact .nonzero hc hzero hmany

theorem integerText_chars {value : Int64} {c : Char} (h : c ∈ integerText value) : c = '-' ∨ isDigit c = true := by
  have hdigit {c : Char} {n : Nat} (h : c ∈ Nat.toDigits 10 n) : isDigit c = true := by
    have hdigit := toDigits_isDigit h
    simp only [Char.isDigit, ge_iff_le, Bool.and_eq_true, decide_eq_true_eq] at hdigit
    simp only [isDigit, Bool.and_eq_true, decide_eq_true_eq]
    exact hdigit
  rw [integerText, int_toList] at h
  split at h
  · obtain rfl | h := List.mem_cons.1 h
    · exact .inl rfl
    · exact .inr (hdigit h)
  · exact .inr (hdigit h)

theorem skip_none {cursor : Nat} {c : Char} {t : List Char} (hc : p c = false) :
    skip p ⟨cursor, c :: t⟩ = ⟨cursor, c :: t⟩ := by
  have hneg : ¬ p c = true := Bool.eq_false_iff.1 hc
  rw [skip, List.takeWhile_cons_of_neg hneg, List.dropWhile_cons_of_neg hneg]
  rfl

theorem nextToken_integer (value : Int64) {r : List Char} (hr : JsonGrammar.Ends r) (cursor : Nat) :
    JsonLexer.nextToken line ⟨cursor, integerText value ++ r⟩ =
      .ok (some ⟨.number true, cursor, cursor + (integerText value).length⟩,
        ⟨cursor + (integerText value).length, r⟩) := by
  obtain ⟨stop, hnumber, hstop⟩ := @lexNumber_integer line cursor _ r (integerText_sign value r cursor) hr
  rw [List.length_append] at hstop
  obtain rfl : stop = cursor + (integerText value).length := by omega
  cases htext : integerText value with
  | nil =>
    have hinteger := integerText_sign value [] cursor
    rw [htext] at hinteger
    cases hinteger
  | cons c t =>
    have hc : c = '-' ∨ isDigit c = true := integerText_chars (htext ▸ List.mem_cons_self)
    obtain ⟨hpunctuation, hquote⟩ := punctuation_digit hc
    rw [htext] at hnumber
    rw [JsonLexer.nextToken, skipJsonWhitespace, List.cons_append, skip_none (whitespace_digit hc)]
    dsimp only
    rw [lexToken, hpunctuation]
    dsimp only
    rw [if_neg hquote, if_pos (show c = '-' ∨ isAsciiDigit c = true from hc)]
    exact congrArg (· >>= fun p => .ok (some p.1, p.2)) hnumber

theorem parseArray_integer (value : Int64) : parseArray line ('[' :: (integerText value ++ [']'])) =
    .ok ⟨1, some (.number 1 (1 + (integerText value).length) true)⟩ := by
  have hopen : JsonLexer.nextToken line ⟨0, '[' :: (integerText value ++ [']'])⟩ =
      .ok (some ⟨.leftBracket, 0, 1⟩, ⟨1, integerText value ++ [']']⟩) := rfl
  have hvalue := @nextToken_integer line value [']'] (ends_cons rfl (by decide) rfl) 1
  have hclose (cursor : Nat) : JsonLexer.nextToken line ⟨cursor, [']']⟩ =
      .ok (some ⟨.rightBracket, cursor, cursor + 1⟩, ⟨cursor + 1, []⟩) := rfl
  have hend (cursor : Nat) : JsonLexer.nextToken line ⟨cursor, []⟩ = .ok (none, ⟨cursor, []⟩) := rfl
  unfold parseArray
  rw [hopen, Exec.ok_bind]
  dsimp only
  rw [rejectIf_of_not (by simp), Exec.ok_bind, parseFrames, hvalue, Exec.ok_bind, List.length_cons]
  dsimp only [stepFrame]
  rw [if_neg (by simp), beginJsonValue]
  dsimp only
  rw [Exec.ok_bind, Exec.ok_bind, parseFrames, hclose, Exec.ok_bind]
  dsimp only [stepFrame, JsonFrame.afterValue]
  rw [if_neg (by simp), if_pos rfl, Exec.ok_bind]
  dsimp only
  rw [parseFrames, Exec.ok_bind]
  dsimp only
  rw [hend, Exec.ok_bind]
  rfl

theorem parseArray_null : parseArray line ['[', 'n', 'u', 'l', 'l', ']'] = .ok ⟨1, some .null⟩ := rfl

theorem takeBytes_ascii {s : List Char} (h : ∀ c ∈ s, c.utf8Size = 1) (r : List Char) :
    takeBytes s.length (s ++ r) = some s := by
  induction s with
  | nil => cases r <;> rfl
  | cons c s ih =>
    obtain ⟨hc, hs⟩ := List.forall_mem_cons.1 h
    rw [List.length_cons, List.cons_append, takeBytes, hc, if_pos (Nat.le_add_left ..), Nat.add_sub_cancel, ih hs]
    rfl

theorem byteSlice_integer (value : Int64) :
    byteSlice ('[' :: (integerText value ++ [']'])) 1 (1 + (integerText value).length) = some (integerText value) := by
  have hascii : ∀ c ∈ integerText value, c.utf8Size = 1 := by
    intro c hc
    obtain rfl | hdigit := integerText_chars hc
    · rfl
    · simp only [isDigit, Bool.and_eq_true, decide_eq_true_eq] at hdigit
      have hle : c.val ≤ 0x7f := Nat.le_trans hdigit.2 (by decide)
      rw [Char.utf8Size]
      exact if_pos hle
  have hdrop : dropBytes 1 ('[' :: (integerText value ++ [']'])) = some (integerText value ++ [']']) := by
    cases integerText value <;> rfl
  rw [byteSlice, if_pos (Nat.le_add_right ..), hdrop, Option.bind_some, Nat.add_sub_cancel_left]
  exact takeBytes_ascii hascii _

end

/-! ## Round trip -/

def jsonElementText (float : FloatText) (element : Value × Nat) : List Char :=
  (if element.2 > 0 then [','] else []) ++ jsonValueText float element.1

/-- The line of a row, without its line feed. -/
def jsonArrayText (float : FloatText) (row : List Value) : List Char :=
  '[' :: (row.zipIdx.flatMap (jsonElementText float) ++ [']'])

def jsonCompactEachRowText (float : FloatText) (result : QueryResult) : List Char :=
  result.rows.flatMap fun row => jsonArrayText float row ++ ['\n']

section
variable {σ ε : Type} (sink : Sink σ ε) (float : FloatText)

theorem writeJsonElement_writes (element : Value × Nat) :
    sink.Writes (writeJsonElement sink float element) (emit (jsonElementText float element)) := by
  rw [writeJsonElement, jsonElementText]
  by_cases hfirst : element.2 > 0
  · rw [if_pos hfirst, if_pos hfirst, emit_append]
    exact (Sink.Writes.chunk _).bind (writeJsonValue_writes sink float element.1)
  · rw [if_neg hfirst, if_neg hfirst]
    exact writeJsonValue_writes sink float element.1

theorem writeJsonArray_writes (row : List Value) :
    sink.Writes (writeJsonArray sink float row) (emit ('[' :: row.zipIdx.flatMap (jsonElementText float))) := by
  refine ((Sink.Writes.chunk _).bind (Sink.Writes.forM fun element _ => writeJsonElement_writes sink float element)).congr ?_
  rw [← emit_flatMap, ← List.singleton_append, emit_append]
  rfl

theorem writeJsonCompactEachRow_writes (result : QueryResult) :
    sink.Writes (writeJsonCompactEachRow sink float result) (emit (jsonCompactEachRowText float result)) := by
  rw [jsonCompactEachRowText, emit_flatMap]
  apply Sink.Writes.forM
  intro row _
  refine ((writeJsonArray_writes sink float row).bind (.chunk _)).congr ?_
  rw [jsonArrayText, List.cons_append, List.append_assoc, ← List.cons_append, emit_append]
  rfl

end

section
variable {float : FloatText} {d : Declared} {t : Table}

theorem jsonArrayText_integer (value : Int64) :
    jsonArrayText float [.int64 value] = '[' :: (integerText value ++ [']']) := by
  rw [jsonArrayText, List.zipIdx_cons, List.zipIdx_nil, List.flatMap_singleton]
  rfl

theorem parseValue_write (h : Table.Consistent [d] t) (hint : d.1.dataType = .int64) {value : Value}
    (hadmits : Column.Admits d.kind value) (line : Nat) :
    '\n' ∉ jsonArrayText float [value] ∧ ∃ first, parseArray line (jsonArrayText float [value]) = .ok ⟨1, some first⟩ ∧
      parseValue float t (jsonArrayText float [value]) first .int64 line = .ok value := by
  cases value with
  | int64 value =>
    rw [jsonArrayText_integer]
    refine ⟨?_, _, parseArray_integer value, ?_⟩
    · simp only [List.mem_cons, List.mem_append, List.not_mem_nil, or_false, not_or]
      refine ⟨by decide, fun hc => ?_, by decide⟩
      exact absurd (integerText_chars hc) (by decide)
    · rw [parseValue, byteSlice_integer, orPanic_some, Exec.ok_bind, parseInt64Value, integerText, parseInt64_toString]
      rfl
  | null dataType =>
    obtain ⟨rfl, hkind⟩ := hadmits
    have hline : jsonArrayText float [.null .int64] = ['[', 'n', 'u', 'l', 'l', ']'] := rfl
    rw [hline]
    refine ⟨by decide, _, parseArray_null, ?_⟩
    obtain ⟨column, hcolumn, hcolumnKind, _⟩ := h.column_of_declared (show [d][0]? = some d from rfl)
    have hnullable : column.isNullableInt64 = true := congrArg Prod.snd (hcolumnKind.trans hkind)
    rw [parseValue, hcolumn, Option.map_some, hnullable, orPanic_some, Exec.ok_bind, if_pos rfl]
  | _ =>
    have hwrong := hadmits.trans hint
    cases hwrong

theorem parseLines_write (h : Table.Consistent [d] t) (hint : d.1.dataType = .int64)
    {limits : JsonCompactEachRowIngestLimits} {values : List Value} (hvalues : ∀ value ∈ values, Column.Admits d.kind value)
    {offset rowCount valueCount : Nat} (hmaxRows : rowCount + values.length ≤ limits.maxRows)
    (hmaxValues : valueCount + values.length ≤ limits.maxValues) :
    parseLines float t limits .int64 offset rowCount valueCount
      (values.map fun value => jsonArrayText float [value] ++ ['\n']) = .ok values := by
  induction values generalizing offset rowCount valueCount with
  | nil => rfl
  | cons value values ih =>
    obtain ⟨hvalue, hvalues⟩ := List.forall_mem_cons.1 hvalues
    rw [List.length_cons] at hmaxRows hmaxValues
    obtain ⟨_, first, harray, hparse⟩ := @parseValue_write float _ _ h hint _ hvalue (saturatingAdd offset 1)
    have hnextRows := Tsv.saturatingAdd_le rowCount 1
    have hnextValues := Tsv.saturatingAdd_le valueCount 1
    rw [List.map_cons, parseLines]
    dsimp only
    rw [rejectIf_of_not (by omega), Exec.ok_bind, stripLast_append, harray, Exec.ok_bind]
    dsimp only
    rw [rejectIf_of_not (by omega), Exec.ok_bind, rejectIf_of_not (not_not.2 rfl), Exec.ok_bind, orPanic_some, Exec.ok_bind,
      hparse, Exec.ok_bind, ih hvalues (by omega) (by omega), Exec.ok_bind]

end

end JsonCompactEachRow

open Checked Words Delimited Exec JsonGrammar JsonCompactEachRow

/-- The rows are of one value each. -/
abbrev JsonCompactEachRowIngestLimits.Admits (limits : JsonCompactEachRowIngestLimits) (input : Bytes) (count : Nat) : Prop :=
  AdmitsInput limits.maxBytes limits.maxRows limits.maxValues input count 1

/-- **JSON lines round trip.** What is written for rows of one integer column is ingested as exactly these rows. -/
theorem ingestJsonCompactEachRow_write {float : FloatText} {d : Declared} {t : Table} (h : Table.Consistent [d] t)
    (hint : d.1.dataType = .int64) {result : QueryResult} (hrows : ∀ row ∈ result.rows, AdmitsRow [d] row)
    (hroom : Table.HasRoom t result.rows.length) {limits : JsonCompactEachRowIngestLimits}
    (hlimits : limits.Admits (emit (jsonCompactEachRowText float result)) result.rows.length) :
    AppendsRows (ingestJsonCompactEachRow float (emit (jsonCompactEachRowText float result)) limits) t result.rows := by
  obtain ⟨values, hvalues, hadmits⟩ : ∃ values : List Value, result.rows = values.map (fun value => [value]) ∧
      ∀ value ∈ values, Column.Admits d.kind value := by
    generalize result.rows = rows at hrows
    induction rows with
    | nil => exact ⟨[], rfl, List.forall_mem_nil _⟩
    | cons row rows ih =>
      obtain ⟨hrow, hrows⟩ := List.forall_mem_cons.1 hrows
      obtain ⟨values, rfl, hvalues⟩ := ih hrows
      cases hrow with
      | cons hvalue hnil =>
        cases hnil
        exact ⟨_ :: values, rfl, List.forall_mem_cons.2 ⟨hvalue, hvalues⟩⟩
  have hcount : values.length = result.rows.length := by rw [hvalues, List.length_map]
  have hschema : t.schema = [d.1] := h.schema
  have hfinite : ∀ row ∈ result.rows, Table.FiniteRow row := by
    intro row hrow x hx
    obtain ⟨value, hvalue, rfl⟩ := List.mem_map.1 (hvalues ▸ hrow)
    obtain rfl := List.mem_singleton.1 hx
    have hwrong := (hadmits _ hvalue).trans hint
    cases hwrong
  have hprepare := Table.prepareProjectedRows_range h hroom fun row hrow => ⟨hrows row hrow, hfinite row hrow⟩
  have hlines : splitInclusive '\n' (jsonCompactEachRowText float result) =
      values.map fun value => jsonArrayText float [value] ++ ['\n'] := by
    have hnewline : ∀ line ∈ values.map (fun value => jsonArrayText float [value]), '\n' ∉ line := by
      intro line hline
      obtain ⟨value, hvalue, rfl⟩ := List.mem_map.1 hline
      exact (parseValue_write h hint (hadmits value hvalue) 0).1
    have hsplit := splitInclusive_lines hnewline
    rw [List.flatMap_map, List.map_map] at hsplit
    rw [jsonCompactEachRowText, hvalues, List.flatMap_map]
    exact hsplit
  refine appendsRows_of_parse h hroom hrows ?_
  have htarget : validateTarget t = .ok d.1 := by
    rw [validateTarget, hschema]
    exact if_pos (.inl hint)
  have hmaxRows := hlimits.rows
  have hmaxValues := (Nat.mul_one _).symm.trans_le hlimits.values
  rw [parseRows, rejectIf_of_not (Nat.not_lt.2 hlimits.bytes), Exec.ok_bind, decodeInput_emit, Exec.ok_bind, htarget,
    Exec.ok_bind, hint, hlines, parseLines_write h hint hadmits (by omega) (by omega), Exec.ok_bind, ← hvalues]
  rw [hschema] at hprepare
  have hzero : t.prepareProjectedRows [0] result.rows = .ok ⟨result.rows, none⟩ := hprepare
  rw [hzero]
  rfl

/-- **JSON lines.** A line is accepted exactly when it is one array of the grammar, with as many values as the array
has elements: nothing but whitespace follows it, no comma stands before its closing bracket, and its quotes come in
pairs. What is written for rows of one integer column is ingested as exactly these rows, in their order. -/
theorem json_compact_each_row :
    (∀ (line : Nat) (text : List Char), (emit text).length ≤ usizeMax → ∀ count,
      (∃ parsed, parseArray line text = .ok parsed ∧ parsed.valueCount = count) ↔
        ∃ js, Text isJsonWhitespace text (.array js) ∧ js.length = count) ∧
    (∀ line text, parseArray line text ≠ .panic) ∧
    (∀ line text parsed, parseArray line text = .ok parsed →
      (∀ more parsed', parseArray line (text ++ more) = .ok parsed' → ∀ c ∈ more, isJsonWhitespace c = true) ∧
      (∀ s w w', text = s ++ ',' :: (w ++ ']' :: w') → (∀ c ∈ w, isJsonWhitespace c = true) →
        ∃ c ∈ w', isJsonWhitespace c = false) ∧
      Even (quotes text)) ∧
    ∀ (float : FloatText) (d : Declared) (t : Table), Table.Reachable [d] t → d.1.dataType = .int64 →
      ∀ result : QueryResult, (∀ row ∈ result.rows, AdmitsRow [d] row) → Table.HasRoom t result.rows.length →
        ∃ output, writeJsonCompactEachRow .vec float result [] = (some (.ok (), output) : Option (Except Unit Unit × Bytes)) ∧
          ∀ limits : JsonCompactEachRowIngestLimits, limits.Admits output result.rows.length →
            AppendsRows (ingestJsonCompactEachRow float output limits) t result.rows := by
  have hws : ∀ c, isJsonWhitespace c → isSpace c := by
    intro c hc
    rw [isSpace, Bool.or_eq_true]
    exact .inl hc
  refine ⟨?_, fun line text => parseArray_ne_panic text, ?_, ?_⟩
  · intro line text hfits count
    -- The elements of an array are characters of its text at least.
    have hlength {js : List Json} (h : Text isJsonWhitespace text (.array js)) : js.length ≤ usizeMax :=
      Nat.le_trans (Nat.le_trans h.length_le (length_le_emit text)) hfits
    constructor
    · rintro ⟨parsed, hparsed, rfl⟩
      obtain ⟨js, htext⟩ := parseArray_sound hparsed
      obtain ⟨parsed', hparsed', hcount⟩ := @parseArray_complete line _ _ htext
      obtain rfl := Exec.ok.inj (hparsed.symm.trans hparsed')
      exact ⟨js, htext, by rw [hcount, Nat.min_eq_left (hlength htext)]⟩
    · rintro ⟨js, htext, rfl⟩
      obtain ⟨parsed, hparsed, hcount⟩ := @parseArray_complete line _ _ htext
      exact ⟨parsed, hparsed, by rw [hcount, Nat.min_eq_left (hlength htext)]⟩
  · intro line text parsed hparsed
    obtain ⟨js, htext⟩ := parseArray_sound hparsed
    refine ⟨fun more parsed' hmore => parseArray_trailing hparsed hmore, ?_, ?_⟩
    · intro s w w' ht hw
      by_contra hnone
      refine Text.noTrailingComma hws htext ht hw ?_
      intro c hc
      by_contra hspace
      exact hnone ⟨c, hc, Bool.eq_false_iff.2 hspace⟩
    · obtain ⟨k, hk⟩ := htext.quotes hws
      exact ⟨k, by rw [hk, quotes]; omega⟩
  · intro float d t ht hint result hrows hroom
    have hwrites := (writeJsonCompactEachRow_writes (Sink.vec (ε := Unit)) float result).vec []
    rw [List.nil_append] at hwrites
    exact ⟨_, hwrites, fun limits hlimits =>
      ingestJsonCompactEachRow_write (Table.reachable_consistent ht) hint hrows hroom hlimits⟩

def levelsSample : Table :=
  ⟨"levels", [⟨"level", .int64⟩], [.nullableInt64 []], 0, 0, .default, 0, none, none⟩

def levelsResult : QueryResult := ⟨[⟨"level", .int64⟩], [[.int64 (-7)], [.null .int64], [.int64 0]]⟩

theorem json_compact_each_row_levels :
    (∃ js, Text isJsonWhitespace "[1, [\"\\u00e9]\"]]".toList (.array js) ∧ js.length = 2) ∧
      ∃ output, writeJsonCompactEachRow .vec noFloatText levelsResult [] =
          (some (.ok (), output) : Option (Except Unit Unit × Bytes)) ∧
        ∀ limits : JsonCompactEachRowIngestLimits, limits.Admits output 3 →
          AppendsRows (ingestJsonCompactEachRow noFloatText output limits) levelsSample levelsResult.rows := by
  obtain ⟨haccept, _, _, htrip⟩ := json_compact_each_row
  have hreachable : Table.Reachable [(⟨"level", .int64⟩, true)] levelsSample :=
    .withNullableInt64Values (show Table.withNullableInt64Values "levels" "level" [] .default = .ok levelsSample by
      decide +kernel)
  have hrows : ∀ row ∈ levelsResult.rows, AdmitsRow [(⟨"level", .int64⟩, true)] row :=
    List.forall_mem_cons.2 ⟨.cons rfl .nil, List.forall_mem_cons.2 ⟨.cons ⟨rfl, rfl⟩ .nil,
      List.forall_mem_singleton.2 (.cons rfl .nil)⟩⟩
  refine ⟨(haccept 1 _ (by decide +kernel) 2).1 ?_,
    htrip noFloatText _ levelsSample hreachable rfl levelsResult hrows ⟨by decide, by decide⟩⟩
  exact ⟨⟨2, some (.number 1 2 true)⟩, by decide +kernel, rfl⟩

end RustHouse.Batch
