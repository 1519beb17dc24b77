import Mathlib.Data.List.Basic

/-!
# The grammar of JSON

JSON texts over a set of whitespace characters. Every relation holds between a text
and what is left of it behind the part that it describes. A string stands for the codes
of its characters, an escape `\u` for its four digits as they are; a number stands for
its literal.
-/

namespace JsonGrammar

inductive Json where
  | null
  | bool (value : Bool)
  | number (literal : List Char)
  | string (codes : List Nat)
  | array (elements : List Json)
  | object (members : List (List Nat × Json))

/-! ## Characters -/

def isDigit (c : Char) : Bool := '0' ≤ c && c ≤ '9'

def isSign (c : Char) : Bool := c == '+' || c == '-'

def isExponent (c : Char) : Bool := c == 'e' || c == 'E'

def hexValue (c : Char) : Option Nat :=
  if '0' ≤ c ∧ c ≤ '9' then some (c.toNat - '0'.toNat)
  else if 'a' ≤ c ∧ c ≤ 'f' then some (c.toNat - 'a'.toNat + 10)
  else if 'A' ≤ c ∧ c ≤ 'F' then some (c.toNat - 'A'.toNat + 10)
  else none

def escapeCode (c : Char) : Option Nat :=
  if c = '"' then some 0x22
  else if c = '\\' then some 0x5c
  else if c = '/' then some 0x2f
  else if c = 'b' then some 0x08
  else if c = 'f' then some 0x0c
  else if c = 'n' then some 0x0a
  else if c = 'r' then some 0x0d
  else if c = 't' then some 0x09
  else none

/-- The characters that stand for themselves in a string. -/
def isUnescaped (c : Char) : Bool := 0x20 ≤ c.toNat && c != '"' && c != '\\'

/-- Characters of a class, any number of them. -/
inductive Many (p : Char → Bool) : List Char → List Char → Prop where
  | nil {r : List Char} : Many p r r
  | cons {c : Char} {t r : List Char} : p c = true → Many p t r → Many p (c :: t) r

/-! ## Numbers and strings -/

inductive Integer : List Char → List Char → Prop where
  | zero {r : List Char} : Integer ('0' :: r) r
  | nonzero {c : Char} {t r : List Char} : isDigit c = true → c ≠ '0' → Many isDigit t r → Integer (c :: t) r

inductive Fraction : List Char → List Char → Prop where
  | absent {r : List Char} : Fraction r r
  | digits {c : Char} {t r : List Char} : isDigit c = true → Many isDigit t r → Fraction ('.' :: c :: t) r

inductive Exponent : List Char → List Char → Prop where
  | absent {r : List Char} : Exponent r r
  | digits {e c : Char} {t r : List Char} : isExponent e = true → isDigit c = true → Many isDigit t r →
      Exponent (e :: c :: t) r
  | signed {e s c : Char} {t r : List Char} : isExponent e = true → isSign s = true → isDigit c = true →
      Many isDigit t r → Exponent (e :: s :: c :: t) r

inductive Number : List Char → List Char → Prop where
  | positive {t u v r : List Char} : Integer t u → Fraction u v → Exponent v r → Number t r
  | negative {t u v r : List Char} : Integer t u → Fraction u v → Exponent v r → Number ('-' :: t) r

inductive StringRest : List Char → List Nat → List Char → Prop where
  | close {r : List Char} : StringRest ('"' :: r) [] r
  | plain {c : Char} {t r : List Char} {codes : List Nat} : isUnescaped c = true → StringRest t codes r →
      StringRest (c :: t) (c.toNat :: codes) r
  | escape {c : Char} {code : Nat} {t r : List Char} {codes : List Nat} : escapeCode c = some code →
      StringRest t codes r → StringRest ('\\' :: c :: t) (code :: codes) r
  | unicode {a b c d : Char} {i j k l : Nat} {t r : List Char} {codes : List Nat} : hexValue a = some i →
      hexValue b = some j → hexValue c = some k → hexValue d = some l → StringRest t codes r →
      StringRest ('\\' :: 'u' :: a :: b :: c :: d :: t) ((((i * 16 + j) * 16 + k) * 16 + l) :: codes) r

/-! ## Texts -/

inductive Symbol where
  | value | element | elements | member | members
  deriving DecidableEq

/-- What a symbol derives; elements derive an array of them, members an object. -/
inductive Derives (ws : Char → Bool) : Symbol → List Char → Json → List Char → Prop where
  | null {r : List Char} : Derives ws .value ('n' :: 'u' :: 'l' :: 'l' :: r) .null r
  | true {r : List Char} : Derives ws .value ('t' :: 'r' :: 'u' :: 'e' :: r) (.bool true) r
  | false {r : List Char} : Derives ws .value ('f' :: 'a' :: 'l' :: 's' :: 'e' :: r) (.bool false) r
  | number {literal r : List Char} : Number (literal ++ r) r → Derives ws .value (literal ++ r) (.number literal) r
  | string {t r : List Char} {codes : List Nat} : StringRest t codes r → Derives ws .value ('"' :: t) (.string codes) r
  | emptyArray {t r : List Char} : Many ws t (']' :: r) → Derives ws .value ('[' :: t) (.array []) r
  | array {t r : List Char} {js : List Json} : Derives ws .elements t (.array js) (']' :: r) →
      Derives ws .value ('[' :: t) (.array js) r
  | emptyObject {t r : List Char} : Many ws t ('}' :: r) → Derives ws .value ('{' :: t) (.object []) r
  | object {t r : List Char} {ms : List (List Nat × Json)} : Derives ws .members t (.object ms) ('}' :: r) →
      Derives ws .value ('{' :: t) (.object ms) r
  | element {t u v r : List Char} {j : Json} : Many ws t u → Derives ws .value u j v → Many ws v r →
      Derives ws .element t j r
  | lastElement {t r : List Char} {j : Json} : Derives ws .element t j r → Derives ws .elements t (.array [j]) r
  | moreElements {t u r : List Char} {j : Json} {js : List Json} : Derives ws .element t j (',' :: u) →
      Derives ws .elements u (.array js) r → Derives ws .elements t (.array (j :: js)) r
  | member {t u v w r : List Char} {codes : List Nat} {j : Json} : Many ws t ('"' :: u) → StringRest u codes v →
      Many ws v (':' :: w) → Derives ws .element w j r → Derives ws .member t (.object [(codes, j)]) r
  | lastMember {t r : List Char} {m : List Nat × Json} : Derives ws .member t (.object [m]) r →
      Derives ws .members t (.object [m]) r
  | moreMembers {t u r : List Char} {m : List Nat × Json} {ms : List (List Nat × Json)} :
      Derives ws .member t (.object [m]) (',' :: u) → Derives ws .members u (.object ms) r →
      Derives ws .members t (.object (m :: ms)) r

def Text (ws : Char → Bool) (text : List Char) (json : Json) : Prop := Derives ws .element text json []

/-! ## Where a part ends -/

/-- A text that no number goes on into. -/
def Ends (text : List Char) : Prop := ∀ c ∈ text.head?, isDigit c = false ∧ c ≠ '.' ∧ isExponent c = false

theorem ends_cons {c : Char} {t : List Char} (hdigit : isDigit c = false) (hpoint : c ≠ '.')
    (hexponent : isExponent c = false) : Ends (c :: t) := by
  intro d hd
  obtain rfl := Option.some.inj hd
  exact ⟨hdigit, hpoint, hexponent⟩

section
variable {p : Char → Bool} {t r : List Char}

theorem Many.suffix (h : Many p t r) : ∃ s, t = s ++ r ∧ ∀ c ∈ s, p c = true := by
  induction h with
  | nil => exact ⟨[], rfl, List.forall_mem_nil _⟩
  | cons hc _ ih =>
    obtain ⟨s, rfl, hs⟩ := ih
    exact ⟨_ :: s, rfl, List.forall_mem_cons.2 ⟨hc, hs⟩⟩

theorem many_append {s : List Char} (hs : ∀ c ∈ s, p c = true) (r : List Char) : Many p (s ++ r) r := by
  induction s with
  | nil => exact .nil
  | cons c s ih =>
    obtain ⟨hc, hs⟩ := List.forall_mem_cons.1 hs
    exact .cons hc (ih hs)

theorem Many.trans {u : List Char} (h : Many p t u) (h' : Many p u r) : Many p t r := by
  induction h with
  | nil => exact h'
  | cons hc _ ih => exact .cons hc (ih h')

theorem many_dropWhile (t : List Char) : Many p t (t.dropWhile p) := by
  induction t with
  | nil => exact .nil
  | cons c t ih =>
    by_cases hc : p c = true
    · rw [List.dropWhile_cons_of_pos hc]
      exact .cons hc ih
    · rw [List.dropWhile_cons_of_neg hc]
      exact .nil

theorem Many.dropWhile_eq (h : Many p t r) (hr : ∀ c ∈ r.head?, p c = false) : t.dropWhile p = r := by
  induction h with
  | nil =>
    rename_i r
    cases r with
    | nil => rfl
    | cons c r => exact List.dropWhile_cons_of_neg (by rw [hr c rfl]; exact Bool.false_ne_true)
  | cons hc _ ih =>
    rw [List.dropWhile_cons_of_pos hc]
    exact ih hr

theorem Many.length_le (h : Many p t r) : r.length ≤ t.length := by
  induction h with
  | nil => exact Nat.le_refl _
  | cons _ _ ih => exact Nat.le_succ_of_le ih

theorem Integer.suffix (h : Integer t r) : ∃ s, t = s ++ r := by
  cases h with
  | zero => exact ⟨['0'], rfl⟩
  | nonzero _ _ hmany =>
    obtain ⟨s, rfl, _⟩ := hmany.suffix
    exact ⟨_ :: s, rfl⟩

theorem Fraction.suffix (h : Fraction t r) : ∃ s, t = s ++ r := by
  cases h with
  | absent => exact ⟨[], rfl⟩
  | digits _ hmany =>
    obtain ⟨s, rfl, _⟩ := hmany.suffix
    exact ⟨'.' :: _ :: s, rfl⟩

theorem Exponent.suffix (h : Exponent t r) : ∃ s, t = s ++ r := by
  cases h with
  | absent => exact ⟨[], rfl⟩
  | digits _ _ hmany =>
    obtain ⟨s, rfl, _⟩ := hmany.suffix
    exact ⟨_ :: _ :: s, rfl⟩
  | signed _ _ _ hmany =>
    obtain ⟨s, rfl, _⟩ := hmany.suffix
    exact ⟨_ :: _ :: _ :: s, rfl⟩

theorem Number.suffix (h : Number t r) : ∃ literal, t = literal ++ r := by
  have hparts {t u v : List Char} (hinteger : Integer t u) (hfraction : Fraction u v) (hexponent : Exponent v r) :
      ∃ s, t = s ++ r := by
    obtain ⟨x, rfl⟩ := hinteger.suffix
    obtain ⟨y, rfl⟩ := hfraction.suffix
    obtain ⟨z, rfl⟩ := hexponent.suffix
    exact ⟨x ++ (y ++ z), by rw [List.append_assoc, List.append_assoc]⟩
  cases h with
  | positive hinteger hfraction hexponent => exact hparts hinteger hfraction hexponent
  | negative hinteger hfraction hexponent =>
    obtain ⟨s, rfl⟩ := hparts hinteger hfraction hexponent
    exact ⟨'-' :: s, rfl⟩

/-! ## What a text begins with -/

variable {ws : Char → Bool}

theorem Derives.of_element {j : Json} (h : Derives ws .element t j r) :
    ∃ u v, Many ws t u ∧ Derives ws .value u j v ∧ Many ws v r := by
  cases h with
  | element hspace hvalue hbehind => exact ⟨_, _, hspace, hvalue, hbehind⟩

theorem Derives.of_array {js : List Json} (h : Derives ws .value t (.array js) r) :
    ∃ u, t = '[' :: u ∧ (js = [] ∧ Many ws u (']' :: r) ∨ Derives ws .elements u (.array js) (']' :: r)) := by
  generalize hj : Json.array js = j at h
  cases h with
  | emptyArray hmany => exact ⟨_, rfl, .inl ⟨Json.array.inj hj, hmany⟩⟩
  | array helements => exact ⟨_, rfl, .inr (Json.array.inj hj ▸ helements)⟩
  | _ => cases hj

/-! ## Texts that go on -/

theorem Many.append (h : Many p t r) (x : List Char) : Many p (t ++ x) (r ++ x) := by
  induction h with
  | nil => exact .nil
  | cons hc _ ih => exact .cons hc ih

theorem Integer.append (h : Integer t r) (x : List Char) : Integer (t ++ x) (r ++ x) := by
  cases h with
  | zero => exact .zero
  | nonzero hc hzero hmany => exact .nonzero hc hzero (hmany.append x)

theorem Number.append (h : Number t r) (x : List Char) : Number (t ++ x) (r ++ x) := by
  have hfraction {t u : List Char} (h : Fraction t u) : Fraction (t ++ x) (u ++ x) := by
    cases h with
    | absent => exact .absent
    | digits hc hmany => exact .digits hc (hmany.append x)
  have hexponent {t u : List Char} (h : Exponent t u) : Exponent (t ++ x) (u ++ x) := by
    cases h with
    | absent => exact .absent
    | digits he hc hmany => exact .digits he hc (hmany.append x)
    | signed he hs hc hmany => exact .signed he hs hc (hmany.append x)
  cases h with
  | positive h₁ h₂ h₃ => exact .positive (h₁.append x) (hfraction h₂) (hexponent h₃)
  | negative h₁ h₂ h₃ => exact .negative (h₁.append x) (hfraction h₂) (hexponent h₃)

theorem StringRest.append {codes : List Nat} (h : StringRest t codes r) (x : List Char) :
    StringRest (t ++ x) codes (r ++ x) := by
  induction h with
  | close => exact .close
  | plain hc _ ih => exact .plain hc ih
  | escape hcode _ ih => exact .escape hcode ih
  | unicode h₁ h₂ h₃ h₄ _ ih => exact .unicode h₁ h₂ h₃ h₄ ih

theorem Derives.append {symbol : Symbol} {j : Json} (h : Derives ws symbol t j r) (x : List Char) :
    Derives ws symbol (t ++ x) j (r ++ x) := by
  induction h with
  | null => exact .null
  | true => exact .true
  | false => exact .false
  | number hnumber =>
    rw [List.append_assoc]
    exact .number (List.append_assoc .. ▸ hnumber.append x)
  | string hcodes => exact .string (hcodes.append x)
  | emptyArray hmany => exact .emptyArray (hmany.append x)
  | array _ ih => exact .array ih
  | emptyObject hmany => exact .emptyObject (hmany.append x)
  | object _ ih => exact .object ih
  | element hspace _ hbehind ih => exact .element (hspace.append x) ih (hbehind.append x)
  | lastElement _ ih => exact .lastElement ih
  | moreElements _ _ ih ihs => exact .moreElements ih ihs
  | member hspace hcodes hcolon _ ih => exact .member (hspace.append x) (hcodes.append x) (hcolon.append x) ih
  | lastMember _ ih => exact .lastMember ih
  | moreMembers _ _ ih ihs => exact .moreMembers ih ihs

/-! ## Lengths -/

theorem Number.length_lt (h : Number t r) : r.length < t.length := by
  have hparts {t u v : List Char} (hinteger : Integer t u) (hfraction : Fraction u v) (hexponent : Exponent v r) :
      r.length < t.length := by
    obtain ⟨_, rfl⟩ := hexponent.suffix
    obtain ⟨_, rfl⟩ := hfraction.suffix
    cases hinteger with
    | zero =>
      simp only [List.length_cons, List.length_append]
      omega
    | nonzero _ _ hmany =>
      have hle := hmany.length_le
      simp only [List.length_cons, List.length_append] at *
      omega
  cases h with
  | positive h₁ h₂ h₃ => exact hparts h₁ h₂ h₃
  | negative h₁ h₂ h₃ => exact Nat.lt_succ_of_lt (hparts h₁ h₂ h₃)

theorem StringRest.length_lt {codes : List Nat} (h : StringRest t codes r) : r.length < t.length := by
  induction h <;> simp only [List.length_cons] at * <;> omega

/-- How many characters a symbol takes at least. -/
def Symbol.weight : Symbol → Json → Nat
  | .elements, .array js => js.length
  | .elements, _ | .members, _ => 0
  | _, _ => 1

theorem Derives.length_le {symbol : Symbol} {j : Json} (h : Derives ws symbol t j r) :
    r.length + symbol.weight j ≤ t.length := by
  induction h with
  | number hnumber => exact hnumber.length_lt
  | string hcodes => exact Nat.succ_le_succ (Nat.le_of_lt hcodes.length_lt)
  | emptyArray hmany | emptyObject hmany =>
    have hle := hmany.length_le
    simp only [Symbol.weight, List.length_cons] at *
    omega
  | element hspace _ hbehind ih =>
    have hle := hspace.length_le
    have hle' := hbehind.length_le
    simp only [Symbol.weight] at *
    omega
  | member hspace hcodes hcolon _ ih =>
    have hle := hspace.length_le
    have hlt := hcodes.length_lt
    have hle' := hcolon.length_le
    simp only [Symbol.weight, List.length_cons] at *
    omega
  | lastElement _ ih => exact ih
  | lastMember _ ih => exact Nat.le_trans (Nat.le_add_right ..) ih
  | _ =>
    simp only [Symbol.weight, List.length_cons] at *
    omega

theorem Text.length_le {js : List Json} (h : Text ws t (.array js)) : js.length ≤ t.length := by
  obtain ⟨u, v, hspace, hvalue, _⟩ := h.of_element
  obtain ⟨u, rfl, ⟨rfl, _⟩ | helements⟩ := hvalue.of_array
  · exact Nat.zero_le _
  · have hle := hspace.length_le
    have hle' := helements.length_le
    simp only [Symbol.weight, List.length_cons] at *
    omega

/-! ## Quotes and commas -/

/-- How many quotes a text has that are behind no backslash. -/
def quotes : List Char → Nat
  | [] => 0
  | [c] => if c = '"' then 1 else 0
  | c :: d :: t => if c = '\\' then quotes t else (if c = '"' then 1 else 0) + quotes (d :: t)

theorem quotes_escape (c : Char) (t : List Char) : quotes ('\\' :: c :: t) = quotes t := rfl

theorem quotes_quote (t : List Char) : quotes ('"' :: t) = quotes t + 1 := by
  cases t with
  | nil => rfl
  | cons c t =>
    rw [quotes, if_neg (by decide), if_pos rfl]
    exact Nat.add_comm ..

theorem quotes_plain {c : Char} (hquote : c ≠ '"') (hslash : c ≠ '\\') (t : List Char) : quotes (c :: t) = quotes t := by
  cases t with
  | nil => exact if_neg hquote
  | cons d t =>
    rw [quotes, if_neg hslash, if_neg hquote]
    exact Nat.zero_add _

theorem Many.quotes (h : Many p t r) (hp : ∀ c, p c = true → c ≠ '"' ∧ c ≠ '\\') : quotes t = quotes r := by
  induction h with
  | nil => rfl
  | cons hc _ ih =>
    obtain ⟨hquote, hslash⟩ := hp _ hc
    rw [quotes_plain hquote hslash, ih]

theorem digit_plain (c : Char) (h : isDigit c = true) : c ≠ '"' ∧ c ≠ '\\' := by
  constructor
  all_goals
    rintro rfl
    exact absurd h (by decide)

theorem Number.quotes (h : Number t r) : quotes t = quotes r := by
  have hdigits {c : Char} {t r : List Char} (hc : isDigit c = true) (h : Many isDigit t r) :
      JsonGrammar.quotes (c :: t) = JsonGrammar.quotes r := by
    rw [quotes_plain (digit_plain c hc).1 (digit_plain c hc).2]
    exact h.quotes digit_plain
  have hinteger {t u : List Char} (h : Integer t u) : JsonGrammar.quotes t = JsonGrammar.quotes u := by
    cases h with
    | zero => exact quotes_plain (by decide) (by decide) _
    | nonzero hc _ hmany => exact hdigits hc hmany
  have hfraction {t u : List Char} (h : Fraction t u) : JsonGrammar.quotes t = JsonGrammar.quotes u := by
    cases h with
    | absent => rfl
    | digits hc hmany => exact (quotes_plain (by decide) (by decide) _).trans (hdigits hc hmany)
  have hexponent {t u : List Char} (h : Exponent t u) : JsonGrammar.quotes t = JsonGrammar.quotes u := by
    have hmark {e : Char} (he : isExponent e = true) : e ≠ '"' ∧ e ≠ '\\' := by
      constructor
      all_goals
        rintro rfl
        exact absurd he (by decide)
    have hsign {s : Char} (hs : isSign s = true) : s ≠ '"' ∧ s ≠ '\\' := by
      constructor
      all_goals
        rintro rfl
        exact absurd hs (by decide)
    cases h with
    | absent => rfl
    | digits he hc hmany => exact (quotes_plain (hmark he).1 (hmark he).2 _).trans (hdigits hc hmany)
    | signed he hs hc hmany =>
      rw [quotes_plain (hmark he).1 (hmark he).2, quotes_plain (hsign hs).1 (hsign hs).2]
      exact hdigits hc hmany
  cases h with
  | positive h₁ h₂ h₃ => exact ((hinteger h₁).trans (hfraction h₂)).trans (hexponent h₃)
  | negative h₁ h₂ h₃ =>
    rw [quotes_plain (by decide) (by decide)]
    exact ((hinteger h₁).trans (hfraction h₂)).trans (hexponent h₃)

theorem hex_plain {c : Char} {n : Nat} (h : hexValue c = some n) : c ≠ '"' ∧ c ≠ '\\' := by
  constructor
  all_goals
    rintro rfl
    cases h

theorem StringRest.quotes {codes : List Nat} (h : StringRest t codes r) : quotes t = quotes r + 1 := by
  induction h with
  | close => exact quotes_quote _
  | plain hc _ ih =>
    simp only [isUnescaped, Bool.and_eq_true, bne_iff_ne, ne_eq] at hc
    rw [quotes_plain hc.1.2 hc.2, ih]
  | escape _ _ ih => exact (quotes_escape ..).trans ih
  | unicode ha hb hc hd _ ih =>
    rw [quotes_escape, quotes_plain (hex_plain ha).1 (hex_plain ha).2, quotes_plain (hex_plain hb).1 (hex_plain hb).2,
      quotes_plain (hex_plain hc).1 (hex_plain hc).2, quotes_plain (hex_plain hd).1 (hex_plain hd).2, ih]

/-- The four characters of whitespace. -/
def isSpace (c : Char) : Bool := c == ' ' || c == '\t' || c == '\r' || c == '\n'

section
variable (hws : ∀ c, ws c → isSpace c)
include hws

theorem space_ne {c d : Char} (hc : ws c = true) (hd : isSpace d = false) : c ≠ d := by
  rintro rfl
  rw [hws c hc] at hd
  cases hd

theorem Derives.quotes {symbol : Symbol} {j : Json} (h : Derives ws symbol t j r) : ∃ k, quotes t = quotes r + 2 * k := by
  have hspace : ∀ c, ws c → c ≠ '"' ∧ c ≠ '\\' := fun c hc => ⟨space_ne hws hc rfl, space_ne hws hc rfl⟩
  induction h with
  | null => exact ⟨0, by simp only [quotes_plain, ne_eq, Char.reduceEq, not_false_eq_true]; rfl⟩
  | true => exact ⟨0, by simp only [quotes_plain, ne_eq, Char.reduceEq, not_false_eq_true]; rfl⟩
  | false => exact ⟨0, by simp only [quotes_plain, ne_eq, Char.reduceEq, not_false_eq_true]; rfl⟩
  | number hnumber => exact ⟨0, hnumber.quotes⟩
  | string hcodes => exact ⟨1, by rw [quotes_quote, hcodes.quotes]⟩
  | emptyArray hmany | emptyObject hmany =>
    refine ⟨0, ?_⟩
    rw [quotes_plain (by decide) (by decide), hmany.quotes hspace]
    exact quotes_plain (by decide) (by decide) _
  | array _ ih | object _ ih =>
    obtain ⟨k, hk⟩ := ih
    refine ⟨k, ?_⟩
    rw [quotes_plain (by decide) (by decide), hk]
    rw [quotes_plain (by decide) (by decide)]
  | element hbefore _ hbehind ih =>
    obtain ⟨k, hk⟩ := ih
    exact ⟨k, by rw [hbefore.quotes hspace, hk, hbehind.quotes hspace]⟩
  | lastElement _ ih | lastMember _ ih => exact ih
  | moreElements _ _ ih ihs | moreMembers _ _ ih ihs =>
    obtain ⟨k, hk⟩ := ih
    obtain ⟨k', hk'⟩ := ihs
    rw [quotes_plain (by decide) (by decide)] at hk
    exact ⟨k + k', by omega⟩
  | member hbefore hcodes hcolon _ ih =>
    obtain ⟨k, hk⟩ := ih
    refine ⟨k + 1, ?_⟩
    rw [hbefore.quotes hspace, quotes_quote, hcodes.quotes, hcolon.quotes hspace, quotes_plain (by decide) (by decide), hk]
    omega

end

/-- The last character before whitespace and `r` is no comma. -/
def EndsNoComma (ws : Char → Bool) (t r : List Char) : Prop :=
  ∃ s c w, t = s ++ c :: (w ++ r) ∧ (∀ d ∈ w, ws d) ∧ c ≠ ',' ∧ ws c = false

theorem EndsNoComma.behind {u : List Char} (h : EndsNoComma ws u r) (x : List Char) : EndsNoComma ws (x ++ u) r := by
  obtain ⟨s, c, w, rfl, hw, hcomma, hc⟩ := h
  exact ⟨x ++ s, c, w, (List.append_assoc ..).symm, hw, hcomma, hc⟩

theorem EndsNoComma.many {u : List Char} (h : EndsNoComma ws t u) (hmany : Many ws u r) : EndsNoComma ws t r := by
  obtain ⟨s, c, w, rfl, hw, hcomma, hc⟩ := h
  obtain ⟨x, rfl, hx⟩ := hmany.suffix
  refine ⟨s, c, w ++ x, by rw [List.append_assoc], ?_, hcomma, hc⟩
  intro d hd
  obtain hd | hd := List.mem_append.1 hd
  · exact hw d hd
  · exact hx d hd

theorem StringRest.last {codes : List Nat} (h : StringRest t codes r) : ∃ s, t = s ++ '"' :: r := by
  induction h with
  | close => exact ⟨[], rfl⟩
  | plain _ _ ih =>
    obtain ⟨s, rfl⟩ := ih
    exact ⟨_ :: s, rfl⟩
  | escape _ _ ih =>
    obtain ⟨s, rfl⟩ := ih
    exact ⟨_ :: _ :: s, rfl⟩
  | unicode _ _ _ _ _ ih =>
    obtain ⟨s, rfl⟩ := ih
    exact ⟨_ :: _ :: _ :: _ :: _ :: _ :: s, rfl⟩

theorem Many.last {c : Char} (hc : p c = true) (h : Many p t r) : ∃ s d, c :: t = s ++ d :: r ∧ p d = true := by
  induction h generalizing c with
  | nil => exact ⟨[], c, rfl, hc⟩
  | cons hd _ ih =>
    obtain ⟨s, e, heq, he⟩ := ih hd
    exact ⟨c :: s, e, congrArg (c :: ·) heq, he⟩

theorem Number.last (h : Number t r) : ∃ s d, t = s ++ d :: r ∧ isDigit d = true := by
  have hbehind {t u : List Char} (x : List Char) (h : ∃ s d, u = s ++ d :: r ∧ isDigit d = true) (hx : t = x ++ u) :
      ∃ s d, t = s ++ d :: r ∧ isDigit d = true := by
    obtain ⟨s, d, rfl, hd⟩ := h
    exact ⟨x ++ s, d, by rw [hx, List.append_assoc], hd⟩
  have hparts {t u v : List Char} (hinteger : Integer t u) (hfraction : Fraction u v) (hexponent : Exponent v r) :
      ∃ s d, t = s ++ d :: r ∧ isDigit d = true := by
    obtain ⟨x, rfl⟩ := hinteger.suffix
    obtain ⟨y, rfl⟩ := hfraction.suffix
    cases hexponent with
    | @digits e _ _ _ _ hc hmany => exact hbehind (x ++ (y ++ [e])) (hmany.last hc) (by simp)
    | @signed e sign _ _ _ _ _ hc hmany => exact hbehind (x ++ (y ++ [e, sign])) (hmany.last hc) (by simp)
    | absent =>
      generalize hu : y ++ r = u at *
      cases hfraction with
      | digits hc hmany => exact hbehind (x ++ ['.']) (hmany.last hc) (by simp)
      | absent =>
        generalize ht : x ++ r = t at *
        cases hinteger with
        | zero => exact ⟨[], '0', rfl, rfl⟩
        | nonzero hc _ hmany => exact hmany.last hc
  cases h with
  | positive hinteger hfraction hexponent => exact hparts hinteger hfraction hexponent
  | negative hinteger hfraction hexponent => exact hbehind ['-'] (hparts hinteger hfraction hexponent) rfl

section
variable (hws : ∀ c, ws c → isSpace c)
include hws

theorem Derives.last {symbol : Symbol} {j : Json} (h : Derives ws symbol t j r) : EndsNoComma ws t r := by
  have hmark (s : List Char) {c : Char} {t r : List Char} (ht : t = s ++ c :: r) (hc : isSpace c = .false)
      (hcomma : c ≠ ',') : EndsNoComma ws t r :=
    ⟨s, c, [], ht, List.forall_mem_nil _, hcomma, Bool.eq_false_iff.2 fun hspace => space_ne hws hspace hc rfl⟩
  induction h with
  | null => exact hmark ['n', 'u', 'l'] rfl rfl (by decide)
  | true => exact hmark ['t', 'r', 'u'] rfl rfl (by decide)
  | false => exact hmark ['f', 'a', 'l', 's'] rfl rfl (by decide)
  | number hnumber =>
    obtain ⟨s, d, hlast, hd⟩ := hnumber.last
    refine hmark s hlast ?_ ?_
    · by_contra hspace
      simp only [isSpace, Bool.not_eq_false, Bool.or_eq_true, beq_iff_eq] at hspace
      obtain ((rfl | rfl) | rfl) | rfl := hspace <;> exact absurd hd (by decide)
    · rintro rfl
      exact absurd hd (by decide)
  | string hcodes =>
    obtain ⟨s, rfl⟩ := hcodes.last
    exact hmark ('"' :: s) rfl rfl (by decide)
  | emptyArray hmany =>
    obtain ⟨s, rfl, _⟩ := hmany.suffix
    exact hmark ('[' :: s) rfl rfl (by decide)
  | emptyObject hmany =>
    obtain ⟨s, rfl, _⟩ := hmany.suffix
    exact hmark ('\x7b' :: s) rfl rfl (by decide)
  | array _ ih =>
    obtain ⟨s, c, w, rfl, _⟩ := ih
    exact hmark ('[' :: s ++ c :: w) (List.append_assoc ('[' :: s) (c :: w) _).symm rfl (by decide)
  | object _ ih =>
    obtain ⟨s, c, w, rfl, _⟩ := ih
    exact hmark ('\x7b' :: s ++ c :: w) (List.append_assoc ('\x7b' :: s) (c :: w) _).symm rfl (by decide)
  | element hbefore _ hbehind ih =>
    obtain ⟨x, rfl, _⟩ := hbefore.suffix
    exact (ih.behind x).many hbehind
  | lastElement _ ih | lastMember _ ih => exact ih
  | moreElements helement _ ih ihs | moreMembers helement _ ih ihs =>
    obtain ⟨s, c, w, rfl, _⟩ := ih
    have hend := ihs.behind (s ++ c :: (w ++ [',']))
    rwa [List.append_assoc, List.cons_append, List.append_assoc] at hend
  | member hbefore hcodes hcolon _ ih =>
    obtain ⟨x, rfl, _⟩ := hbefore.suffix
    obtain ⟨y, rfl⟩ := hcodes.last
    obtain ⟨z, rfl, _⟩ := hcolon.suffix
    have hend := ih.behind (x ++ '"' :: (y ++ '"' :: (z ++ [':'])))
    simpa only [List.append_assoc, List.cons_append, List.nil_append] using hend

omit hws in
theorem last_unique {c d : Char} {s s' w w' : List Char} (heq : s ++ c :: w = s' ++ d :: w') (hw : ∀ e ∈ w, ws e)
    (hw' : ∀ e ∈ w', ws e) (hc : ws c = false) (hd : ws d = false) : c = d ∧ s = s' := by
  have hleft : Many ws (s ++ c :: w).reverse (c :: s.reverse) := by
    rw [List.reverse_append, List.reverse_cons, List.append_assoc]
    exact many_append (fun e he => hw e (List.mem_reverse.1 he)) _
  have hright : Many ws (s' ++ d :: w').reverse (d :: s'.reverse) := by
    rw [List.reverse_append, List.reverse_cons, List.append_assoc]
    exact many_append (fun e he => hw' e (List.mem_reverse.1 he)) _
  rw [heq] at hleft
  have hsame := (hleft.dropWhile_eq fun e he => Option.some.inj he ▸ hc).symm.trans
    (hright.dropWhile_eq fun e he => Option.some.inj he ▸ hd)
  obtain ⟨hcd, hs⟩ := List.cons.inj hsame
  exact ⟨hcd, List.reverse_injective hs⟩

theorem Text.noTrailingComma {js : List Json} (h : Text ws t (.array js)) {s w w' : List Char}
    (ht : t = s ++ ',' :: (w ++ ']' :: w')) (hw : ∀ d ∈ w, ws d) (hw' : ∀ d ∈ w', ws d) : False := by
  have hmark {c : Char} (hc : isSpace c = .false) : ws c = .false :=
    Bool.eq_false_iff.2 fun hspace => space_ne hws hspace hc rfl
  obtain ⟨u, v, hbefore, hvalue, hbehind⟩ := h.of_element
  obtain ⟨x, rfl, _⟩ := hbefore.suffix
  obtain ⟨y, hy, hall⟩ := hbehind.suffix
  rw [List.append_nil] at hy
  obtain rfl := hy
  obtain ⟨u, rfl, hroot⟩ := hvalue.of_array
  -- The character before the closing bracket and whitespace.
  obtain ⟨s', c, w'', hu, hw'', hcomma, hc⟩ : EndsNoComma ws ('[' :: u) (']' :: v) := by
    obtain ⟨_, hmany⟩ | helements := hroot
    · obtain ⟨z, rfl, hz⟩ := hmany.suffix
      exact ⟨[], '[', z, rfl, hz, by decide, hmark rfl⟩
    · exact (helements.last hws).behind ['[']
  have hsame : s ++ ',' :: w ++ ']' :: w' = (x ++ s' ++ c :: w'') ++ ']' :: v := by
    rw [List.append_assoc, List.cons_append, ← ht, hu, List.append_assoc, List.append_assoc]
    rfl
  have hbody := (last_unique hsame hw' hall (hmark rfl) (hmark rfl)).2
  exact hcomma (last_unique hbody hw hw'' (hmark rfl) hc).1.symm

end

end

end JsonGrammar
