import RustHouse.JsonGrammar

/-!
# The grammar of JSON is unambiguous

A text has one reading at most. A part is told from what follows it by what may
follow: behind a number no character that a number goes on with, behind an element
of a list a comma or the end of the list.
-/

namespace JsonGrammar

variable {ws : Char → Bool} {t r r' : List Char}

/-! ## Numbers and strings -/

theorem Many.unique {p : Char → Bool} (h : Many p t r) (h' : Many p t r') (hr : ∀ c ∈ r.head?, p c = false)
    (hr' : ∀ c ∈ r'.head?, p c = false) : r = r' := (h.dropWhile_eq hr).symm.trans (h'.dropWhile_eq hr')

theorem ends_digit {r : List Char} (h : Ends r) : ∀ c ∈ r.head?, isDigit c = false := fun c hc => (h c hc).1

theorem exponent_ends (h : Exponent t r) (hr : Ends r) : ∀ c ∈ t.head?, isDigit c = false ∧ c ≠ '.' := by
  have hmark {e : Char} (he : isExponent e = true) : isDigit e = false ∧ e ≠ '.' := by
    simp only [isExponent, Bool.or_eq_true, beq_iff_eq] at he
    obtain rfl | rfl := he <;> decide
  intro c hc
  cases h with
  | absent => exact ⟨(hr c hc).1, (hr c hc).2.1⟩
  | digits he => exact Option.some.inj hc ▸ hmark he
  | signed he => exact Option.some.inj hc ▸ hmark he

theorem fraction_ends (h : Fraction t r) (hr : ∀ c ∈ r.head?, isDigit c = false) :
    ∀ c ∈ t.head?, isDigit c = false := by
  intro c hc
  cases h with
  | absent => exact hr c hc
  | digits => exact Option.some.inj hc ▸ (by decide)

theorem Integer.unique (h : Integer t r) (h' : Integer t r') (hr : ∀ c ∈ r.head?, isDigit c = false)
    (hr' : ∀ c ∈ r'.head?, isDigit c = false) : r = r' := by
  cases h with
  | zero =>
    cases h' with
    | zero => rfl
    | nonzero _ hzero _ => exact absurd rfl hzero
  | nonzero _ hzero hmany =>
    cases h' with
    | zero => exact absurd rfl hzero
    | nonzero _ _ hmany' => exact hmany.unique hmany' hr hr'

theorem Fraction.unique (h : Fraction t r) (h' : Fraction t r') (hr : ∀ c ∈ r.head?, isDigit c = false ∧ c ≠ '.')
    (hr' : ∀ c ∈ r'.head?, isDigit c = false ∧ c ≠ '.') : r = r' := by
  cases h with
  | absent =>
    cases h' with
    | absent => rfl
    | digits => exact absurd rfl (hr '.' rfl).2
  | digits _ hmany =>
    cases h' with
    | absent =>
      have hpoint := hr' '.' rfl
      exact absurd rfl hpoint.2
    | digits _ hmany' => exact hmany.unique hmany' (fun c hc => (hr c hc).1) fun c hc => (hr' c hc).1

theorem Exponent.unique (h : Exponent t r) (h' : Exponent t r') (hr : Ends r) (hr' : Ends r') : r = r' := by
  have hsign {s : Char} (hs : isSign s = true) (hc : isDigit s = true) : False := by
    simp only [isSign, Bool.or_eq_true, beq_iff_eq] at hs
    obtain rfl | rfl := hs <;> exact absurd hc (by decide)
  have hmark {e : Char} {t : List Char} (h : Ends (e :: t)) (he : isExponent e = true) : False := by
    rw [(h e rfl).2.2] at he
    cases he
  cases h with
  | absent =>
    cases h' with
    | absent => rfl
    | digits he => exact (hmark hr he).elim
    | signed he => exact (hmark hr he).elim
  | digits he hc hmany =>
    cases h' with
    | absent => exact (hmark hr' he).elim
    | digits _ _ hmany' => exact hmany.unique hmany' (ends_digit hr) (ends_digit hr')
    | signed _ hs _ _ => exact (hsign hs hc).elim
  | signed he hs _ hmany =>
    cases h' with
    | absent => exact (hmark hr' he).elim
    | digits _ hc _ => exact (hsign hs hc).elim
    | signed _ _ _ hmany' => exact hmany.unique hmany' (ends_digit hr) (ends_digit hr')

theorem Number.unique (h : Number t r) (h' : Number t r') (hr : Ends r) (hr' : Ends r') : r = r' := by
  have hparts {t u v u' v' : List Char} (h₁ : Integer t u) (h₂ : Fraction u v) (h₃ : Exponent v r) (h₁' : Integer t u')
      (h₂' : Fraction u' v') (h₃' : Exponent v' r') : r = r' := by
    have hv := exponent_ends h₃ hr
    have hv' := exponent_ends h₃' hr'
    have hu := fraction_ends h₂ fun c hc => (hv c hc).1
    have hu' := fraction_ends h₂' fun c hc => (hv' c hc).1
    obtain rfl := h₁.unique h₁' hu hu'
    obtain rfl := h₂.unique h₂' hv hv'
    exact h₃.unique h₃' hr hr'
  have hsign {t u : List Char} (h : Integer ('-' :: t) u) : False := by
    cases h with
    | nonzero hc => exact absurd hc (by decide)
  cases h with
  | positive h₁ h₂ h₃ =>
    cases h' with
    | positive h₁' h₂' h₃' => exact hparts h₁ h₂ h₃ h₁' h₂' h₃'
    | negative => exact (hsign h₁).elim
  | negative h₁ h₂ h₃ =>
    cases h' with
    | positive h₁' => exact (hsign h₁').elim
    | negative h₁' h₂' h₃' => exact hparts h₁ h₂ h₃ h₁' h₂' h₃'

theorem StringRest.unique {codes codes' : List Nat} (h : StringRest t codes r) (h' : StringRest t codes' r') :
    codes = codes' ∧ r = r' := by
  have hquote : isUnescaped '"' = false := by decide
  have hslash : isUnescaped '\\' = false := by decide
  have hunicode : escapeCode 'u' = none := by decide
  induction h generalizing codes' with
  | close =>
    cases h' with
    | close => exact ⟨rfl, rfl⟩
    | plain hc => rw [hquote] at hc; cases hc
  | plain hc _ ih =>
    cases h' with
    | close => rw [hquote] at hc; cases hc
    | plain _ h' =>
      obtain ⟨rfl, rfl⟩ := ih h'
      exact ⟨rfl, rfl⟩
    | escape => rw [hslash] at hc; cases hc
    | unicode => rw [hslash] at hc; cases hc
  | escape hcode _ ih =>
    cases h' with
    | plain hc => rw [hslash] at hc; cases hc
    | escape hcode' h' =>
      obtain ⟨rfl, rfl⟩ := ih h'
      obtain rfl := Option.some.inj (hcode.symm.trans hcode')
      exact ⟨rfl, rfl⟩
    | unicode => rw [hunicode] at hcode; cases hcode
  | unicode hi hj hk hl _ ih =>
    cases h' with
    | plain hc => rw [hslash] at hc; cases hc
    | escape hcode => rw [hunicode] at hcode; cases hcode
    | unicode hi' hj' hk' hl' h' =>
      obtain ⟨rfl, rfl⟩ := ih h'
      obtain rfl := Option.some.inj (hi.symm.trans hi')
      obtain rfl := Option.some.inj (hj.symm.trans hj')
      obtain rfl := Option.some.inj (hk.symm.trans hk')
      obtain rfl := Option.some.inj (hl.symm.trans hl')
      exact ⟨rfl, rfl⟩

/-! ## Values -/

theorem number_head {t r : List Char} (h : Number t r) : ∃ c t', t = c :: t' ∧ (c = '-' ∨ isDigit c = true) := by
  cases h with
  | negative => exact ⟨'-', _, rfl, .inl rfl⟩
  | positive hinteger =>
    cases hinteger with
    | zero => exact ⟨'0', _, rfl, .inr (by decide)⟩
    | nonzero hc => exact ⟨_, _, rfl, .inr hc⟩

/-- The kinds of value that differ in their first character. -/
inductive Kind where
  | null | true | false | string | array | object | number
  deriving DecidableEq

def Json.kind : Json → Kind
  | .null => .null
  | .bool true => .true
  | .bool false => .false
  | .number _ => .number
  | .string _ => .string
  | .array _ => .array
  | .object _ => .object

def kindOf (c : Char) : Kind :=
  if c = 'n' then .null
  else if c = 't' then .true
  else if c = 'f' then .false
  else if c = '"' then .string
  else if c = '[' then .array
  else if c = '\x7b' then .object
  else .number

/-- Whitespace, and the marks that separate or close. -/
def isMark (c : Char) : Bool := isSpace c || c == ',' || c == ']' || c == '\x7d'

theorem kindOf_digit {c : Char} (hc : c = '-' ∨ isDigit c = true) : kindOf c = .number ∧ isMark c = false := by
  have hne : ∀ d, (d = '-' ∨ isDigit d = true) = False → c ≠ d := by
    intro d hd
    rintro rfl
    exact hd ▸ hc
  refine ⟨?_, ?_⟩
  · rw [kindOf, if_neg (hne 'n' (by decide)), if_neg (hne 't' (by decide)), if_neg (hne 'f' (by decide)),
      if_neg (hne '"' (by decide)), if_neg (hne '[' (by decide)), if_neg (hne '\x7b' (by decide))]
  · by_contra hmark
    simp only [isMark, isSpace, Bool.not_eq_false, Bool.or_eq_true, beq_iff_eq] at hmark
    obtain (((((rfl | rfl) | rfl) | rfl) | rfl) | rfl) | rfl := hmark <;> exact absurd hc (by decide)

theorem Derives.head {j : Json} (h : Derives ws .value t j r) :
    ∃ c t', t = c :: t' ∧ kindOf c = j.kind ∧ isMark c = .false := by
  cases h with
  | number hnumber =>
    obtain ⟨c, t', ht, hc⟩ := number_head hnumber
    exact ⟨c, t', ht, kindOf_digit hc⟩
  | _ => exact ⟨_, _, rfl, rfl, rfl⟩

theorem Derives.of_number {literal : List Char} (h : Derives ws .value t (.number literal) r) :
    t = literal ++ r ∧ Number t r := by
  generalize hj : Json.number literal = j at h
  cases h with
  | number hnumber =>
    obtain rfl := Json.number.inj hj
    exact ⟨rfl, hnumber⟩
  | _ => cases hj

theorem Derives.of_string {codes : List Nat} (h : Derives ws .value t (.string codes) r) :
    ∃ u, t = '"' :: u ∧ StringRest u codes r := by
  generalize hj : Json.string codes = j at h
  cases h with
  | string hcodes =>
    obtain rfl := Json.string.inj hj
    exact ⟨_, rfl, hcodes⟩
  | _ => cases hj

theorem Derives.of_object {ms : List (List Nat × Json)} (h : Derives ws .value t (.object ms) r) :
    ∃ u, t = '\x7b' :: u ∧ (ms = [] ∧ Many ws u ('\x7d' :: r) ∨ Derives ws .members u (.object ms) ('\x7d' :: r)) := by
  generalize hj : Json.object ms = j at h
  cases h with
  | emptyObject hmany => exact ⟨_, rfl, .inl ⟨Json.object.inj hj, hmany⟩⟩
  | object hmembers => exact ⟨_, rfl, .inr (Json.object.inj hj ▸ hmembers)⟩
  | _ => cases hj

theorem Derives.of_null (h : Derives ws .value t .null r) : t = 'n' :: 'u' :: 'l' :: 'l' :: r := by
  generalize hj : Json.null = j at h
  cases h with
  | null => rfl
  | _ => cases hj

theorem Derives.of_true (h : Derives ws .value t (.bool .true) r) : t = 't' :: 'r' :: 'u' :: 'e' :: r := by
  generalize hj : Json.bool .true = j at h
  cases h with
  | true => rfl
  | _ => cases hj

theorem Derives.of_false (h : Derives ws .value t (.bool .false) r) : t = 'f' :: 'a' :: 'l' :: 's' :: 'e' :: r := by
  generalize hj : Json.bool .false = j at h
  cases h with
  | false => rfl
  | _ => cases hj

/-! ## Elements and members -/

/-- What may follow a symbol that has one reading. -/
def Stops : Symbol → List Char → Prop
  | .value, r => Ends r
  | .element, r | .member, r => ∀ c ∈ r.head?, c = ',' ∨ c = ']' ∨ c = '\x7d'
  | .elements, r | .members, r => ∀ c ∈ r.head?, c = ']' ∨ c = '\x7d'

theorem stops_comma (r : List Char) : Stops .element (',' :: r) := fun _ hc => .inl (Option.some.inj hc).symm

section
variable (hws : ∀ c, ws c → isSpace c)
include hws

theorem mark_notSpace {c : Char} (hc : c = ',' ∨ c = ']' ∨ c = '\x7d') : ws c = false := by
  refine Bool.eq_false_iff.2 fun hspace => ?_
  have hbad := hws c hspace
  obtain rfl | rfl | rfl := hc <;> exact absurd hbad (by decide)

/-- Behind a value there is whitespace or what may follow an element. -/
theorem ends_behind {v : List Char} (h : Many ws v r) (hr : Stops .element r) : Ends v := by
  cases h with
  | nil =>
    intro c hc
    obtain rfl | rfl | rfl := hr c hc <;> exact ⟨rfl, by decide, rfl⟩
  | cons hspace _ =>
    have hbad := hws _ hspace
    simp only [isSpace, Bool.or_eq_true, beq_iff_eq] at hbad
    obtain ((rfl | rfl) | rfl) | rfl := hbad <;> exact ends_cons rfl (by decide) rfl

theorem value_notSpace {j : Json} (h : Derives ws .value t j r) : ∀ c ∈ t.head?, ws c = .false := by
  obtain ⟨c, t', rfl, _, hmark⟩ := h.head
  intro d hd
  obtain rfl := Option.some.inj hd
  refine Bool.eq_false_iff.2 fun hspace => ?_
  rw [isMark, hws c hspace] at hmark
  cases hmark

theorem many_mark {c c' : Char} (h : Many ws t (c :: r)) (h' : Many ws t (c' :: r')) (hc : isSpace c = false)
    (hc' : isSpace c' = false) : c = c' ∧ r = r' := by
  have hnot {c : Char} {r : List Char} (hc : isSpace c = false) : ∀ d ∈ (c :: r).head?, ws d = false := by
    intro d hd
    obtain rfl := Option.some.inj hd
    exact Bool.eq_false_iff.2 fun hspace => space_ne hws hspace hc rfl
  exact List.cons.inj (h.unique h' (hnot hc) (hnot hc'))

omit hws in
theorem Derives.elements_head {j : Json} (h : Derives ws .elements t j r) :
    ∃ c u, Many ws t (c :: u) ∧ isMark c = .false := by
  have helement {t r : List Char} {j : Json} (h : Derives ws .element t j r) :
      ∃ c u, Many ws t (c :: u) ∧ isMark c = .false := by
    obtain ⟨u, v, hspace, hvalue, _⟩ := h.of_element
    obtain ⟨c, u', rfl, _, hc⟩ := hvalue.head
    exact ⟨c, u', hspace, hc⟩
  cases h with
  | lastElement h => exact helement h
  | moreElements h => exact helement h

omit hws in
theorem Derives.members_head {j : Json} (h : Derives ws .members t j r) : ∃ u, Many ws t ('"' :: u) := by
  have hmember {t r : List Char} {j : Json} (h : Derives ws .member t j r) : ∃ u, Many ws t ('"' :: u) := by
    cases h with
    | member hspace => exact ⟨_, hspace⟩
  cases h with
  | lastMember h => exact hmember h
  | moreMembers h => exact hmember h

theorem elements_notEmpty {j : Json} (h : Derives ws .elements t j r) (h' : Many ws t (']' :: r')) : False := by
  obtain ⟨c, u, hmany, hc⟩ := h.elements_head
  have hspace : isSpace c = .false := by
    rw [isMark, Bool.or_eq_false_iff, Bool.or_eq_false_iff, Bool.or_eq_false_iff] at hc
    exact hc.1.1.1
  obtain ⟨rfl, _⟩ := many_mark hws hmany h' hspace rfl
  exact absurd hc (by decide)

theorem members_notEmpty {j : Json} (h : Derives ws .members t j r) (h' : Many ws t ('\x7d' :: r')) : False := by
  obtain ⟨u, hmany⟩ := h.members_head
  exact absurd (many_mark hws hmany h' rfl rfl).1 (by decide)

/-- **The grammar is unambiguous.** -/
theorem Derives.unique {symbol : Symbol} {j j' : Json} (h : Derives ws symbol t j r) (h' : Derives ws symbol t j' r')
    (hr : Stops symbol r) (hr' : Stops symbol r') : j = j' ∧ r = r' := by
  have hkind {c : Char} {t r : List Char} {j : Json} (h : Derives ws .value (c :: t) j r) : j.kind = kindOf c := by
    obtain ⟨_, _, heq, hkind, _⟩ := h.head
    obtain ⟨rfl, rfl⟩ := List.cons.inj heq
    exact hkind.symm
  have hbracket (r : List Char) : Stops .elements (']' :: r) := fun c hc => .inl (Option.some.inj hc).symm
  have hbrace (r : List Char) : Stops .members ('\x7d' :: r) := fun c hc => .inr (Option.some.inj hc).symm
  induction h generalizing j' r' with
  | null =>
    cases j' with
    | null => exact ⟨rfl, by simpa using h'.of_null⟩
    | bool b => cases b <;> cases hkind h'
    | _ => cases hkind h'
  | true =>
    cases j' with
    | bool b =>
      cases b with
      | true => exact ⟨rfl, by simpa using h'.of_true⟩
      | false => cases hkind h'
    | _ => cases hkind h'
  | false =>
    cases j' with
    | bool b =>
      cases b with
      | false => exact ⟨rfl, by simpa using h'.of_false⟩
      | true => cases hkind h'
    | _ => cases hkind h'
  | number hnumber =>
    obtain ⟨c, t', ht, hc⟩ := number_head hnumber
    have hnumberKind := hkind (ht ▸ h')
    rw [(kindOf_digit hc).1] at hnumberKind
    cases j' with
    | number literal' =>
      obtain ⟨heq, hnumber'⟩ := h'.of_number
      obtain rfl := hnumber.unique hnumber' hr hr'
      exact ⟨congrArg Json.number (List.append_cancel_right heq), rfl⟩
    | bool b => cases b <;> cases hnumberKind
    | _ => cases hnumberKind
  | string hcodes =>
    cases j' with
    | string codes' =>
      obtain ⟨u, heq, hcodes'⟩ := h'.of_string
      obtain rfl := (List.cons.inj heq).2
      obtain ⟨rfl, rfl⟩ := hcodes.unique hcodes'
      exact ⟨rfl, rfl⟩
    | bool b => cases b <;> cases hkind h'
    | _ => cases hkind h'
  | emptyArray hmany =>
    cases j' with
    | array js' =>
      obtain ⟨u, heq, ⟨rfl, hmany'⟩ | helements⟩ := h'.of_array
      · obtain rfl := (List.cons.inj heq).2
        exact ⟨rfl, (many_mark hws hmany hmany' rfl rfl).2⟩
      · obtain rfl := (List.cons.inj heq).2
        exact (elements_notEmpty hws helements hmany).elim
    | bool b => cases b <;> cases hkind h'
    | _ => cases hkind h'
  | array helements ih =>
    cases j' with
    | array js' =>
      obtain ⟨u, heq, ⟨rfl, hmany⟩ | helements'⟩ := h'.of_array
      · obtain rfl := (List.cons.inj heq).2
        exact (elements_notEmpty hws helements hmany).elim
      · obtain rfl := (List.cons.inj heq).2
        obtain ⟨hjs, hrest⟩ := ih helements' (hbracket _) (hbracket _)
        exact ⟨hjs, (List.cons.inj hrest).2⟩
    | bool b => cases b <;> cases hkind h'
    | _ => cases hkind h'
  | emptyObject hmany =>
    cases j' with
    | object ms' =>
      obtain ⟨u, heq, ⟨rfl, hmany'⟩ | hmembers⟩ := h'.of_object
      · obtain rfl := (List.cons.inj heq).2
        exact ⟨rfl, (many_mark hws hmany hmany' rfl rfl).2⟩
      · obtain rfl := (List.cons.inj heq).2
        exact (members_notEmpty hws hmembers hmany).elim
    | bool b => cases b <;> cases hkind h'
    | _ => cases hkind h'
  | object hmembers ih =>
    cases j' with
    | object ms' =>
      obtain ⟨u, heq, ⟨rfl, hmany⟩ | hmembers'⟩ := h'.of_object
      · obtain rfl := (List.cons.inj heq).2
        exact (members_notEmpty hws hmembers hmany).elim
      · obtain rfl := (List.cons.inj heq).2
        obtain ⟨hms, hrest⟩ := ih hmembers' (hbrace _) (hbrace _)
        exact ⟨hms, (List.cons.inj hrest).2⟩
    | bool b => cases b <;> cases hkind h'
    | _ => cases hkind h'
  | element hspace hvalue hbehind ih =>
    obtain ⟨u', v', hspace', hvalue', hbehind'⟩ := h'.of_element
    obtain rfl := hspace.unique hspace' (value_notSpace hws hvalue) (value_notSpace hws hvalue')
    obtain ⟨rfl, rfl⟩ := ih hvalue' (ends_behind hws hbehind hr) (ends_behind hws hbehind' hr')
    exact ⟨rfl, hbehind.unique hbehind' (fun c hc => mark_notSpace hws (hr c hc)) fun c hc => mark_notSpace hws (hr' c hc)⟩
  | lastElement helement ih =>
    cases h' with
    | lastElement helement' =>
      obtain ⟨rfl, rfl⟩ := ih helement' (fun c hc => .inr (hr c hc)) fun c hc => .inr (hr' c hc)
      exact ⟨rfl, rfl⟩
    | moreElements helement' _ =>
      obtain ⟨_, rfl⟩ := ih helement' (fun c hc => .inr (hr c hc)) (stops_comma _)
      exact absurd (hr ',' rfl) (by decide)
  | moreElements helement helements ih ihs =>
    cases h' with
    | lastElement helement' =>
      obtain ⟨_, rfl⟩ := ih helement' (stops_comma _) fun c hc => .inr (hr' c hc)
      have hcomma := hr' ',' rfl
      exact absurd hcomma (by decide)
    | moreElements helement' helements' =>
      obtain ⟨rfl, hrest⟩ := ih helement' (stops_comma _) (stops_comma _)
      obtain rfl := (List.cons.inj hrest).2
      obtain ⟨hjs, rfl⟩ := ihs helements' hr hr'
      exact ⟨by rw [Json.array.inj hjs], rfl⟩
  | member hspace hcodes hcolon helement ih =>
    cases h' with
    | member hspace' hcodes' hcolon' helement' =>
      obtain ⟨_, rfl⟩ := many_mark hws hspace hspace' rfl rfl
      obtain ⟨rfl, rfl⟩ := hcodes.unique hcodes'
      obtain ⟨_, rfl⟩ := many_mark hws hcolon hcolon' rfl rfl
      obtain ⟨rfl, rfl⟩ := ih helement' hr hr'
      exact ⟨rfl, rfl⟩
  | lastMember hmember ih =>
    cases h' with
    | lastMember hmember' => exact ih hmember' (fun c hc => .inr (hr c hc)) fun c hc => .inr (hr' c hc)
    | moreMembers hmember' _ =>
      obtain ⟨_, rfl⟩ := ih hmember' (fun c hc => .inr (hr c hc)) (stops_comma _)
      exact absurd (hr ',' rfl) (by decide)
  | moreMembers hmember hmembers ih ihs =>
    cases h' with
    | lastMember hmember' =>
      obtain ⟨_, rfl⟩ := ih hmember' (stops_comma _) fun c hc => .inr (hr' c hc)
      have hcomma := hr' ',' rfl
      exact absurd hcomma (by decide)
    | moreMembers hmember' hmembers' =>
      obtain ⟨hm, hrest⟩ := ih hmember' (stops_comma _) (stops_comma _)
      obtain rfl := (List.cons.inj hrest).2
      obtain ⟨hms, rfl⟩ := ihs hmembers' hr hr'
      obtain rfl := List.head_eq_of_cons_eq (Json.object.inj hm)
      exact ⟨by rw [Json.object.inj hms], rfl⟩

theorem Text.unique {j j' : Json} (h : Text ws t j) (h' : Text ws t j') : j = j' :=
  (Derives.unique hws h h' (fun _ hc => by cases hc) fun _ hc => by cases hc).1

end

end JsonGrammar
