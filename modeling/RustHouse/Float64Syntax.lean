import RustHouse.Scanning
import RustHouse.Words

/-!
# The syntax of floating-point numbers

A cast of `String` to `Float64` checks the syntax in one pass over the bytes:
digits with a point somewhere, or none, and perhaps an exponent. No byte is
looked at twice, and the accepted texts are those of the grammar.
-/

namespace RustHouse.Batch.ScalarCast

open Scanning Words

def isAsciiDigit (b : UInt8) : Bool := UInt8.ofNat '0'.toNat ≤ b && b ≤ UInt8.ofNat '9'.toNat

def isSign (b : UInt8) : Bool := b = UInt8.ofNat '+'.toNat || b = UInt8.ofNat '-'.toNat

def isPoint (b : UInt8) : Bool := b = UInt8.ofNat '.'.toNat

def isExponentMark (b : UInt8) : Bool := b = UInt8.ofNat 'e'.toNat || b = UInt8.ofNat 'E'.toNat

/-- `float64_text`, from where an exponent may stand. -/
def exponentText (bytes : Bytes) (position : Nat) : Bool :=
  if bytes[position]?.any isExponentMark then
    let position := position + 1
    let position := if bytes[position]?.any isSign then position + 1 else position
    let exponentStart := position
    let position := runEnd isAsciiDigit bytes position
    if position = exponentStart then false else position = bytes.length
  else position = bytes.length

def float64Text (value : String) : Bool :=
  let bytes := utf8 value
  let position := if bytes[0]?.any isSign then 1 else 0
  let integerStart := position
  let position := runEnd isAsciiDigit bytes position
  let integerDigits := position - integerStart
  let (position, fractionalDigits) :=
    if bytes[position]?.any isPoint then
      let position := position + 1
      let fractionalStart := position
      let position := runEnd isAsciiDigit bytes position
      (position, position - fractionalStart)
    else (position, 0)
  if integerDigits = 0 ∧ fractionalDigits = 0 then false else exponentText bytes position

/-! ## The grammar -/

/-- `digits[.digits?] | .digits`. -/
def mantissaSyntax {α : Type} (digit point : α → Bool) : Language α :=
  run digit * opt (symbol point * opt (run digit)) + symbol point * run digit

/-- `([eE][+-]?digits)?`. -/
def exponentSyntax {α : Type} (digit sign mark : α → Bool) : Language α :=
  opt (symbol mark * (opt (symbol sign) * run digit))

/-- `[+-]?(digits[.digits?] | .digits)([eE][+-]?digits)?`. -/
def numberSyntax {α : Type} (digit sign point mark : α → Bool) : Language α :=
  opt (symbol sign) * (mantissaSyntax digit point * exponentSyntax digit sign mark)

/-- The texts of floating-point numbers. -/
def float64Syntax : Language Char :=
  numberSyntax Char.isDigit (fun c => c = '+' || c = '-') (fun c => c = '.') (fun c => c = 'e' || c = 'E')

/-! ## The scanner -/

section
variable {α : Type} {digit sign point mark : α → Bool} {w rest : List α} {c : α}

theorem exponentSyntax_avoids {p : α → Bool} (h : Apart mark p) :
    Avoids (exponentSyntax digit sign mark) p :=
  avoids_one.add (avoids_symbol_mul h)

theorem mem_exponentSyntax_cons (hsign : Apart digit sign) (hc : mark c = true) :
    c :: rest ∈ exponentSyntax digit sign mark ↔
      (skipOne sign rest).takeWhile digit ≠ [] ∧ (skipOne sign rest).dropWhile digit = [] := by
  have hrun : Avoids (run digit : Language α) sign := by
    have := avoids_run_mul (l := 1) hsign
    rwa [mul_one] at this
  have hdigits : ∀ v : List α, v ∈ run digit ↔ v.takeWhile digit ≠ [] ∧ v.dropWhile digit = [] := by
    intro v
    have := mem_run_mul (l := 1) (w := v) (avoids_one (p := digit))
    rwa [mul_one, Language.mem_one] at this
  rw [exponentSyntax, opt, Language.mem_add, Language.mem_one, mem_symbol_mul, ← hdigits]
  constructor
  · intro h
    rcases h with h | ⟨c', rest', h, _, hmem⟩
    · cases h
    · obtain ⟨rfl, rfl⟩ := List.cons.inj h
      exact (mem_opt_symbol_mul hrun).1 hmem
  · intro h
    exact .inr ⟨c, rest, rfl, hc, (mem_opt_symbol_mul hrun).2 h⟩

theorem mem_exponentSyntax_of_not (h : ∀ c rest, w = c :: rest → mark c = false) :
    w ∈ exponentSyntax digit sign mark ↔ w = [] := by
  rw [exponentSyntax, opt, Language.mem_add, Language.mem_one, mem_symbol_mul]
  constructor
  · intro hw
    rcases hw with hw | ⟨c, rest, hw, hc, _⟩
    · exact hw
    · rw [h c rest hw] at hc
      cases hc
  · exact .inl

theorem mem_mantissa_mul {l : Language α} (hpoint : Apart point digit) (hdigit : Avoids l digit) :
    w ∈ mantissaSyntax digit point * l ↔
      (w.takeWhile digit ≠ [] ∧ (w.dropWhile digit ∈ l ∨
        ∃ c rest, w.dropWhile digit = c :: rest ∧ point c = true ∧ rest.dropWhile digit ∈ l)) ∨
      ∃ c rest, w = c :: rest ∧ point c = true ∧ rest.takeWhile digit ≠ [] ∧ rest.dropWhile digit ∈ l := by
  have hfraction : Avoids (opt (symbol point * opt (run digit)) * l) digit := by
    refine Avoids.opt_mul ?_ hdigit
    rw [mul_assoc]
    exact avoids_symbol_mul hpoint
  rw [mantissaSyntax, add_mul, mul_assoc, mul_assoc, Language.mem_add, mem_run_mul hfraction, mem_opt_mul, mul_assoc,
    mem_symbol_mul, mem_symbol_mul]
  simp only [mem_opt_run_mul hdigit, mem_run_mul hdigit]

theorem mem_mantissa_mul_of_point {l : Language α} (hpoint : Apart point digit)
    (hdigit : Avoids l digit) (hl : Avoids l point) (hw : w.dropWhile digit = c :: rest) (hc : point c = true) :
    w ∈ mantissaSyntax digit point * l ↔
      ¬ (w.takeWhile digit = [] ∧ rest.takeWhile digit = []) ∧ rest.dropWhile digit ∈ l := by
  have hnot : c :: rest ∉ l := by
    intro hmem
    rw [hl c rest hmem] at hc
    cases hc
  rw [mem_mantissa_mul hpoint hdigit, hw]
  constructor
  · intro h
    rcases h with ⟨hne, hmem | ⟨c', rest', heq, _, hmem⟩⟩ | ⟨c', rest', heq, hc', hne, hmem⟩
    · exact absurd hmem hnot
    · obtain ⟨rfl, rfl⟩ := List.cons.inj heq
      exact ⟨fun hnil => hne hnil.1, hmem⟩
    · rw [heq, List.dropWhile_cons_of_neg (by rw [hpoint c' hc']; exact Bool.false_ne_true)] at hw
      obtain ⟨rfl, rfl⟩ := List.cons.inj hw
      exact ⟨fun hnil => hne hnil.2, hmem⟩
  · intro ⟨hne, hmem⟩
    by_cases hnil : w.takeWhile digit = []
    · have hall := List.takeWhile_append_dropWhile (p := digit) (l := w)
      rw [hnil, hw, List.nil_append] at hall
      exact .inr ⟨c, rest, hall.symm, hc, fun hrest => hne ⟨hnil, hrest⟩, hmem⟩
    · exact .inl ⟨hnil, .inr ⟨c, rest, rfl, hc, hmem⟩⟩

theorem mem_mantissa_mul_of_not {l : Language α} (hpoint : Apart point digit)
    (hdigit : Avoids l digit) (hw : ∀ c rest, w.dropWhile digit = c :: rest → point c = false) :
    w ∈ mantissaSyntax digit point * l ↔ w.takeWhile digit ≠ [] ∧ w.dropWhile digit ∈ l := by
  rw [mem_mantissa_mul hpoint hdigit]
  constructor
  · intro h
    rcases h with ⟨hne, hmem | ⟨c, rest, heq, hc, _⟩⟩ | ⟨c, rest, heq, hc, _⟩
    · exact ⟨hne, hmem⟩
    · rw [hw c rest heq] at hc
      cases hc
    · have hdrop : w.dropWhile digit = c :: rest := by
        rw [heq, List.dropWhile_cons_of_neg (by rw [hpoint c hc]; exact Bool.false_ne_true)]
      rw [hw c rest hdrop] at hc
      cases hc
  · intro ⟨hne, hmem⟩
    exact .inl ⟨hne, .inl hmem⟩

end

section
variable {bytes w : Bytes} {position : Nat}

/-- Bytes that stand for themselves are not in a class without them. -/
theorem apart_or {a b : UInt8} {q : UInt8 → Bool} (ha : q a = false) (hb : q b = false) :
    Apart (fun c => decide (c = a) || decide (c = b)) q := by
  intro c hc
  rcases (Bool.or_eq_true ..).mp hc with hc | hc
  · rwa [of_decide_eq_true hc]
  · rwa [of_decide_eq_true hc]

theorem isSign_apart : Apart isSign isAsciiDigit := apart_or rfl rfl

theorem isPoint_apart : Apart isPoint isAsciiDigit := by
  intro c hc
  rw [of_decide_eq_true hc]
  rfl

theorem isPoint_apart_isSign : Apart isPoint isSign := by
  intro c hc
  rw [of_decide_eq_true hc]
  rfl

theorem isExponentMark_apart_isPoint : Apart isExponentMark isPoint := apart_or rfl rfl

theorem isExponentMark_apart : Apart isExponentMark isAsciiDigit := apart_or rfl rfl

theorem exponentText_iff (h : Rest bytes position w) :
    exponentText bytes position = true ↔ w ∈ exponentSyntax isAsciiDigit isSign isExponentMark := by
  have hend : decide (position = bytes.length) = true ↔ w = [] := by
    rw [decide_eq_true_iff, h.eq_length_iff]
  cases w with
  | nil =>
    rw [exponentText, h.getElem?, mem_exponentSyntax_of_not (by intro c rest heq; cases heq)]
    exact hend
  | cons c rest =>
    rw [exponentText, h.getElem?]
    by_cases hc : isExponentMark c = true
    · rw [if_pos (by simpa using hc), mem_exponentSyntax_cons isSign_apart.symm hc]
      have hstart := h.next.skipOne (p := isSign)
      dsimp only
      generalize (if bytes[position + 1]?.any isSign = true then position + 1 + 1 else position + 1) = exponentStart at *
      obtain ⟨hrest, hposition⟩ := hstart.runEnd (p := isAsciiDigit)
      have hempty : runEnd isAsciiDigit bytes exponentStart = exponentStart ↔
          (skipOne isSign rest).takeWhile isAsciiDigit = [] := by
        rw [hposition, ← List.length_eq_zero_iff]
        omega
      rw [← hrest.eq_length_iff, ne_eq, ← hempty]
      by_cases heq : runEnd isAsciiDigit bytes exponentStart = exponentStart
      · simp [heq]
      · simp [heq]
    · rw [if_neg (by simpa using hc), mem_exponentSyntax_of_not]
      · exact hend
      · intro c' rest' heq
        obtain ⟨rfl, _⟩ := List.cons.inj heq
        exact Bool.eq_false_of_not_eq_true hc

theorem float64Text_iff_utf8 (value : String) : float64Text value = true ↔
    utf8 value ∈ numberSyntax isAsciiDigit isSign isPoint isExponentMark := by
  have hexponent : Avoids (exponentSyntax isAsciiDigit isSign isExponentMark) isAsciiDigit :=
    exponentSyntax_avoids isExponentMark_apart
  have hsign : Avoids (mantissaSyntax isAsciiDigit isPoint * exponentSyntax isAsciiDigit isSign isExponentMark) isSign := by
    rw [mantissaSyntax, add_mul, mul_assoc, mul_assoc]
    exact (avoids_run_mul isSign_apart.symm).add (avoids_symbol_mul isPoint_apart_isSign)
  have hstart := (rest_zero (utf8 value)).skipOne (p := isSign)
  rw [numberSyntax, mem_opt_symbol_mul hsign]
  rw [float64Text]
  dsimp only
  generalize utf8 value = bytes at *
  generalize (if bytes[0]?.any isSign = true then 0 + 1 else 0) = integerStart at *
  generalize skipOne isSign bytes = w at *
  obtain ⟨hrest, hposition⟩ := hstart.runEnd (p := isAsciiDigit)
  have hinteger : runEnd isAsciiDigit bytes integerStart - integerStart = 0 ↔ w.takeWhile isAsciiDigit = [] := by
    rw [hposition, ← List.length_eq_zero_iff]
    omega
  rw [hrest.getElem?]
  by_cases hpoint : ∃ c rest, w.dropWhile isAsciiDigit = c :: rest ∧ isPoint c = true
  · obtain ⟨c, rest, hw, hc⟩ := hpoint
    rw [hw] at hrest
    obtain ⟨hend, hfraction⟩ := hrest.next.runEnd (p := isAsciiDigit)
    have hfractional : runEnd isAsciiDigit bytes (runEnd isAsciiDigit bytes integerStart + 1) -
        (runEnd isAsciiDigit bytes integerStart + 1) = 0 ↔ rest.takeWhile isAsciiDigit = [] := by
      rw [hfraction, ← List.length_eq_zero_iff]
      omega
    have hhead : (c :: rest).head?.any isPoint = true := by simpa using hc
    rw [hw, if_pos hhead, mem_mantissa_mul_of_point isPoint_apart hexponent
      (exponentSyntax_avoids isExponentMark_apart_isPoint) hw hc, ← exponentText_iff hend, ← hinteger, ← hfractional]
    dsimp only
    split
    · rename_i hnone
      simp [hnone]
    · rename_i hsome
      simp [hsome]
  · have hnot : ∀ c rest, w.dropWhile isAsciiDigit = c :: rest → isPoint c = false := by
      intro c rest hw
      exact Bool.eq_false_of_not_eq_true fun hc => hpoint ⟨c, rest, hw, hc⟩
    have hhead : ¬ (w.dropWhile isAsciiDigit).head?.any isPoint = true := by
      cases hw : w.dropWhile isAsciiDigit with
      | nil => exact Bool.false_ne_true
      | cons c rest => simpa using hnot c rest hw
    rw [if_neg hhead, mem_mantissa_mul_of_not isPoint_apart hexponent hnot, ← exponentText_iff hrest, ne_eq, ← hinteger]
    dsimp only
    split
    · rename_i hnone
      simp [hnone.1]
    · rename_i hsome
      exact (and_iff_right fun hnone => hsome ⟨hnone, rfl⟩).symm

end

/-! ## Bytes and characters -/

def asciiByte (c : Char) : UInt8 := UInt8.ofNat c.toNat

def isAscii (c : Char) : Bool := c.toNat < 128

theorem utf8_ofList_ascii {cs : List Char} (h : ∀ c ∈ cs, isAscii c = true) : utf8 (.ofList cs) = cs.map asciiByte := by
  rw [utf8_ofList]
  induction cs with
  | nil => rfl
  | cons c cs ih =>
    obtain ⟨hc, hcs⟩ := List.forall_mem_cons.1 h
    have hsize : c.utf8Size = 1 := by
      rw [Char.utf8Size_eq_one_iff, UInt32.le_iff_toNat_le]
      exact Nat.le_of_lt_succ (of_decide_eq_true hc)
    rw [List.flatMap_cons, ih hcs, String.utf8EncodeChar_eq_singleton hsize, List.map_cons, asciiByte]
    rfl

theorem utf8_mem_map {l : Language Char} (h : Over l isAscii) (value : String) :
    utf8 value ∈ Language.map asciiByte l ↔ value.toList ∈ l := by
  constructor
  · intro ⟨cs, hcs, heq⟩
    rw [← utf8_ofList_ascii (h cs hcs)] at heq
    rwa [← utf8_injective heq, String.toList_ofList]
  · intro hvalue
    refine ⟨value.toList, hvalue, ?_⟩
    rw [← utf8_ofList_ascii (h _ hvalue), String.ofList_toList]

theorem maps_or (a b : Char) : Maps asciiByte (fun c => c = a || c = b)
    fun c => decide (c = asciiByte a) || decide (c = asciiByte b) := by
  intro c
  constructor
  · intro hc
    rcases (Bool.or_eq_true ..).mp hc with hc | hc
    · exact ⟨a, by simp, (of_decide_eq_true hc).symm⟩
    · exact ⟨b, by simp, (of_decide_eq_true hc).symm⟩
  · intro ⟨c', hc', heq⟩
    subst heq
    rcases (Bool.or_eq_true ..).mp hc' with hc' | hc'
    · rw [of_decide_eq_true hc']
      simp
    · rw [of_decide_eq_true hc']
      simp

theorem maps_isDigit : Maps asciiByte Char.isDigit isAsciiDigit := by
  intro b
  rw [isAsciiDigit, Bool.and_eq_true, decide_eq_true_iff, decide_eq_true_iff, UInt8.le_iff_toNat_le, UInt8.le_iff_toNat_le]
  constructor
  · intro ⟨hlow, hhigh⟩
    have hlow : 48 ≤ b.toNat := hlow
    have hhigh : b.toNat ≤ 57 := hhigh
    have hchar : (Nat.digitChar (b.toNat - 48)).toNat = b.toNat := by
      rw [Nat.toNat_digitChar_of_lt_ten (by omega)]
      omega
    refine ⟨Nat.digitChar (b.toNat - 48), Char.isDigit_iff_toNat.2 ?_, ?_⟩
    · rw [hchar]
      exact ⟨hlow, hhigh⟩
    · rw [asciiByte, hchar, UInt8.ofNat_toNat]
  · intro ⟨c, hc, heq⟩
    subst heq
    obtain ⟨hlow, hhigh⟩ := Char.isDigit_iff_toNat.1 hc
    have hbyte : (asciiByte c).toNat = c.toNat := UInt8.toNat_ofNat_of_lt' (Nat.lt_of_le_of_lt hhigh (by decide))
    rw [hbyte]
    exact ⟨hlow, hhigh⟩

theorem isAscii_of_or {a b : Char} (ha : isAscii a = true) (hb : isAscii b = true) (c : Char)
    (h : (decide (c = a) || decide (c = b)) = true) : isAscii c = true := by
  rcases (Bool.or_eq_true ..).mp h with h | h
  · rwa [of_decide_eq_true h]
  · rwa [of_decide_eq_true h]

theorem float64Syntax_over : Over float64Syntax isAscii := by
  have hdigits : Over (run Char.isDigit) isAscii := by
    apply over_run
    intro c hc
    exact decide_eq_true (Nat.lt_of_le_of_lt (Char.isDigit_iff_toNat.1 hc).2 (by decide))
  have hsign : Over (symbol fun c : Char => c = '+' || c = '-') isAscii := over_symbol (isAscii_of_or rfl rfl)
  have hmark : Over (symbol fun c : Char => c = 'e' || c = 'E') isAscii := over_symbol (isAscii_of_or rfl rfl)
  have hpoint : Over (symbol fun c : Char => c = '.') isAscii := by
    apply over_symbol
    intro c hc
    rw [of_decide_eq_true hc]
    rfl
  have hmantissa := (hdigits.mul (hpoint.mul hdigits.opt).opt).add (hpoint.mul hdigits)
  exact hsign.opt.mul (hmantissa.mul (hmark.mul (hsign.opt.mul hdigits)).opt)

theorem map_float64Syntax :
    Language.map asciiByte float64Syntax = numberSyntax isAsciiDigit isSign isPoint isExponentMark := by
  have hsign : Maps asciiByte (fun c => c = '+' || c = '-') isSign := maps_or '+' '-'
  have hmark : Maps asciiByte (fun c => c = 'e' || c = 'E') isExponentMark := maps_or 'e' 'E'
  have hpoint : Maps asciiByte (fun c => c = '.') isPoint := by
    have := maps_or '.' '.'
    simp only [Bool.or_self] at this
    exact this
  rw [float64Syntax, numberSyntax, numberSyntax, mantissaSyntax, mantissaSyntax, exponentSyntax, exponentSyntax]
  simp only [map_mul, map_add, map_opt, map_symbol hsign, map_symbol hmark, map_symbol hpoint, map_run maps_isDigit]

/-- **The scanner decides the grammar.** -/
theorem float64Text_iff (value : String) : float64Text value = true ↔ value.toList ∈ float64Syntax := by
  rw [float64Text_iff_utf8, ← map_float64Syntax, utf8_mem_map float64Syntax_over]

end RustHouse.Batch.ScalarCast
