import RustHouse.Delimited
import RustHouse.JsonUnambiguous

/-!
# Texts of values

A text renders a value if the value is read from it whatever follows. Rendering
composes along arrays and objects whose parts are joined by commas. Without
whitespace between its parts such a text has no control character in it.
-/

namespace JsonGrammar

open Delimited

variable {ws : Char → Bool}

def Renders (ws : Char → Bool) (text : List Char) (j : Json) : Prop := ∀ r, Derives ws .value (text ++ r) j r

def RendersMember (ws : Char → Bool) (text : List Char) (m : List Nat × Json) : Prop :=
  ∀ r, Derives ws .member (text ++ r) (.object [m]) r

/-- Between two quotes. -/
def RendersString (text : List Char) (codes : List Nat) : Prop := ∀ r, StringRest (text ++ r) codes r

theorem Renders.text {text : List Char} {j : Json} (h : Renders ws text j) : Text ws text j := by
  have hvalue := h []
  rw [List.append_nil] at hvalue
  exact .element .nil hvalue .nil

section
variable {α : Type} {f : α → List Char} {l : List α}

theorem derives_elements {g : α → Json} (h : ∀ a ∈ l, Renders ws (f a) (g a)) (hne : l ≠ []) (r : List Char) :
    Derives ws .elements (join ',' (l.map f) ++ r) (.array (l.map g)) r := by
  induction l with
  | nil => exact absurd rfl hne
  | cons a l ih =>
    obtain ⟨ha, hl⟩ := List.forall_mem_cons.1 h
    by_cases hnil : l = []
    · subst hnil
      exact .lastElement (.element .nil (ha r) .nil)
    · have hfields : l.map f ≠ [] := fun hmap => hnil (List.map_eq_nil_iff.1 hmap)
      rw [List.map_cons, join_cons _ _ hfields, List.append_assoc, List.cons_append]
      exact .moreElements (.element .nil (ha _) .nil) (ih hl hnil)

theorem renders_array {g : α → Json} (h : ∀ a ∈ l, Renders ws (f a) (g a)) :
    Renders ws ('[' :: (join ',' (l.map f) ++ [']'])) (.array (l.map g)) := by
  intro r
  rw [List.cons_append, List.append_assoc]
  by_cases hnil : l = []
  · subst hnil
    exact .emptyArray .nil
  · exact .array (derives_elements h hnil _)

theorem derives_members {g : α → List Nat × Json} (h : ∀ a ∈ l, RendersMember ws (f a) (g a)) (hne : l ≠ [])
    (r : List Char) : Derives ws .members (join ',' (l.map f) ++ r) (.object (l.map g)) r := by
  induction l with
  | nil => exact absurd rfl hne
  | cons a l ih =>
    obtain ⟨ha, hl⟩ := List.forall_mem_cons.1 h
    by_cases hnil : l = []
    · subst hnil
      exact .lastMember (ha r)
    · have hfields : l.map f ≠ [] := fun hmap => hnil (List.map_eq_nil_iff.1 hmap)
      rw [List.map_cons, join_cons _ _ hfields, List.append_assoc, List.cons_append]
      exact .moreMembers (ha _) (ih hl hnil)

theorem renders_object {g : α → List Nat × Json} (h : ∀ a ∈ l, RendersMember ws (f a) (g a)) :
    Renders ws ('\x7b' :: (join ',' (l.map f) ++ ['\x7d'])) (.object (l.map g)) := by
  intro r
  rw [List.cons_append, List.append_assoc]
  by_cases hnil : l = []
  · subst hnil
    exact .emptyObject .nil
  · exact .object (derives_members h hnil _)

end

theorem renders_member {key text : List Char} {codes : List Nat} {j : Json} (hkey : RendersString key codes)
    (htext : Renders ws text j) : RendersMember ws ('"' :: (key ++ ':' :: text)) (codes, j) := by
  intro r
  rw [List.cons_append, List.append_assoc, List.cons_append]
  exact .member .nil (hkey _) .nil (.element .nil (htext r) .nil)

theorem renders_string {text : List Char} {codes : List Nat} (h : RendersString text codes) :
    Renders ws ('"' :: text) (.string codes) := fun r => .string (h r)

theorem renders_number {literal : List Char} (h : Number literal []) : Renders ws literal (.number literal) :=
  fun r => .number (h.append r)

/-! ## Control characters -/

/-- In front of `r` there is no control character. -/
def Printable (t r : List Char) : Prop := ∃ s, t = s ++ r ∧ ∀ c ∈ s, 0x20 ≤ c.toNat

variable {t u r : List Char}

theorem Printable.nil : Printable r r := ⟨[], rfl, List.forall_mem_nil _⟩

theorem Printable.cons {c : Char} (hc : 0x20 ≤ c.toNat) (h : Printable t r) : Printable (c :: t) r := by
  obtain ⟨s, rfl, hs⟩ := h
  exact ⟨c :: s, rfl, List.forall_mem_cons.2 ⟨hc, hs⟩⟩

theorem Printable.trans (h : Printable t u) (h' : Printable u r) : Printable t r := by
  obtain ⟨s, rfl, hs⟩ := h
  obtain ⟨s', rfl, hs'⟩ := h'
  exact ⟨s ++ s', (List.append_assoc ..).symm, List.forall_mem_append.2 ⟨hs, hs'⟩⟩

theorem Many.printable {p : Char → Bool} (hp : ∀ c, p c = true → 0x20 ≤ c.toNat) (h : Many p t r) : Printable t r := by
  obtain ⟨s, rfl, hs⟩ := h.suffix
  exact ⟨s, rfl, fun c hc => hp c (hs c hc)⟩

theorem digit_printable (c : Char) (hc : isDigit c = true) : 0x20 ≤ c.toNat := by
  simp only [isDigit, Bool.and_eq_true, decide_eq_true_eq] at hc
  exact Nat.le_trans (by decide) (show '0'.toNat ≤ c.toNat from hc.1)

theorem Number.printable (h : Number t r) : Printable t r := by
  have hdigits {c : Char} {t r : List Char} (hc : isDigit c = true) (h : Many isDigit t r) : Printable (c :: t) r :=
    .cons (digit_printable c hc) (h.printable digit_printable)
  have hinteger {t u : List Char} (h : Integer t u) : Printable t u := by
    cases h with
    | zero => exact .cons (by decide) .nil
    | nonzero hc _ hmany => exact hdigits hc hmany
  have hfraction {t u : List Char} (h : Fraction t u) : Printable t u := by
    cases h with
    | absent => exact .nil
    | digits hc hmany => exact .cons (by decide) (hdigits hc hmany)
  have hexponent {t u : List Char} (h : Exponent t u) : Printable t u := by
    have hmark {e : Char} (he : isExponent e = true) : 0x20 ≤ e.toNat := by
      simp only [isExponent, Bool.or_eq_true, beq_iff_eq] at he
      obtain rfl | rfl := he <;> decide
    have hsign {s : Char} (hs : isSign s = true) : 0x20 ≤ s.toNat := by
      simp only [isSign, Bool.or_eq_true, beq_iff_eq] at hs
      obtain rfl | rfl := hs <;> decide
    cases h with
    | absent => exact .nil
    | digits he hc hmany => exact .cons (hmark he) (hdigits hc hmany)
    | signed he hs hc hmany => exact .cons (hmark he) (.cons (hsign hs) (hdigits hc hmany))
  cases h with
  | positive h₁ h₂ h₃ => exact ((hinteger h₁).trans (hfraction h₂)).trans (hexponent h₃)
  | negative h₁ h₂ h₃ => exact .cons (by decide) (((hinteger h₁).trans (hfraction h₂)).trans (hexponent h₃))

theorem StringRest.printable {codes : List Nat} (h : StringRest t codes r) : Printable t r := by
  have hhex {c : Char} {n : Nat} (hc : hexValue c = some n) : 0x20 ≤ c.toNat := by
    have hle {d : Char} (hd : 0x20 ≤ d.toNat) (hdc : d ≤ c) : 0x20 ≤ c.toNat := Nat.le_trans hd (show d.toNat ≤ c.toNat from hdc)
    unfold hexValue at hc
    split at hc
    · rename_i hrange
      exact hle (by decide) hrange.1
    split at hc
    · rename_i hrange
      exact hle (by decide) hrange.1
    split at hc
    · rename_i hrange
      exact hle (by decide) hrange.1
    · cases hc
  have hescape {c : Char} {n : Nat} (hc : escapeCode c = some n) : 0x20 ≤ c.toNat := by
    unfold escapeCode at hc
    repeat' split at hc
    all_goals first | cases hc; done | subst c; decide
  induction h with
  | close => exact .cons (by decide) .nil
  | plain hc _ ih =>
    simp only [isUnescaped, Bool.and_eq_true, decide_eq_true_eq] at hc
    exact .cons hc.1.1 ih
  | escape hcode _ ih => exact .cons (by decide) (.cons (hescape hcode) ih)
  | unicode ha hb hc hd _ ih =>
    exact .cons (by decide) (.cons (by decide) (.cons (hhex ha) (.cons (hhex hb) (.cons (hhex hc) (.cons (hhex hd) ih)))))

/-- Without whitespace between its parts a text has no control character. -/
theorem Derives.printable {symbol : Symbol} {j : Json} (h : Derives (fun _ => .false) symbol t j r) : Printable t r := by
  have hmany {t r : List Char} (h : Many (fun _ => .false) t r) : Printable t r := h.printable fun _ hc => by cases hc
  induction h with
  | null => exact .cons (by decide) (.cons (by decide) (.cons (by decide) (.cons (by decide) .nil)))
  | true => exact .cons (by decide) (.cons (by decide) (.cons (by decide) (.cons (by decide) .nil)))
  | false => exact .cons (by decide) (.cons (by decide) (.cons (by decide) (.cons (by decide) (.cons (by decide) .nil))))
  | number hnumber => exact hnumber.printable
  | string hcodes => exact .cons (by decide) hcodes.printable
  | emptyArray hspace | emptyObject hspace => exact .cons (by decide) ((hmany hspace).trans (.cons (by decide) .nil))
  | array _ ih | object _ ih => exact .cons (by decide) (ih.trans (.cons (by decide) .nil))
  | element hspace _ hbehind ih => exact ((hmany hspace).trans ih).trans (hmany hbehind)
  | lastElement _ ih | lastMember _ ih => exact ih
  | moreElements _ _ ih ihs | moreMembers _ _ ih ihs => exact (ih.trans (.cons (by decide) .nil)).trans ihs
  | member hspace hcodes hcolon _ ih =>
    exact ((hmany hspace).trans (.cons (by decide) hcodes.printable)).trans
      (((hmany hcolon).trans (.cons (by decide) .nil)).trans ih)

end JsonGrammar
