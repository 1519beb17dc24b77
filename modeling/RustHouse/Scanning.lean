import Mathlib.Computability.Language
import Mathlib.Order.CompletePartialOrder

/-!
# Scanning without looking back

A scanner walks along its input and skips what it may. It decides a language
where what comes next never begins with what was skipped, so that no other
choice could have succeeded.
-/

namespace Scanning

variable {α β : Type}

/-! ## Languages -/

def symbol (p : α → Bool) : Language α := {w | ∃ c, p c = true ∧ w = [c]}

/-- One or more symbols of a class. -/
def run (p : α → Bool) : Language α := {w | w ≠ [] ∧ ∀ c ∈ w, p c = true}

def opt (l : Language α) : Language α := 1 + l

/-- No word of the language begins with the class. -/
def Avoids (l : Language α) (p : α → Bool) : Prop := ∀ c w, c :: w ∈ l → p c = false

/-- No symbol is in both classes. -/
def Apart (p q : α → Bool) : Prop := ∀ c, p c = true → q c = false

def skipOne (p : α → Bool) : List α → List α
  | [] => []
  | c :: rest => if p c then rest else c :: rest

section
variable {p q : α → Bool} {l m : Language α} {w : List α}

theorem mem_symbol_mul : w ∈ symbol p * l ↔ ∃ c rest, w = c :: rest ∧ p c = true ∧ rest ∈ l := by
  rw [Language.mem_mul]
  constructor
  · intro ⟨_, ⟨c, hc, ha⟩, rest, hrest, hw⟩
    subst ha
    exact ⟨c, rest, hw.symm, hc, hrest⟩
  · intro ⟨c, rest, hw, hc, hrest⟩
    exact ⟨[c], ⟨c, hc, rfl⟩, rest, hrest, hw.symm⟩

theorem mem_opt_mul : w ∈ opt l * m ↔ w ∈ m ∨ w ∈ l * m := by
  rw [opt, add_mul, one_mul, Language.mem_add]

theorem mem_opt_symbol_mul (h : Avoids l p) : w ∈ opt (symbol p) * l ↔ skipOne p w ∈ l := by
  rw [mem_opt_mul, mem_symbol_mul]
  cases w with
  | nil => simp [skipOne]
  | cons c rest =>
    by_cases hc : p c = true
    · have hnot : c :: rest ∉ l := by
        intro hmem
        rw [h c rest hmem] at hc
        cases hc
      simp [skipOne, hc, hnot]
    · simp [skipOne, hc]

theorem takeWhile_append_of_avoids (hrun : ∀ c ∈ w, p c = true) (hl : Avoids l p) {rest : List α} (hrest : rest ∈ l) :
    (w ++ rest).takeWhile p = w ∧ (w ++ rest).dropWhile p = rest := by
  rw [List.takeWhile_append_of_pos hrun, List.dropWhile_append_of_pos hrun]
  cases rest with
  | nil => simp
  | cons c rest =>
    have hc : ¬ p c = true := by
      rw [hl c rest hrest]
      exact Bool.false_ne_true
    rw [List.takeWhile_cons_of_neg hc, List.dropWhile_cons_of_neg hc, List.append_nil]
    exact ⟨rfl, rfl⟩

theorem mem_run_mul (h : Avoids l p) : w ∈ run p * l ↔ w.takeWhile p ≠ [] ∧ w.dropWhile p ∈ l := by
  rw [Language.mem_mul]
  constructor
  · intro ⟨digits, ⟨hne, hdigits⟩, rest, hrest, hw⟩
    obtain ⟨htake, hdrop⟩ := takeWhile_append_of_avoids hdigits h hrest
    rw [← hw, htake, hdrop]
    exact ⟨hne, hrest⟩
  · intro ⟨hne, hrest⟩
    exact ⟨_, ⟨hne, fun c hc => List.all_eq_true.1 List.all_takeWhile c hc⟩, _, hrest, List.takeWhile_append_dropWhile⟩

theorem mem_opt_run_mul (h : Avoids l p) : w ∈ opt (run p) * l ↔ w.dropWhile p ∈ l := by
  rw [mem_opt_mul, mem_run_mul h]
  constructor
  · intro hw
    rcases hw with hw | hw
    · obtain ⟨_, hdrop⟩ := takeWhile_append_of_avoids (List.forall_mem_nil _) h hw
      rw [List.nil_append] at hdrop
      rwa [hdrop]
    · exact hw.2
  · intro hw
    by_cases hne : w.takeWhile p = []
    · have hdrop := List.takeWhile_append_dropWhile (p := p) (l := w)
      rw [hne, List.nil_append] at hdrop
      exact .inl (hdrop ▸ hw)
    · exact .inr ⟨hne, hw⟩

/-! ## First symbols -/

theorem Apart.symm (h : Apart p q) : Apart q p := by
  intro c hq
  cases hp : p c with
  | false => rfl
  | true => rw [h c hp] at hq; cases hq

theorem avoids_one : Avoids (1 : Language α) p := by
  intro c w h
  cases (Language.mem_one _).1 h

theorem Avoids.add (hl : Avoids l p) (hm : Avoids m p) : Avoids (l + m) p := by
  intro c w h
  rcases (Language.mem_add ..).1 h with h | h
  · exact hl c w h
  · exact hm c w h

theorem avoids_symbol_mul (h : Apart q p) : Avoids (symbol q * l) p := by
  intro c w hmem
  obtain ⟨c', rest, hw, hc, _⟩ := mem_symbol_mul.1 hmem
  obtain ⟨rfl, _⟩ := List.cons.inj hw
  exact h c hc

theorem avoids_run_mul (h : Apart q p) : Avoids (run q * l) p := by
  intro c w hmem
  obtain ⟨digits, ⟨hne, hdigits⟩, rest, _, hw⟩ := Language.mem_mul.1 hmem
  cases digits with
  | nil => exact absurd rfl hne
  | cons c' digits =>
    obtain ⟨rfl, _⟩ := List.cons.inj hw
    exact h c' (hdigits c' (List.mem_cons_self ..))

theorem Avoids.opt_mul (hl : Avoids (l * m) p) (hm : Avoids m p) : Avoids (opt l * m) p := by
  rw [opt, add_mul, one_mul]
  exact hm.add hl

end

/-! ## Symbols -/

/-- Words of the language have symbols of the class only. -/
def Over (l : Language α) (p : α → Bool) : Prop := ∀ w ∈ l, ∀ c ∈ w, p c = true

section
variable {p q : α → Bool} {l m : Language α}

theorem over_symbol (h : ∀ c, q c = true → p c = true) : Over (symbol q) p := by
  intro w ⟨c, hc, hw⟩
  subst hw
  exact List.forall_mem_singleton.2 (h c hc)

theorem over_run (h : ∀ c, q c = true → p c = true) : Over (run q) p := fun _ hw c hc => h c (hw.2 c hc)

theorem Over.mul (hl : Over l p) (hm : Over m p) : Over (l * m) p := by
  intro w hw
  obtain ⟨a, ha, b, hb, hab⟩ := Language.mem_mul.1 hw
  subst hab
  exact List.forall_mem_append.2 ⟨hl a ha, hm b hb⟩

theorem Over.add (hl : Over l p) (hm : Over m p) : Over (l + m) p := by
  intro w hw
  rcases (Language.mem_add ..).1 hw with hw | hw
  · exact hl w hw
  · exact hm w hw

theorem Over.opt (hl : Over l p) : Over (opt l) p := by
  refine Over.add (fun w hw => ?_) hl
  rw [(Language.mem_one w).1 hw]
  exact List.forall_mem_nil _

end

/-! ## Another alphabet -/

section
variable {p : α → Bool} {q : β → Bool} {f : α → β}

/-- The second class is the image of the first. -/
def Maps (f : α → β) (p : α → Bool) (q : β → Bool) : Prop := ∀ b, q b = true ↔ ∃ a, p a = true ∧ f a = b

theorem map_symbol (h : Maps f p q) : Language.map f (symbol p) = symbol q := by
  ext w
  constructor
  · intro ⟨_, ⟨c, hc, hv⟩, hw⟩
    subst hv
    exact ⟨f c, (h _).2 ⟨c, hc, rfl⟩, hw.symm⟩
  · intro ⟨b, hb, hw⟩
    obtain ⟨c, hc, rfl⟩ := (h b).1 hb
    exact ⟨[c], ⟨c, hc, rfl⟩, hw.symm⟩

theorem map_run (h : Maps f p q) : Language.map f (run p) = run q := by
  have hlift : ∀ w : List β, (∀ b ∈ w, q b = true) → ∃ v : List α, (∀ c ∈ v, p c = true) ∧ v.map f = w := by
    intro w
    induction w with
    | nil => exact fun _ => ⟨[], List.forall_mem_nil _, rfl⟩
    | cons b w ih =>
      intro hw
      obtain ⟨hb, hw'⟩ := List.forall_mem_cons.1 hw
      obtain ⟨c, hc, rfl⟩ := (h b).1 hb
      obtain ⟨v, hv, rfl⟩ := ih hw'
      exact ⟨c :: v, List.forall_mem_cons.2 ⟨hc, hv⟩, rfl⟩
  ext w
  constructor
  · intro ⟨v, ⟨hne, hv⟩, hw⟩
    subst hw
    refine ⟨fun hnil => hne (List.map_eq_nil_iff.1 hnil), fun b hb => ?_⟩
    obtain ⟨c, hc, rfl⟩ := List.mem_map.1 hb
    exact (h _).2 ⟨c, hv c hc, rfl⟩
  · intro ⟨hne, hw⟩
    obtain ⟨v, hv, rfl⟩ := hlift w hw
    exact ⟨v, ⟨fun hnil => hne (hnil ▸ rfl), hv⟩, rfl⟩

theorem map_opt (l : Language α) : Language.map f (opt l) = opt (Language.map f l) := by
  rw [opt, map_add, map_one, opt]

end

/-! ## Positions -/

section
variable {p : α → Bool} {input rest : List α} {position : Nat}

def runEnd (p : α → Bool) (input : List α) (position : Nat) : Nat :=
  if h : position < input.length then if p input[position] then runEnd p input (position + 1) else position
  else position
termination_by input.length - position

def Rest (input : List α) (position : Nat) (rest : List α) : Prop :=
  ∃ scanned, input = scanned ++ rest ∧ scanned.length = position

theorem rest_zero (input : List α) : Rest input 0 input := ⟨[], rfl, rfl⟩

namespace Rest

theorem getElem? (h : Rest input position rest) : input[position]? = rest.head? := by
  obtain ⟨scanned, rfl, rfl⟩ := h
  rw [List.getElem?_append_right (Nat.le_refl _), Nat.sub_self, List.head?_eq_getElem?]

theorem next {c : α} (h : Rest input position (c :: rest)) : Rest input (position + 1) rest := by
  obtain ⟨scanned, rfl, rfl⟩ := h
  exact ⟨scanned ++ [c], (List.append_cons ..), by rw [List.length_append]; rfl⟩

theorem eq_length_iff (h : Rest input position rest) : position = input.length ↔ rest = [] := by
  obtain ⟨scanned, rfl, rfl⟩ := h
  rw [List.length_append, ← List.length_eq_zero_iff]
  omega

theorem skipOne (h : Rest input position rest) :
    Rest input (if input[position]?.any p then position + 1 else position) (Scanning.skipOne p rest) := by
  rw [h.getElem?]
  cases rest with
  | nil => exact h
  | cons c rest =>
    by_cases hc : p c = true
    · simpa [Scanning.skipOne, hc] using h.next
    · simpa [Scanning.skipOne, hc] using h

theorem runEnd (h : Rest input position rest) :
    Rest input (Scanning.runEnd p input position) (rest.dropWhile p) ∧
      Scanning.runEnd p input position = position + (rest.takeWhile p).length := by
  induction rest generalizing position with
  | nil =>
    have hend : ¬ position < input.length := by
      rw [h.eq_length_iff.2 rfl]
      exact Nat.lt_irrefl _
    rw [Scanning.runEnd, dif_neg hend]
    exact ⟨h, rfl⟩
  | cons c rest ih =>
    have hget := h.getElem?
    obtain ⟨hlt, hc⟩ := List.getElem?_eq_some_iff.1 hget
    rw [Scanning.runEnd, dif_pos hlt, hc]
    by_cases hp : p c = true
    · obtain ⟨hrest, hposition⟩ := ih h.next
      rw [if_pos hp, List.dropWhile_cons_of_pos hp, List.takeWhile_cons_of_pos hp, List.length_cons]
      exact ⟨hrest, by omega⟩
    · rw [if_neg hp, List.dropWhile_cons_of_neg hp, List.takeWhile_cons_of_neg hp]
      exact ⟨h, rfl⟩

end Rest

end

end Scanning
