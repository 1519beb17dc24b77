import Mathlib.Data.Char
import RustHouse.Exec
import RustHouse.Scanning

/-!
# Byte positions in a text

A text is scanned by its bytes and sliced between byte positions; a slice that
would split a character panics. A scan that treats all bytes of a character
alike stops between characters only.
-/

namespace TextPositions

open Exec Scanning Words

/-- `str::split_at_checked`: a text is cut between characters. -/
def splitAtByte : Nat → List Char → Option (List Char × List Char)
  | 0, text => some ([], text)
  | _ + 1, [] => none
  | n + 1, c :: text =>
    if c.utf8Size ≤ n + 1 then (splitAtByte (n + 1 - c.utf8Size) text).map fun parts => (c :: parts.1, parts.2) else none

/-- `&input[start..stop]`. -/
def strSlice {ε : Type} (input : String) (start stop : Nat) : Exec ε String := do
  let (before, _) ← orPanic (splitAtByte stop input.toList)
  let (_, text) ← orPanic (splitAtByte start before)
  .ok (.ofList text)

/-! ## Characters and their bytes -/

def byteLen (text : List Char) : Nat := (text.map Char.utf8Size).sum

/-- All bytes of a character are in the first class, or none is, as the character is in the second. -/
def Classifies (p : UInt8 → Bool) (q : Char → Bool) : Prop := ∀ c, ∀ b ∈ String.utf8EncodeChar c, p b = q c

section
variable {p p' : UInt8 → Bool} {q q' : Char → Bool} {c : Char} {text rest : List Char}

@[simp] theorem byteLen_nil : byteLen [] = 0 := rfl

@[simp] theorem byteLen_cons (c : Char) (text : List Char) : byteLen (c :: text) = c.utf8Size + byteLen text := rfl

@[simp] theorem byteLen_append (a b : List Char) : byteLen (a ++ b) = byteLen a + byteLen b := by
  rw [byteLen, List.map_append, List.sum_append, byteLen, byteLen]

theorem length_bytes (text : List Char) : (text.flatMap String.utf8EncodeChar).length = byteLen text := by
  induction text with
  | nil => rfl
  | cons c text ih => rw [List.flatMap_cons, List.length_append, ih, String.length_utf8EncodeChar, byteLen_cons]

theorem byteLen_eq_zero : byteLen text = 0 ↔ text = [] := by
  cases text with
  | nil => simp
  | cons c text =>
    have hpos := c.utf8Size_pos
    simp only [byteLen_cons, reduceCtorEq, iff_false]
    omega

theorem splitAtByte_append (text rest : List Char) : splitAtByte (byteLen text) (text ++ rest) = some (text, rest) := by
  induction text with
  | nil => rw [byteLen_nil, List.nil_append, splitAtByte]
  | cons c text ih =>
    obtain ⟨n, hn⟩ := Nat.exists_eq_succ_of_ne_zero (Nat.ne_of_gt (Nat.add_pos_left c.utf8Size_pos (byteLen text)))
    have hrest : n + 1 - c.utf8Size = byteLen text := by omega
    rw [byteLen_cons, hn, List.cons_append, splitAtByte, if_pos (by omega), hrest, ih]
    rfl

theorem toNat_toUInt8 (h : c.toNat < 128) : c.toUInt8.toNat = c.toNat := by
  rw [Char.toUInt8, UInt32.toNat_toUInt8]
  exact Nat.mod_eq_of_lt (Nat.lt_of_lt_of_le h (by decide))

theorem toUInt8_le_iff {d : Char} (hc : c.toNat < 128) (hd : d.toNat < 128) : c.toUInt8 ≤ d.toUInt8 ↔ c ≤ d := by
  rw [UInt8.le_iff_toNat_le, toNat_toUInt8 hc, toNat_toUInt8 hd]
  rfl

theorem ascii_or (c : Char) : (c.toNat < 128 ∧ String.utf8EncodeChar c = [c.toUInt8]) ∨
    (128 ≤ c.toNat ∧ ∀ b ∈ String.utf8EncodeChar c, 128 ≤ b.toNat) := by
  by_cases h : c.toNat < 128
  · refine .inl ⟨h, String.utf8EncodeChar_eq_singleton ?_⟩
    rw [Char.utf8Size_eq_one_iff, UInt32.le_iff_toNat_le]
    exact Nat.le_of_lt_succ h
  · refine .inr ⟨Nat.le_of_not_lt h, ?_⟩
    have hval : ¬ c.val.toNat ≤ 127 := fun hle => h (Nat.lt_succ_of_le hle)
    unfold String.utf8EncodeChar
    intro b hb
    simp only [hval, if_false] at hb
    split at hb
    · simp only [List.mem_cons, List.not_mem_nil, or_false] at hb
      rcases hb with rfl | rfl <;> rw [UInt8.toNat_ofNat'] <;> omega
    · split at hb
      · simp only [List.mem_cons, List.not_mem_nil, or_false] at hb
        rcases hb with rfl | rfl | rfl <;> rw [UInt8.toNat_ofNat'] <;> omega
      · simp only [List.mem_cons, List.not_mem_nil, or_false] at hb
        rcases hb with rfl | rfl | rfl | rfl <;> rw [UInt8.toNat_ofNat'] <;> omega

/-! ## Classes -/

theorem Classifies.or (h : Classifies p q) (h' : Classifies p' q') :
    Classifies (fun b => p b || p' b) (fun c => q c || q' c) := by
  intro c b hb
  dsimp only
  rw [h c b hb, h' c b hb]

theorem Classifies.not (h : Classifies p q) : Classifies (fun b => ¬ p b) (fun c => ¬ q c) := by
  intro c b hb
  dsimp only
  rw [h c b hb]

theorem classifies_byte (hc : c.toNat < 128) : Classifies (fun b => b = c.toUInt8) (fun d => d = c) := by
  intro d b hb
  have hbyte := toNat_toUInt8 hc
  rcases ascii_or d with ⟨hd, hbytes⟩ | ⟨hd, hbytes⟩
  · rw [hbytes, List.mem_singleton] at hb
    subst hb
    rw [decide_eq_decide, ← UInt8.toNat_inj, hbyte, toNat_toUInt8 hd, Char.toNat_inj]
  · have hlarge := hbytes b hb
    have hne : b ≠ c.toUInt8 := by
      intro heq
      rw [heq] at hlarge
      omega
    have hne' : d ≠ c := by
      intro heq
      rw [heq] at hd
      omega
    simp [hne, hne']

theorem classifies_range {lo hi : Char} (hlo : lo.toNat < 128) (hhi : hi.toNat < 128) :
    Classifies (fun b => lo.toUInt8 ≤ b && b ≤ hi.toUInt8) (fun d => decide (lo ≤ d) && decide (d ≤ hi)) := by
  intro d b hb
  dsimp only
  rcases ascii_or d with ⟨hd, hbytes⟩ | ⟨hd, hbytes⟩
  · rw [hbytes, List.mem_singleton] at hb
    subst hb
    rw [decide_eq_decide.2 (toUInt8_le_iff hlo hd), decide_eq_decide.2 (toUInt8_le_iff hd hhi)]
  · have hlarge := hbytes b hb
    have hnot : ¬ b ≤ hi.toUInt8 := by
      rw [UInt8.le_iff_toNat_le, toNat_toUInt8 hhi]
      omega
    have hnot' : ¬ d ≤ hi := by
      intro hle
      have : d.toNat ≤ hi.toNat := hle
      omega
    simp [hnot, hnot']

theorem takeWhile_bytes (h : Classifies p q) (text : List Char) :
    (text.flatMap String.utf8EncodeChar).takeWhile p = (text.takeWhile q).flatMap String.utf8EncodeChar := by
  induction text with
  | nil => rfl
  | cons c text ih =>
    rw [List.flatMap_cons]
    by_cases hc : q c = true
    · rw [List.takeWhile_append_of_pos (fun b hb => (h c b hb).trans hc), ih, List.takeWhile_cons_of_pos hc,
        List.flatMap_cons]
    · rw [List.takeWhile_cons_of_neg hc]
      cases hbytes : String.utf8EncodeChar c with
      | nil => exact absurd hbytes String.utf8EncodeChar_ne_nil
      | cons b bytes =>
        have hb : ¬ p b = true := by
          rw [h c b (hbytes ▸ List.mem_cons_self ..)]
          exact hc
        rw [List.cons_append, List.takeWhile_cons_of_neg hb]
        rfl

theorem all_bytes (h : Classifies p q) (text : List Char) : (text.flatMap String.utf8EncodeChar).all p = text.all q := by
  induction text with
  | nil => rfl
  | cons c text ih =>
    have hc : (String.utf8EncodeChar c).all p = q c := by
      cases hbytes : String.utf8EncodeChar c with
      | nil => exact absurd hbytes String.utf8EncodeChar_ne_nil
      | cons b bytes =>
        rw [← hbytes]
        cases hq : q c with
        | true => exact List.all_eq_true.2 fun b hb => (h c b hb).trans hq
        | false =>
          refine List.all_eq_false.2 ⟨b, hbytes ▸ List.mem_cons_self .., ?_⟩
          rw [h c b (hbytes ▸ List.mem_cons_self ..), hq]
          exact Bool.false_ne_true
    rw [List.flatMap_cons, List.all_append, hc, ih, List.all_cons]

end

/-! ## Positions -/

/-- What is left of the input behind as many bytes. -/
def At (input : String) (position : Nat) (text : List Char) : Prop :=
  ∃ before, input.toList = before ++ text ∧ byteLen before = position

/-- A position between two characters, or at either end. -/
def Boundary (input : String) (position : Nat) : Prop := ∃ text, At input position text

theorem at_zero (input : String) : At input 0 input.toList := ⟨[], rfl, rfl⟩

theorem bytes_eq (input : String) : utf8 input = input.toList.flatMap String.utf8EncodeChar := by
  rw [← utf8_ofList, String.ofList_toList]

theorem Boundary.le_length {input : String} {position : Nat} (h : Boundary input position) :
    position ≤ (utf8 input).length := by
  obtain ⟨text, before, hinput, rfl⟩ := h
  rw [bytes_eq, length_bytes, hinput, byteLen_append]
  exact Nat.le_add_right _ _

namespace At

section
variable {p : UInt8 → Bool} {q : Char → Bool} {c : Char} {input : String} {position : Nat} {a b text : List Char}

theorem boundary (h : At input position text) : Boundary input position := ⟨text, h⟩

theorem rest (h : At input position text) : Rest (utf8 input) position (text.flatMap String.utf8EncodeChar) := by
  obtain ⟨before, hinput, rfl⟩ := h
  exact ⟨before.flatMap String.utf8EncodeChar, by rw [bytes_eq, hinput, List.flatMap_append], length_bytes before⟩

theorem advance (h : At input position (a ++ b)) : At input (position + byteLen a) b := by
  obtain ⟨before, hinput, rfl⟩ := h
  exact ⟨before ++ a, by rw [hinput, List.append_assoc], byteLen_append before a⟩

theorem runEnd_eq (h : At input position text) (hp : Classifies p q) :
    runEnd p (utf8 input) position = position + byteLen (text.takeWhile q) := by
  rw [(h.rest.runEnd (p := p)).2, takeWhile_bytes hp, length_bytes]

theorem runEnd (h : At input position text) (hp : Classifies p q) :
    At input (Scanning.runEnd p (utf8 input) position) (text.dropWhile q) := by
  rw [h.runEnd_eq hp]
  rw [← List.takeWhile_append_dropWhile (p := q) (l := text)] at h
  exact h.advance

theorem any_eq (h : At input position text) (hp : Classifies p q) : (utf8 input)[position]?.any p = text.head?.any q := by
  rw [h.rest.getElem?]
  cases text with
  | nil => rfl
  | cons c text =>
    rw [List.flatMap_cons]
    cases hbytes : String.utf8EncodeChar c with
    | nil => exact absurd hbytes String.utf8EncodeChar_ne_nil
    | cons b bytes => exact hp c b (hbytes ▸ List.mem_cons_self ..)

theorem getElem?_eq_some (h : At input position text) (hc : c.toNat < 128) :
    (utf8 input)[position]? = some c.toUInt8 ↔ text.head? = some c := by
  have hany := h.any_eq (classifies_byte hc)
  rw [Bool.eq_iff_iff, Option.any_eq_true, Option.any_eq_true] at hany
  simpa [eq_comm] using hany

theorem eq_length_iff (h : At input position text) : position = (utf8 input).length ↔ text = [] := by
  rw [h.rest.eq_length_iff, ← List.length_eq_zero_iff, length_bytes, byteLen_eq_zero]

theorem strSlice {ε : Type} (h : At input position (a ++ b)) :
    (TextPositions.strSlice input position (position + byteLen a) : Exec ε String) = .ok (.ofList a) := by
  obtain ⟨before, hinput, rfl⟩ := h
  have houter : splitAtByte (byteLen before + byteLen a) input.toList = some (before ++ a, b) := by
    rw [hinput, ← List.append_assoc, ← byteLen_append, splitAtByte_append]
  rw [TextPositions.strSlice, houter, orPanic_some, Exec.ok_bind]
  dsimp only
  rw [splitAtByte_append, orPanic_some, Exec.ok_bind]

end

end At

end TextPositions
