import RustHouse.Checked

/-!
# Logs of self-delimiting frames

A log is a concatenation of frames. A scanner reads them from the front: at
each offset its `head` finds a frame, or a tail it leaves alone, or an error.
When every frame is found whatever follows it, and every proper prefix of a
frame is a tail, a scan of any prefix of the log ends after the last frame the
prefix holds whole.
-/

namespace FrameLog

variable {β σ ε : Type}

inductive Head (σ ε : Type) where
  /-- A frame that ends at `stop` and leaves the state `next`. -/
  | frame (stop : Nat) (next : σ)
  | tail
  | bad (error : ε)

/-- Reads frames from `offset` on until the rest does not start with one. -/
def scan (head : List β → Nat → σ → Head σ ε) (bytes : List β) (offset : Nat) (s : σ) :
    Except ε (Nat × σ) :=
  match head bytes offset s with
  | .tail => .ok (offset, s)
  | .bad error => .error error
  | .frame stop next =>
    if offset < stop ∧ stop ≤ bytes.length then scan head bytes stop next else .ok (offset, s)
termination_by bytes.length - offset
decreasing_by omega

section
variable (head : List β → Nat → σ → Head σ ε)

theorem scan_tail {bytes : List β} {o : Nat} {s : σ} (h : head bytes o s = .tail) :
    scan head bytes o s = .ok (o, s) := by
  rw [scan, h]

theorem scan_bad {bytes : List β} {o : Nat} {s : σ} {e : ε} (h : head bytes o s = .bad e) :
    scan head bytes o s = .error e := by
  rw [scan, h]

theorem scan_frame {bytes : List β} {o stop : Nat} {s next : σ} (h : head bytes o s = .frame stop next)
    (hlt : o < stop) (hle : stop ≤ bytes.length) : scan head bytes o s = scan head bytes stop next := by
  rw [scan, h]
  exact if_pos ⟨hlt, hle⟩

/-! ## Frames and runs -/

/-- `f` is a frame at offset `o` that takes the state `s` to `s'`: it is found
whatever stands before and after it, and a proper prefix of it is a tail. -/
structure Frame (o : Nat) (s : σ) (f : List β) (s' : σ) : Prop where
  nonempty : f ≠ []
  whole : ∀ pre post, pre.length = o → head (pre ++ f ++ post) o s = .frame (o + f.length) s'
  torn : ∀ pre p, pre.length = o → p <+: f → p ≠ f → head (pre ++ p) o s = .tail

inductive Run : Nat → σ → List (List β) → σ → Prop
  | nil (o : Nat) (s : σ) : Run o s [] s
  | cons {o : Nat} {s s₁ s₂ : σ} {f : List β} {fs : List (List β)} :
      Frame head o s f s₁ → Run (o + f.length) s₁ fs s₂ → Run o s (f :: fs) s₂

variable {head}

theorem Run.append {o : Nat} {s s₁ s₂ : σ} {fs gs : List (List β)} (h : Run head o s fs s₁)
    (h' : Run head (o + fs.flatten.length) s₁ gs s₂) : Run head o s (fs ++ gs) s₂ := by
  induction h with
  | nil o s => exact h'
  | cons hf _ ih =>
    refine .cons hf (ih ?_)
    simpa [Nat.add_assoc] using h'

theorem Run.scan_append {o : Nat} {s s' : σ} {fs : List (List β)} (h : Run head o s fs s') :
    ∀ pre post : List β, pre.length = o → scan head (pre ++ fs.flatten ++ post) o s =
      scan head (pre ++ fs.flatten ++ post) (o + fs.flatten.length) s' := by
  induction h with
  | nil o s => intro pre post _; simp
  | @cons o s s₁ s₂ f fs hf _ ih =>
    intro pre post hpre
    have hlen : 0 < f.length := List.length_pos_iff.2 hf.nonempty
    have hsplit : pre ++ (f :: fs).flatten ++ post = pre ++ f ++ (fs.flatten ++ post) := by simp
    have hnext := ih (pre ++ f) post (by simp [hpre])
    have hend : o + (f :: fs).flatten.length = o + f.length + fs.flatten.length := by
      simp [Nat.add_assoc]
    rw [hend, hsplit, scan_frame head (hf.whole pre _ hpre) (by omega) (by simp [hpre])]
    simpa using hnext

/-! ## Prefixes -/

/-- The frames that lie wholly in the first `n` places of the log. -/
def whole : Nat → List (List β) → List (List β)
  | _, [] => []
  | n, f :: fs => if f.length ≤ n then f :: whole (n - f.length) fs else []

theorem take_flatten : ∀ (n : Nat) (fs : List (List β)), ∃ rest p, fs = whole n fs ++ rest ∧
    fs.flatten.take n = (whole n fs).flatten ++ p ∧
    (p = [] ∨ ∃ f rest', rest = f :: rest' ∧ p <+: f ∧ p ≠ f)
  | n, [] => ⟨[], [], by simp [whole], by simp [whole], .inl rfl⟩
  | n, f :: fs => by
    rw [whole]
    split
    · rename_i hle
      obtain ⟨rest, p, hfs, htake, hp⟩ := take_flatten (n - f.length) fs
      refine ⟨rest, p, by rw [List.cons_append, ← hfs], ?_, hp⟩
      rw [List.flatten_cons, List.take_append, List.take_of_length_le hle, htake]
      simp
    · rename_i hlt
      refine ⟨f :: fs, f.take n, rfl, ?_, .inr ⟨f, fs, rfl, List.take_prefix n f, ?_⟩⟩
      · rw [List.flatten_cons, List.take_append_of_le_length (by omega), List.flatten_nil, List.nil_append]
      · intro h
        have := congrArg List.length h
        simp at this; omega

theorem whole_isPrefix (n : Nat) (fs : List (List β)) : whole n fs <+: fs := by
  obtain ⟨rest, p, hfs, -, -⟩ := take_flatten n fs
  exact ⟨rest, hfs.symm⟩

theorem whole_eq_take (n : Nat) (fs : List (List β)) : whole n fs = fs.take (whole n fs).length :=
  List.prefix_iff_eq_take.1 (whole_isPrefix n fs)

theorem Run.split {o : Nat} {s s' : σ} {fs gs : List (List β)} (h : Run head o s (fs ++ gs) s') :
    ∃ s₁, Run head o s fs s₁ ∧ Run head (o + fs.flatten.length) s₁ gs s' := by
  induction fs generalizing o s with
  | nil => exact ⟨s, .nil o s, by simpa using h⟩
  | cons f fs ih =>
    cases h with
    | cons hf hrun =>
      obtain ⟨s₁, hfs, hgs⟩ := ih hrun
      exact ⟨s₁, .cons hf hfs, by simpa [Nat.add_assoc] using hgs⟩

theorem Run.deterministic {o : Nat} {s s₁ s₂ : σ} {fs : List (List β)} (h₁ : Run head o s fs s₁)
    (h₂ : Run head o s fs s₂) : s₁ = s₂ := by
  induction h₁ with
  | nil o s => cases h₂; rfl
  | @cons o s t₁ s₁ f fs hf _ ih =>
    cases h₂ with
    | @cons _ _ t₂ _ _ _ hf' hrun' =>
      obtain ⟨b, l, rfl⟩ := List.exists_cons_of_ne_nil hf.nonempty
      have hpre : (List.replicate o b).length = o := List.length_replicate
      have heq := (hf.whole _ [] hpre).symm.trans (hf'.whole _ [] hpre)
      injection heq with _ ht
      exact ih (ht ▸ hrun')

/-- **Prefix recovery.** A scan of a prefix ends after its last whole frame. -/
theorem Run.scan_take (hend : ∀ (pre : List β) (s : σ), head pre pre.length s = .tail) {o : Nat} {s s' : σ}
    {fs : List (List β)} (h : Run head o s fs s') {pre : List β} (hpre : pre.length = o) (n : Nat) :
    ∃ s₁, Run head o s (whole n fs) s₁ ∧
      scan head (pre ++ fs.flatten.take n) o s = .ok (o + (whole n fs).flatten.length, s₁) := by
  obtain ⟨rest, p, hfs, htake, hp⟩ := take_flatten n fs
  obtain ⟨s₁, hwhole, hrest⟩ := Run.split (hfs ▸ h)
  refine ⟨s₁, hwhole, ?_⟩
  have hlen : (pre ++ (whole n fs).flatten).length = o + (whole n fs).flatten.length := by simp [hpre]
  have hscan := hwhole.scan_append pre p hpre
  rw [htake, ← List.append_assoc, hscan]
  apply scan_tail
  rcases hp with rfl | ⟨f, rest', rfl, hpf, hne⟩
  · rw [List.append_nil, ← hlen]
    exact hend _ _
  · cases hrest with
    | cons hf _ => exact hf.torn _ p hlen hpf hne

end

end FrameLog
