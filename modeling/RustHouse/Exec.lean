import RustHouse.Words

/-!
# Computations that may panic

What a call comes to: a value, an error, or a panic. A read that the program
takes for granted panics where there is nothing to read.
-/

inductive Exec (ε α : Type) where
  | ok (a : α)
  | error (e : ε)
  | panic
  deriving DecidableEq, Repr

namespace Exec

open Checked Words

variable {ε δ α β : Type}

instance : Monad (Exec ε) where
  pure := .ok
  bind x f :=
    match x with
    | .ok a => f a
    | .error e => .error e
    | .panic => .panic

def rejectIf (c : Prop) [Decidable c] (e : ε) : Exec ε Unit := if c then .error e else .ok ()

def getOr (o : Option α) (e : ε) : Exec ε α :=
  match o with
  | some a => .ok a
  | none => .error e

def orPanic : Option α → Exec ε α
  | some a => .ok a
  | none => .panic

def mapError (f : ε → δ) : Exec ε α → Exec δ α
  | .ok a => .ok a
  | .error e => .error (f e)
  | .panic => .panic

@[simp] protected theorem ok_bind (a : α) (f : α → Exec ε β) : (Exec.ok a >>= f) = f a := rfl

@[simp] protected theorem error_bind (e : ε) (f : α → Exec ε β) : (Exec.error e >>= f) = .error e := rfl

@[simp] protected theorem panic_bind (f : α → Exec ε β) : (Exec.panic >>= f) = .panic := rfl

protected theorem bind_assoc {γ : Type} (x : Exec ε α) (f : α → Exec ε β) (g : β → Exec ε γ) :
    (x >>= f) >>= g = x >>= fun a => f a >>= g := by
  cases x <;> rfl

theorem ok_ne_panic (a : α) : (Exec.ok a : Exec ε α) ≠ .panic := nofun

theorem error_ne_panic (e : ε) : (Exec.error e : Exec ε α) ≠ .panic := nofun

@[simp] theorem getOr_some (a : α) (e : ε) : getOr (some a) e = .ok a := rfl

@[simp] theorem orPanic_some (a : α) : (orPanic (some a) : Exec ε α) = .ok a := rfl

protected theorem bind_eq_ok {x : Exec ε α} {f : α → Exec ε β} {b : β} :
    x >>= f = .ok b ↔ ∃ a, x = .ok a ∧ f a = .ok b := by
  cases x with
  | ok a => simp
  | error e => simp
  | panic =>
    constructor
    · intro h; cases h
    · rintro ⟨_, h, _⟩; cases h

@[simp] theorem rejectIf_eq_ok {c : Prop} [Decidable c] {e : ε} {u : Unit} : rejectIf c e = .ok u ↔ ¬ c := by
  unfold rejectIf
  split <;> simp_all

theorem rejectIf_of {c : Prop} [Decidable c] {e : ε} (h : c) : rejectIf c e = .error e := if_pos h

theorem rejectIf_of_not {c : Prop} [Decidable c] {e : ε} (h : ¬ c) : rejectIf c e = .ok () := if_neg h

theorem rejectIf_eq_error {c : Prop} [Decidable c] {e e' : ε} : rejectIf c e = .error e' ↔ c ∧ e = e' := by
  unfold rejectIf
  split <;> simp_all

theorem rejectIf_ne_panic (c : Prop) [Decidable c] (e : ε) : rejectIf c e ≠ .panic := by
  unfold rejectIf
  split <;> exact nofun

theorem getOr_eq_ok {o : Option α} {e : ε} {a : α} : getOr o e = .ok a ↔ o = some a := by
  cases o <;> simp [getOr]

theorem getOr_ne_panic (o : Option α) (e : ε) : getOr o e ≠ .panic := by
  cases o <;> exact nofun

theorem orPanic_eq_ok {o : Option α} {a : α} : (orPanic o : Exec ε α) = .ok a ↔ o = some a := by
  cases o <;> simp [orPanic]

theorem mapError_eq_ok {f : ε → δ} {x : Exec ε α} {a : α} : mapError f x = .ok a ↔ x = .ok a := by
  cases x <;> simp [mapError]

theorem mapError_eq_error {f : ε → δ} {x : Exec ε α} {e : δ} : mapError f x = .error e ↔ ∃ e', x = .error e' ∧ f e' = e := by
  cases x <;> simp [mapError]

protected theorem bind_eq_error {x : Exec ε α} {f : α → Exec ε β} {e : ε} :
    x >>= f = .error e ↔ x = .error e ∨ ∃ a, x = .ok a ∧ f a = .error e := by
  cases x <;> simp

theorem bind_ne_panic {x : Exec ε α} {f : α → Exec ε β} (hx : x ≠ .panic) (hf : ∀ a, x = .ok a → f a ≠ .panic) :
    x >>= f ≠ .panic := by
  cases x with
  | ok a => exact hf a rfl
  | error e => exact nofun
  | panic => exact absurd rfl hx

/-- The same check for every element, in order. -/
def forEach (check : α → Exec ε Unit) : List α → Exec ε Unit
  | [] => .ok ()
  | a :: as => do
    check a
    forEach check as

theorem forEach_eq_ok {check : α → Exec ε Unit} {as : List α} :
    forEach check as = .ok () ↔ ∀ a ∈ as, check a = .ok () := by
  induction as with
  | nil => simp [forEach]
  | cons a as ih =>
    rw [List.forall_mem_cons, ← ih]
    exact ⟨fun h => let ⟨_, ha, has⟩ := Exec.bind_eq_ok.1 h; ⟨ha, has⟩, fun h => Exec.bind_eq_ok.2 ⟨(), h⟩⟩

theorem forEach_ne_panic {check : α → Exec ε Unit} {as : List α} (h : ∀ a ∈ as, check a ≠ .panic) :
    forEach check as ≠ .panic := by
  induction as with
  | nil => exact nofun
  | cons a as ih =>
    obtain ⟨ha, has⟩ := List.forall_mem_cons.1 h
    exact bind_ne_panic ha fun _ _ => ih has

/-! ## Canonical codecs -/

/-- One computation after another, each with its own errors. -/
def andThen {γ : Type} (f : α → Exec ε β) (g : β → Exec δ γ) (a : α) : Exec (ε ⊕ δ) γ :=
  mapError .inl (f a) >>= fun b => mapError .inr (g b)

theorem andThen_eq_ok {γ : Type} {f : α → Exec ε β} {g : β → Exec δ γ} {a : α} {c : γ} :
    andThen f g a = .ok c ↔ ∃ b, f a = .ok b ∧ g b = .ok c := by
  simp only [andThen, Exec.bind_eq_ok, mapError_eq_ok]

/-- A decoder that accepts exactly the encodings of values, each for its value. -/
def Canonical (encode : α → Exec ε β) (decode : β → Exec δ α) : Prop :=
  ∀ a b, encode a = .ok b ↔ decode b = .ok a

theorem Canonical.andThen {γ ε' δ' : Type} {encode : α → Exec ε β} {decode : β → Exec δ α}
    {encode' : β → Exec ε' γ} {decode' : γ → Exec δ' β} (h : Canonical encode decode)
    (h' : Canonical encode' decode') : Canonical (andThen encode encode') (andThen decode' decode) := by
  intro a c
  rw [andThen_eq_ok, andThen_eq_ok]
  refine exists_congr fun b => ?_
  rw [h a b, h' b c, and_comm]

end Exec

/-! ## Byte slices -/

/-- The most bytes that a slice or a vector can hold. -/
def isizeMax : Nat := 2 ^ 63 - 1

abbrev ByteSpan := { bytes : Words.Bytes // bytes.length ≤ isizeMax }

namespace ByteSpan

open Words

/-- A vector filled with the given bytes; asking for more than a vector can hold panics. -/
def collect {ε : Type} (bytes : Bytes) : Exec ε ByteSpan :=
  if h : bytes.length ≤ isizeMax then .ok ⟨bytes, h⟩ else .panic

def range {ε : Type} (s : ByteSpan) (start stop : Nat) : Exec ε ByteSpan :=
  if start ≤ stop ∧ stop ≤ s.val.length then
    .ok ⟨(s.val.drop start).take (stop - start), by
      have := s.property
      rw [List.length_take, List.length_drop]; omega⟩
  else .panic

def readArray {ε : Type} (len : Nat) (s : ByteSpan) (offset : Nat) : Exec ε Bytes :=
  Exec.orPanic (slice s.val offset (offset + len))

section
variable {ε : Type} {s : ByteSpan}

theorem collect_eq_ok {bytes : Bytes} : (collect bytes : Exec ε ByteSpan) = .ok s ↔ s.val = bytes := by
  unfold collect
  split
  · rw [Exec.ok.injEq]
    exact ⟨fun h => h ▸ rfl, fun h => Subtype.ext h.symm⟩
  · rename_i hlong
    refine ⟨nofun, fun h => absurd ?_ hlong⟩
    exact h ▸ s.property

theorem range_eq_ok {p : ByteSpan} {start stop : Nat} :
    (s.range start stop : Exec ε ByteSpan) = .ok p ↔
      start ≤ stop ∧ stop ≤ s.val.length ∧ p.val = (s.val.drop start).take (stop - start) := by
  unfold range
  split
  · rename_i h
    rw [Exec.ok.injEq, Subtype.ext_iff]
    exact ⟨fun hp => ⟨h.1, h.2, hp.symm⟩, fun hp => hp.2.2.symm⟩
  · rename_i h
    exact ⟨nofun, fun hp => absurd ⟨hp.1, hp.2.1⟩ h⟩

theorem readArray_eq_ok {len offset : Nat} {bytes : Bytes} :
    (s.readArray len offset : Exec ε Bytes) = .ok bytes ↔
      offset + len ≤ s.val.length ∧ bytes.length = len ∧ s.val.drop offset = bytes ++ s.val.drop (offset + len) := by
  rw [readArray, Exec.orPanic_eq_ok, slice, Nat.add_sub_cancel_left]
  constructor
  · intro h
    split at h
    · rename_i hb
      obtain rfl := Option.some.inj h
      refine ⟨hb.2, ?_, ?_⟩
      · rw [List.length_take, List.length_drop]; omega
      · rw [← List.drop_drop, List.take_append_drop]
    · cases h
  · rintro ⟨hb, hlen, hdrop⟩
    rw [if_pos ⟨by omega, hb⟩, hdrop, ← hlen, List.take_left]

theorem readArray_ne_panic {len offset : Nat} (h : offset + len ≤ s.val.length) :
    (s.readArray len offset : Exec ε Bytes) ≠ .panic := by
  rw [readArray, slice, if_pos ⟨Nat.le_add_right _ _, h⟩]
  exact Exec.ok_ne_panic _

theorem getElem?_eq_some {offset : Nat} {byte : UInt8} :
    s.val[offset]? = some byte ↔ s.val.drop offset = byte :: s.val.drop (offset + 1) := by
  constructor
  · intro h
    obtain ⟨hlt, rfl⟩ := List.getElem?_eq_some_iff.1 h
    exact List.drop_eq_getElem_cons hlt
  · intro h
    have := congrArg List.head? h
    rwa [List.head?_drop] at this

end

end ByteSpan
