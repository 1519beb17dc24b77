import RustHouse.Exec

/-!
# Methods on a mutable receiver

A method may panic. Otherwise it returns a value or an error, and in both
cases leaves a receiver behind: an error does not undo what the method did
before. The weakest precondition of a method says what has to hold of the
receiver for every outcome to be acceptable and for none to be a panic.
-/

/-- A call that mutates a receiver of type `σ`. -/
def Method (σ ε α : Type) := σ → Option (Except ε α × σ)

namespace Method

variable {σ ε α β : Type}

instance : Monad (Method σ ε) where
  pure a := fun s => some (.ok a, s)
  bind m f := fun s =>
    match m s with
    | none => none
    | some (.ok a, s') => f a s'
    | some (.error e, s') => some (.error e, s')

def read : Method σ ε σ := fun s => some (.ok s, s)

def write (s : σ) : Method σ ε Unit := fun _ => some (.ok (), s)

def modify (f : σ → σ) : Method σ ε Unit := fun s => some (.ok (), f s)

/-- What is done to the receiver behind a call, whether it succeeds or fails. -/
def afterwards (m : Method σ ε α) (f : σ → σ) : Method σ ε α := fun s => (m s).map fun (result, s') => (result, f s')

/-- A call that does not touch the receiver. -/
def call (x : Exec ε α) : Method σ ε α := fun s =>
  match x with
  | .ok a => some (.ok a, s)
  | .error e => some (.error e, s)
  | .panic => none

def mapError {δ : Type} (f : ε → δ) (m : Method σ ε α) : Method σ δ α := fun s =>
  match m s with
  | none => none
  | some (.ok a, s') => some (.ok a, s')
  | some (.error e, s') => some (.error (f e), s')

/-- A call whose result, value or error, is looked at. -/
def attempt {δ : Type} (m : Method σ ε α) : Method σ δ (Except ε α) := fun s => (m s).map fun outcome => (.ok outcome.1, outcome.2)

def zoom {τ : Type} (part : σ → τ) (put : τ → σ → σ) (m : Method τ ε α) : Method σ ε α := fun s =>
  (m (part s)).map fun outcome => (outcome.1, put outcome.2 s)

/-- A call that has to succeed: an error panics. -/
def expect (m : Method σ ε α) : Method σ ε α := fun s =>
  match m s with
  | some (.ok a, s') => some (.ok a, s')
  | _ => none

/-- The receiver behind a call that succeeds. -/
def applied (m : Method σ ε α) (s : σ) : Exec ε σ :=
  match m s with
  | none => .panic
  | some (.ok _, s') => .ok s'
  | some (.error e, _) => .error e

/-- Calls with the same outcome, before what is the same wherever they lead. -/
theorem bind_congr {m n : Method σ ε α} {f g : α → Method σ ε β} {s : σ} (hm : m s = n s)
    (h : ∀ a s', n s = some (.ok a, s') → f a s' = g a s') : (m >>= f) s = (n >>= g) s := by
  show (match m s with | none => none | some (.ok a, s') => f a s' | some (.error e, s') => some (.error e, s')) =
    match n s with | none => none | some (.ok a, s') => g a s' | some (.error e, s') => some (.error e, s')
  rw [hm]
  rcases hn : n s with _ | ⟨_ | a, s'⟩
  · rfl
  · rfl
  · exact h a s' hn

theorem bind_of_none {m : Method σ ε α} {f : α → Method σ ε β} {s : σ} (h : m s = none) : (m >>= f) s = none := by
  show (match m s with | none => none | some (.ok a, s') => f a s' | some (.error e, s') => some (.error e, s')) = none
  rw [h]

theorem bind_of_ok {m : Method σ ε α} {f : α → Method σ ε β} {s s' : σ} {a : α} (h : m s = some (.ok a, s')) :
    (m >>= f) s = f a s' := by
  show (match m s with | none => none | some (.ok a, s') => f a s' | some (.error e, s') => some (.error e, s')) = f a s'
  rw [h]

theorem bind_of_error {m : Method σ ε α} {f : α → Method σ ε β} {s s' : σ} {e : ε} (h : m s = some (.error e, s')) :
    (m >>= f) s = some (.error e, s') := by
  show (match m s with | none => none | some (.ok a, s') => f a s' | some (.error e, s') => some (.error e, s')) =
    some (.error e, s')
  rw [h]

theorem bind_eq_none {m : Method σ ε α} {f : α → Method σ ε β} {s : σ} :
    (m >>= f) s = none ↔ m s = none ∨ ∃ a s', m s = some (.ok a, s') ∧ f a s' = none := by
  show (match m s with | none => none | some (.ok a, s') => f a s' | some (.error e, s') => some (.error e, s')) = none ↔ _
  rcases m s with _ | ⟨_ | _, _⟩ <;> simp

/-! ## Weakest preconditions -/

/-- Every outcome of a method is acceptable: a value by `Q`, an error by `E`, and none is a panic. -/
def wp (m : Method σ ε α) (Q : α → σ → Prop) (E : ε → σ → Prop) (s : σ) : Prop :=
  match m s with
  | none => False
  | some (.ok a, s') => Q a s'
  | some (.error e, s') => E e s'

variable {Q : α → σ → Prop} {E : ε → σ → Prop} {s : σ}

@[simp] theorem wp_pure (a : α) : wp (pure a : Method σ ε α) Q E s ↔ Q a s := Iff.rfl

@[simp] theorem wp_read {Q : σ → σ → Prop} : wp (read : Method σ ε σ) Q E s ↔ Q s s := Iff.rfl

@[simp] theorem wp_write {Q : Unit → σ → Prop} (s' : σ) : wp (write s' : Method σ ε Unit) Q E s ↔ Q () s' := Iff.rfl

@[simp] theorem wp_bind {m : Method σ ε α} {f : α → Method σ ε β} {Q : β → σ → Prop} :
    wp (m >>= f) Q E s ↔ wp m (fun a s' => wp (f a) Q E s') E s := by
  show (match (match m s with | none => none | some (.ok a, s') => f a s' | some (.error e, s') => some (.error e, s')) with
    | none => False | some (.ok b, s') => Q b s' | some (.error e, s') => E e s') ↔ _
  unfold wp
  rcases m s with _ | ⟨_ | _, _⟩ <;> rfl

@[simp] theorem wp_call_ok (a : α) : wp (call (.ok a) : Method σ ε α) Q E s ↔ Q a s := Iff.rfl

@[simp] theorem wp_call_error (e : ε) : wp (call (.error e) : Method σ ε α) Q E s ↔ E e s := Iff.rfl

theorem wp_call {x : Exec ε α} (hx : x ≠ .panic) (hQ : ∀ a, x = .ok a → Q a s) (hE : ∀ e, x = .error e → E e s) :
    wp (call x) Q E s := by
  cases x with
  | ok a => exact hQ a rfl
  | error e => exact hE e rfl
  | panic => exact absurd rfl hx

theorem wp_mono {m : Method σ ε α} {Q' : α → σ → Prop} {E' : ε → σ → Prop} (h : wp m Q E s)
    (hQ : ∀ a s', Q a s' → Q' a s') (hE : ∀ e s', E e s' → E' e s') : wp m Q' E' s := by
  unfold wp at h ⊢
  revert h
  rcases m s with _ | ⟨_ | _, _⟩ <;> intro h
  · exact h
  · exact hE _ _ h
  · exact hQ _ _ h

theorem wp_iff {m : Method σ ε α} : wp m Q E s ↔ m s ≠ none ∧ (∀ a s', m s = some (.ok a, s') → Q a s') ∧
    ∀ e s', m s = some (.error e, s') → E e s' := by
  unfold wp
  rcases m s with _ | ⟨_ | _, _⟩ <;> simp

theorem wp_mapError {δ : Type} {f : ε → δ} {m : Method σ ε α} {E : δ → σ → Prop} :
    wp (mapError f m) Q E s ↔ wp m Q (fun e => E (f e)) s := by
  unfold wp mapError
  rcases m s with _ | ⟨_ | _, _⟩ <;> rfl

theorem wp_attempt {δ : Type} {m : Method σ ε α} {Q : Except ε α → σ → Prop} {E : δ → σ → Prop} :
    wp (attempt m) Q E s ↔ wp m (fun a => Q (.ok a)) (fun e => Q (.error e)) s := by
  unfold wp attempt
  rcases m s with _ | ⟨_ | _, _⟩ <;> rfl

theorem wp_expect {m : Method σ ε α} (h : wp m Q (fun _ _ => False) s) : wp (expect m) Q E s := by
  unfold wp at h
  unfold wp expect
  revert h
  rcases m s with _ | ⟨_ | _, _⟩ <;> intro h
  · exact h
  · exact h
  · exact h

theorem wp_afterwards {m : Method σ ε α} {f : σ → σ} :
    wp (afterwards m f) Q E s ↔ wp m (fun a s' => Q a (f s')) (fun e s' => E e (f s')) s := by
  unfold wp afterwards
  rcases m s with _ | ⟨_ | _, _⟩ <;> rfl

theorem wp_and {m : Method σ ε α} {R : α → σ → Prop} (h : wp m Q E s)
    (hR : ∀ a s', m s = some (.ok a, s') → R a s') : wp m (fun a s' => Q a s' ∧ R a s') E s := by
  rw [wp_iff] at h ⊢
  exact ⟨h.1, fun a s' hm => ⟨h.2.1 a s' hm, hR a s' hm⟩, h.2.2⟩

theorem exists_of_wp {m : Method σ ε α} (h : wp m Q (fun _ _ => False) s) : ∃ a s', m s = some (.ok a, s') ∧ Q a s' := by
  unfold wp at h
  revert h
  rcases m s with _ | ⟨e | a, s'⟩ <;> intro h
  · exact h.elim
  · exact h.elim
  · exact ⟨a, s', rfl, h⟩

/-! ## Weakest liberal preconditions -/

/-- Every outcome of a method that does not panic is acceptable. -/
def wlp (m : Method σ ε α) (Q : α → σ → Prop) (E : ε → σ → Prop) (s : σ) : Prop :=
  match m s with
  | none => True
  | some (.ok a, s') => Q a s'
  | some (.error e, s') => E e s'

theorem wlp_of_wp {m : Method σ ε α} (h : wp m Q E s) : wlp m Q E s := by
  unfold wp at h
  unfold wlp
  revert h
  rcases m s with _ | ⟨_ | _, _⟩ <;> intro h
  · trivial
  · exact h
  · exact h

theorem wlp_iff {m : Method σ ε α} : wlp m Q E s ↔ (∀ a s', m s = some (.ok a, s') → Q a s') ∧
    ∀ e s', m s = some (.error e, s') → E e s' := by
  unfold wlp
  rcases m s with _ | ⟨_ | _, _⟩ <;> simp

@[simp] theorem wlp_pure (a : α) : wlp (pure a : Method σ ε α) Q E s ↔ Q a s := Iff.rfl

@[simp] theorem wlp_read {Q : σ → σ → Prop} : wlp (read : Method σ ε σ) Q E s ↔ Q s s := Iff.rfl

@[simp] theorem wlp_write {Q : Unit → σ → Prop} (s' : σ) : wlp (write s' : Method σ ε Unit) Q E s ↔ Q () s' := Iff.rfl

@[simp] theorem wlp_modify {Q : Unit → σ → Prop} (f : σ → σ) :
    wlp (modify f : Method σ ε Unit) Q E s ↔ Q () (f s) := Iff.rfl

@[simp] theorem wlp_bind {m : Method σ ε α} {f : α → Method σ ε β} {Q : β → σ → Prop} :
    wlp (m >>= f) Q E s ↔ wlp m (fun a s' => wlp (f a) Q E s') E s := by
  show (match (match m s with | none => none | some (.ok a, s') => f a s' | some (.error e, s') => some (.error e, s')) with
    | none => True | some (.ok b, s') => Q b s' | some (.error e, s') => E e s') ↔ _
  unfold wlp
  rcases m s with _ | ⟨_ | _, _⟩ <;> rfl

@[simp] theorem wlp_call {x : Exec ε α} :
    wlp (call x) Q E s ↔ (∀ a, x = .ok a → Q a s) ∧ ∀ e, x = .error e → E e s := by
  cases x <;> simp [wlp, call]

theorem wlp_mono {m : Method σ ε α} {Q' : α → σ → Prop} {E' : ε → σ → Prop} (h : wlp m Q E s)
    (hQ : ∀ a s', Q a s' → Q' a s') (hE : ∀ e s', E e s' → E' e s') : wlp m Q' E' s :=
  wlp_iff.2 ⟨fun a s' hm => hQ a s' ((wlp_iff.1 h).1 a s' hm), fun e s' hm => hE e s' ((wlp_iff.1 h).2 e s' hm)⟩

theorem wlp_mapError {δ : Type} {f : ε → δ} {m : Method σ ε α} {E : δ → σ → Prop} :
    wlp (mapError f m) Q E s ↔ wlp m Q (fun e => E (f e)) s := by
  unfold wlp mapError
  rcases m s with _ | ⟨_ | _, _⟩ <;> rfl

theorem wlp_attempt {δ : Type} {m : Method σ ε α} {Q : Except ε α → σ → Prop} {E : δ → σ → Prop} :
    wlp (attempt m) Q E s ↔ wlp m (fun a => Q (.ok a)) (fun e => Q (.error e)) s := by
  unfold wlp attempt
  rcases m s with _ | ⟨_ | _, _⟩ <;> rfl

theorem wlp_zoom {τ : Type} {part : σ → τ} {put : τ → σ → σ} {m : Method τ ε α} :
    wlp (zoom part put m) Q E s ↔ wlp m (fun a t => Q a (put t s)) (fun e t => E e (put t s)) (part s) := by
  unfold wlp zoom
  rcases m (part s) with _ | ⟨_ | _, _⟩ <;> rfl

/-! ## Successful calls -/

theorem bind_eq_ok {m : Method σ ε α} {f : α → Method σ ε β} {b : β} {s' : σ} :
    (m >>= f) s = some (.ok b, s') ↔ ∃ a s₁, m s = some (.ok a, s₁) ∧ f a s₁ = some (.ok b, s') := by
  show (match m s with | none => none | some (.ok a, s₁) => f a s₁ | some (.error e, s₁) => some (.error e, s₁)) = _ ↔ _
  rcases m s with _ | ⟨_ | _, _⟩ <;> simp

@[simp] theorem pure_eq_ok {a b : α} {s' : σ} : (pure a : Method σ ε α) s = some (.ok b, s') ↔ a = b ∧ s = s' := by
  show some (Except.ok a, s) = _ ↔ _
  simp

@[simp] theorem read_eq_ok {a s' : σ} : (read : Method σ ε σ) s = some (.ok a, s') ↔ s = a ∧ s = s' := by
  simp [read]

@[simp] theorem write_eq_ok {u : Unit} {a s' : σ} : (write a : Method σ ε Unit) s = some (.ok u, s') ↔ a = s' := by
  simp [write]

@[simp] theorem call_eq_ok {x : Exec ε α} {a : α} {s' : σ} :
    (call x : Method σ ε α) s = some (.ok a, s') ↔ x = .ok a ∧ s = s' := by
  cases x <;> simp [call]

theorem applied_eq_ok {m : Method σ ε α} {s' : σ} : applied m s = .ok s' ↔ ∃ a, m s = some (.ok a, s') := by
  unfold applied
  rcases m s with _ | ⟨_ | _, _⟩ <;> simp

/-! ## Failed calls -/

theorem bind_eq_error {m : Method σ ε α} {f : α → Method σ ε β} {e : ε} {s' : σ} :
    (m >>= f) s = some (.error e, s') ↔
      m s = some (.error e, s') ∨ ∃ a s₁, m s = some (.ok a, s₁) ∧ f a s₁ = some (.error e, s') := by
  show (match m s with | none => none | some (.ok a, s₁) => f a s₁ | some (.error e, s₁) => some (.error e, s₁)) = _ ↔ _
  rcases m s with _ | ⟨_ | _, _⟩ <;> simp

@[simp] theorem pure_ne_error {a : α} {e : ε} {s' : σ} : (pure a : Method σ ε α) s ≠ some (.error e, s') := by
  show some (Except.ok a, s) ≠ _
  simp

@[simp] theorem read_ne_error {e : ε} {s' : σ} : (read : Method σ ε σ) s ≠ some (.error e, s') := by
  simp [read]

@[simp] theorem write_ne_error {e : ε} {a s' : σ} : (write a : Method σ ε Unit) s ≠ some (.error e, s') := by
  simp [write]

@[simp] theorem call_eq_error {x : Exec ε α} {e : ε} {s' : σ} :
    (call x : Method σ ε α) s = some (.error e, s') ↔ x = .error e ∧ s = s' := by
  cases x <;> simp [call]

protected theorem mapError_eq_ok {δ : Type} {f : ε → δ} {m : Method σ ε α} {a : α} {s' : σ} :
    mapError f m s = some (.ok a, s') ↔ m s = some (.ok a, s') := by
  unfold mapError
  rcases m s with _ | ⟨_ | _, _⟩ <;> simp

protected theorem mapError_eq_error {δ : Type} {f : ε → δ} {m : Method σ ε α} {e : δ} {s' : σ} :
    mapError f m s = some (.error e, s') ↔ ∃ e', m s = some (.error e', s') ∧ f e' = e := by
  unfold mapError
  rcases m s with _ | ⟨_ | _, _⟩ <;> simp [and_comm]

/-- A failed call leaves the receiver as it was. -/
def Atomic (m : Method σ ε α) : Prop := ∀ s e s', m s = some (.error e, s') → s' = s

end Method
