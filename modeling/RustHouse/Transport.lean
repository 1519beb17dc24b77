import RustHouse.Method

/-!
# Byte streams in pieces

A transport holds the bytes that are still to come in the pieces in which reads
will return them. How a stream is cut into pieces is up to the transport; a
method that does not depend on it is called blind.
-/

/-- What is still to come, and the error at its end, if there is one. -/
structure Transport (ι : Type) where
  chunks : List { chunk : List UInt8 // chunk ≠ [] }
  failure : Option ι
  deriving DecidableEq

namespace Transport

variable {ι ε α β : Type}

def bytes (t : Transport ι) : List UInt8 := (t.chunks.map Subtype.val).flatten

/-- What is left of the first piece when a part of it has been read. -/
def leave (t : Transport ι) (count : Nat) (chunk : { chunk : List UInt8 // chunk ≠ [] })
    (chunks : List { chunk : List UInt8 // chunk ≠ [] }) : Transport ι :=
  if h : count < chunk.val.length then
    { t with chunks := ⟨chunk.val.drop count, fun hnil => absurd (List.drop_eq_nil_iff.1 hnil) (Nat.not_le.2 h)⟩ :: chunks }
  else { t with chunks }

/-- At most some bytes; only at the end are there none. -/
def read (count : Nat) : Method (Transport ι) ι (List UInt8) := fun t =>
  match t.chunks with
  | [] => some (t.failure.elim (.ok []) .error, t)
  | chunk :: chunks => some (.ok (chunk.val.take count), t.leave count chunk chunks)

/-- Some bytes have been taken off the front. -/
structure Advances (t : Transport ι) (taken : List UInt8) (t' : Transport ι) : Prop where
  bytes_eq : t.bytes = taken ++ t'.bytes
  failure_eq : t'.failure = t.failure

/-- The same stream in other pieces. -/
structure Same (t u : Transport ι) : Prop where
  bytes_eq : t.bytes = u.bytes
  failure_eq : t.failure = u.failure

/-- The same result, with the same stream behind it. -/
def Agree (x y : Option (Except ε α × Transport ι)) : Prop :=
  x = none ∧ y = none ∨ ∃ result t u, x = some (result, t) ∧ y = some (result, u) ∧ Same t u

/-- A method for which it makes no difference in what pieces a stream arrives. -/
def Blind (m : Method (Transport ι) ε α) : Prop := ∀ t u, Same t u → Agree (m t) (m u)

/-! ## Bytes that are taken -/

section
variable {t t' t'' : Transport ι} {taken taken' : List UInt8}

theorem Advances.refl (t : Transport ι) : t.Advances [] t := ⟨rfl, rfl⟩

theorem Advances.trans (h : t.Advances taken t') (h' : t'.Advances taken' t'') : t.Advances (taken ++ taken') t'' :=
  ⟨by rw [h.bytes_eq, h'.bytes_eq, List.append_assoc], h'.failure_eq.trans h.failure_eq⟩

theorem Same.of_advances {u u' : Transport ι} (h : Same t u) (ht : t.Advances taken t') (hu : u.Advances taken u') :
    Same t' u' := by
  refine ⟨?_, by rw [ht.failure_eq, hu.failure_eq, h.failure_eq]⟩
  have hbytes := h.bytes_eq
  rw [ht.bytes_eq, hu.bytes_eq] at hbytes
  exact List.append_cancel_left hbytes

theorem bytes_eq_nil (h : t.bytes = []) : t.chunks = [] := by
  cases hchunks : t.chunks with
  | nil => rfl
  | cons chunk chunks =>
    rw [bytes, hchunks, List.map_cons, List.flatten_cons, List.append_eq_nil_iff] at h
    exact absurd h.1 chunk.property

theorem read_nil (h : t.bytes = []) (count : Nat) : read count t = some (t.failure.elim (.ok []) .error, t) := by
  rw [read, bytes_eq_nil h]

theorem read_cons (h : t.bytes ≠ []) {count : Nat} (hcount : count ≠ 0) :
    ∃ taken t', read count t = some (.ok taken, t') ∧ taken ≠ [] ∧ taken.length ≤ count ∧ t.Advances taken t' := by
  cases hchunks : t.chunks with
  | nil => exact absurd (by rw [bytes, hchunks]; rfl) h
  | cons chunk chunks =>
    refine ⟨chunk.val.take count, t.leave count chunk chunks, by rw [read, hchunks], ?_, ?_, ?_⟩
    · rw [Ne, List.take_eq_nil_iff, not_or]
      exact ⟨hcount, chunk.property⟩
    · rw [List.length_take]
      exact Nat.min_le_left _ _
    · by_cases hlong : count < chunk.val.length
      · rw [leave, dif_pos hlong]
        refine ⟨?_, rfl⟩
        rw [bytes, bytes, hchunks, List.map_cons, List.map_cons, List.flatten_cons, List.flatten_cons,
          ← List.append_assoc, List.take_append_drop]
      · rw [leave, dif_neg hlong]
        refine ⟨?_, rfl⟩
        rw [bytes, bytes, hchunks, List.map_cons, List.flatten_cons, List.take_of_length_le (Nat.le_of_not_lt hlong)]

theorem read_one {b : UInt8} {rest : List UInt8} (h : t.bytes = b :: rest) :
    ∃ t', read 1 t = some (.ok [b], t') ∧ t.Advances [b] t' := by
  obtain ⟨taken, t', hread, hne, hlen, hadvances⟩ :=
    read_cons (t := t) (by rw [h]; exact List.cons_ne_nil _ _) Nat.one_ne_zero
  have hsingle : ∃ c, taken = [c] := List.length_eq_one_iff.1 (Nat.le_antisymm hlen (List.length_pos_iff.2 hne))
  obtain ⟨c, rfl⟩ := hsingle
  have hbytes := hadvances.bytes_eq
  rw [h] at hbytes
  obtain ⟨rfl, _⟩ := List.cons.inj hbytes
  exact ⟨t', hread, hadvances⟩

end

/-! ## Methods that do not see the pieces -/

section
variable {t u : Transport ι}

theorem Same.refl (t : Transport ι) : Same t t := ⟨rfl, rfl⟩

theorem Agree.of_eq {x y : Option (Except ε α × Transport ι)} {result : Except ε α} {t u : Transport ι}
    (hx : x = some (result, t)) (hy : y = some (result, u)) (h : Same t u) : Agree x y :=
  .inr ⟨result, t, u, hx, hy, h⟩

theorem blind_pure (a : α) : Blind (pure a : Method (Transport ι) ε α) := fun _ _ h => .of_eq rfl rfl h

theorem blind_call (x : Exec ε α) : Blind (Method.call x : Method (Transport ι) ε α) := by
  intro t u h
  cases x with
  | ok a => exact .of_eq rfl rfl h
  | error e => exact .of_eq rfl rfl h
  | panic => exact .inl ⟨rfl, rfl⟩

theorem Blind.bind {m : Method (Transport ι) ε α} {f : α → Method (Transport ι) ε β} (hm : Blind m)
    (hf : ∀ a, Blind (f a)) : Blind (m >>= f) := by
  intro t u h
  obtain ⟨ht, hu⟩ | ⟨result, t', u', ht, hu, h'⟩ := hm t u h
  · exact .inl ⟨Method.bind_of_none ht, Method.bind_of_none hu⟩
  · cases result with
    | ok a =>
      rw [Method.bind_of_ok ht, Method.bind_of_ok hu]
      exact hf a t' u' h'
    | error e => exact .of_eq (Method.bind_of_error ht) (Method.bind_of_error hu) h'

end

end Transport
