import RustHouse.Method

/-!
# Byte sinks

A sink takes chunks of bytes in order and may fail at any of them. What a
computation sends to a sink is the sequence of its chunks, and what it writes is
their concatenation: writing composes along `++`.
-/

open Words

/-- Something that bytes are written to. -/
structure Sink (σ ε : Type) where
  writeAll : Bytes → Method σ ε Unit

namespace Sink

variable {σ ε α : Type}

/-- A buffer in memory. -/
def vec : Sink Bytes ε where
  writeAll chunk := .modify (· ++ chunk)

/-- The chunks one after the other, up to the first failure. -/
def sendAll (sink : Sink σ ε) : List Bytes → Method σ ε Unit
  | [] => pure ()
  | chunk :: chunks => do
    sink.writeAll chunk
    sendAll sink chunks

variable {sink : Sink σ ε} {m n : Method σ ε Unit} {as bs : Bytes}

theorem bind_pure (m : Method σ ε α) : (m >>= pure) = m := by
  funext s
  rcases hm : m s with _ | ⟨_ | _, _⟩
  · exact Method.bind_of_none hm
  · exact Method.bind_of_error hm
  · exact Method.bind_of_ok hm

theorem bind_assoc {β γ : Type} (m : Method σ ε α) (f : α → Method σ ε β) (g : β → Method σ ε γ) :
    (m >>= f >>= g) = m >>= fun a => f a >>= g := by
  funext s
  rcases hm : m s with _ | ⟨_ | a, s'⟩
  · rw [Method.bind_of_none hm, Method.bind_of_none (Method.bind_of_none hm)]
  · rw [Method.bind_of_error hm, Method.bind_of_error (Method.bind_of_error hm)]
  · have hbind := Method.bind_of_ok (f := f) hm
    rw [Method.bind_of_ok hm]
    rcases hf : f a s' with _ | ⟨_ | b, s''⟩
    · rw [Method.bind_of_none hf, Method.bind_of_none (hbind.trans hf)]
    · rw [Method.bind_of_error hf, Method.bind_of_error (hbind.trans hf)]
    · rw [Method.bind_of_ok hf, Method.bind_of_ok (hbind.trans hf)]

theorem sendAll_append (sink : Sink σ ε) (chunks chunks' : List Bytes) :
    sink.sendAll (chunks ++ chunks') = sink.sendAll chunks >>= fun _ => sink.sendAll chunks' := by
  induction chunks with
  | nil => rfl
  | cons chunk chunks ih => rw [List.cons_append, sendAll, ih, sendAll, bind_assoc]

/-- A computation that sends the given bytes, in chunks of its choice, and does nothing else. -/
def Writes (sink : Sink σ ε) (m : Method σ ε Unit) (bs : Bytes) : Prop :=
  ∃ chunks : List Bytes, chunks.flatten = bs ∧ m = sink.sendAll chunks

namespace Writes

theorem nothing : Writes sink (pure ()) [] := ⟨[], rfl, rfl⟩

theorem chunk (bs : Bytes) : Writes sink (sink.writeAll bs) bs :=
  ⟨[bs], List.append_nil bs, (bind_pure (sink.writeAll bs)).symm⟩

theorem bind (hm : Writes sink m as) (hn : Writes sink n bs) : Writes sink (m >>= fun _ => n) (as ++ bs) := by
  obtain ⟨chunks, rfl, rfl⟩ := hm
  obtain ⟨chunks', rfl, rfl⟩ := hn
  exact ⟨chunks ++ chunks', List.flatten_append, (sendAll_append sink chunks chunks').symm⟩

theorem congr (hm : Writes sink m as) (h : as = bs) : Writes sink m bs := h ▸ hm

theorem forM {f : α → Method σ ε Unit} {bytes : α → Bytes} {l : List α} (h : ∀ a ∈ l, Writes sink (f a) (bytes a)) :
    Writes sink (l.forM f) (l.flatMap bytes) := by
  induction l with
  | nil => exact nothing
  | cons a l ih =>
    obtain ⟨ha, hl⟩ := List.forall_mem_cons.1 h
    exact ha.bind (ih hl)

theorem vec {m : Method Bytes ε Unit} (h : Writes Sink.vec m bs) (out : Bytes) : m out = some (.ok (), out ++ bs) := by
  obtain ⟨chunks, rfl, rfl⟩ := h
  induction chunks generalizing out with
  | nil => rw [List.flatten_nil, List.append_nil]; rfl
  | cons chunk chunks ih =>
    rw [List.flatten_cons, ← List.append_assoc]
    exact ih (out ++ chunk)

end Writes

end Sink
