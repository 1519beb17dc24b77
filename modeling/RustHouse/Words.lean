import RustHouse.Checked

/-!
# Fixed-width words in byte strings

Little-endian words as lists of bytes, the checked slices a reader takes out
of a byte string, and UTF-8 text.
-/

namespace Words

open Checked

abbrev Bytes := List UInt8

/-! ## Little-endian words -/

/-- The `w` little-endian bytes of `n`. -/
def leBytes : Nat → Nat → Bytes
  | 0, _ => []
  | w + 1, n => UInt8.ofNat n :: leBytes w (n / 256)

def ofLeBytes : Bytes → Nat
  | [] => 0
  | b :: bs => b.toNat + 256 * ofLeBytes bs

@[simp] theorem length_leBytes : ∀ w n, (leBytes w n).length = w
  | 0, _ => rfl
  | w + 1, n => by simp [leBytes, length_leBytes w]

theorem ofLeBytes_leBytes : ∀ {w n : Nat}, n < 256 ^ w → ofLeBytes (leBytes w n) = n
  | 0, n, h => by simp at h; simp [leBytes, ofLeBytes, h]
  | w + 1, n, h => by
    have hdiv : n / 256 < 256 ^ w := by
      rw [Nat.div_lt_iff_lt_mul (by decide)]; rwa [Nat.pow_succ] at h
    rw [leBytes, ofLeBytes, ofLeBytes_leBytes hdiv, UInt8.toNat_ofNat']
    omega

theorem leBytes_ofLeBytes : ∀ bs : Bytes, leBytes bs.length (ofLeBytes bs) = bs
  | [] => rfl
  | b :: bs => by
    have hb : b.toNat < 256 := b.toNat_lt
    have hhead : UInt8.ofNat (b.toNat + 256 * ofLeBytes bs) = b := by
      apply UInt8.toNat_inj.1
      rw [UInt8.toNat_ofNat']; omega
    have htail : (b.toNat + 256 * ofLeBytes bs) / 256 = ofLeBytes bs := by omega
    rw [List.length_cons, ofLeBytes, leBytes, hhead, htail, leBytes_ofLeBytes bs]

theorem ofLeBytes_lt : ∀ bs : Bytes, ofLeBytes bs < 256 ^ bs.length
  | [] => by simp [ofLeBytes]
  | b :: bs => by
    have hb : b.toNat < 256 := b.toNat_lt
    have ih := ofLeBytes_lt bs
    rw [ofLeBytes, List.length_cons, Nat.pow_succ]
    omega

def sizeBytes (n : Nat) : Bytes := leBytes 8 n

def u16Bytes (v : UInt16) : Bytes := leBytes 2 v.toNat

def u32Bytes (v : UInt32) : Bytes := leBytes 4 v.toNat

def u64Bytes (v : UInt64) : Bytes := leBytes 8 v.toNat

def i64Bytes (v : Int64) : Bytes := leBytes 8 v.toUInt64.toNat

def u16OfBytes (bs : Bytes) : UInt16 := UInt16.ofNat (ofLeBytes bs)

def u32OfBytes (bs : Bytes) : UInt32 := UInt32.ofNat (ofLeBytes bs)

def u64OfBytes (bs : Bytes) : UInt64 := UInt64.ofNat (ofLeBytes bs)

def i64OfBytes (bs : Bytes) : Int64 := (u64OfBytes bs).toInt64

@[simp] theorem length_sizeBytes (n : Nat) : (sizeBytes n).length = 8 := length_leBytes 8 n
@[simp] theorem length_u16Bytes (v : UInt16) : (u16Bytes v).length = 2 := length_leBytes 2 _
@[simp] theorem length_u32Bytes (v : UInt32) : (u32Bytes v).length = 4 := length_leBytes 4 _
@[simp] theorem length_u64Bytes (v : UInt64) : (u64Bytes v).length = 8 := length_leBytes 8 _
@[simp] theorem length_i64Bytes (v : Int64) : (i64Bytes v).length = 8 := length_leBytes 8 _

theorem ofLeBytes_sizeBytes {n : Nat} (h : n ≤ usizeMax) : ofLeBytes (sizeBytes n) = n :=
  ofLeBytes_leBytes (by unfold usizeMax at h; omega)

theorem sizeBytes_ofLeBytes {bs : Bytes} (h : bs.length = 8) : sizeBytes (ofLeBytes bs) = bs := by
  rw [sizeBytes, ← h, leBytes_ofLeBytes]

@[simp] theorem u16OfBytes_u16Bytes (v : UInt16) : u16OfBytes (u16Bytes v) = v := by
  rw [u16OfBytes, u16Bytes, ofLeBytes_leBytes v.toNat_lt, UInt16.ofNat_toNat]

@[simp] theorem u32OfBytes_u32Bytes (v : UInt32) : u32OfBytes (u32Bytes v) = v := by
  rw [u32OfBytes, u32Bytes, ofLeBytes_leBytes v.toNat_lt, UInt32.ofNat_toNat]

@[simp] theorem u64OfBytes_u64Bytes (v : UInt64) : u64OfBytes (u64Bytes v) = v := by
  rw [u64OfBytes, u64Bytes, ofLeBytes_leBytes v.toNat_lt, UInt64.ofNat_toNat]

@[simp] theorem i64OfBytes_i64Bytes (v : Int64) : i64OfBytes (i64Bytes v) = v := by
  rw [i64OfBytes, u64OfBytes, i64Bytes, ofLeBytes_leBytes v.toUInt64.toNat_lt, UInt64.ofNat_toNat]
  exact Int64.toInt64_toUInt64 v

theorem toNat_u64OfBytes {bs : Bytes} (h : bs.length = 8) : (u64OfBytes bs).toNat = ofLeBytes bs := by
  have hlt := ofLeBytes_lt bs
  rw [h] at hlt
  exact UInt64.toNat_ofNat_of_lt' hlt

theorem u64Bytes_u64OfBytes {bs : Bytes} (h : bs.length = 8) : u64Bytes (u64OfBytes bs) = bs := by
  rw [u64Bytes, toNat_u64OfBytes h, ← h, leBytes_ofLeBytes]

theorem i64Bytes_i64OfBytes {bs : Bytes} (h : bs.length = 8) : i64Bytes (i64OfBytes bs) = bs := by
  rw [i64Bytes, i64OfBytes, UInt64.toUInt64_toInt64, ← u64Bytes, u64Bytes_u64OfBytes h]

theorem u32Bytes_u32OfBytes {bs : Bytes} (h : bs.length = 4) : u32Bytes (u32OfBytes bs) = bs := by
  have hlt := ofLeBytes_lt bs
  rw [h] at hlt
  have hn : (u32OfBytes bs).toNat = ofLeBytes bs := UInt32.toNat_ofNat_of_lt' hlt
  rw [u32Bytes, hn, ← h, leBytes_ofLeBytes]

theorem u16Bytes_u16OfBytes {bs : Bytes} (h : bs.length = 2) : u16Bytes (u16OfBytes bs) = bs := by
  have hlt := ofLeBytes_lt bs
  rw [h] at hlt
  have hn : (u16OfBytes bs).toNat = ofLeBytes bs := UInt16.toNat_ofNat_of_lt' hlt
  rw [u16Bytes, hn, ← h, leBytes_ofLeBytes]

theorem toNat_ofNat_size {n : Nat} (h : n ≤ usizeMax) : (UInt64.ofNat n).toNat = n :=
  UInt64.toNat_ofNat_of_lt' (by unfold usizeMax at h; unfold UInt64.size; omega)

theorem u64Bytes_eq_sizeBytes (v : UInt64) : u64Bytes v = sizeBytes v.toNat := rfl

/-! ## Slices -/

/-- The bytes from `start` up to `stop`, where both lie in the string. -/
def slice (bs : Bytes) (start stop : Nat) : Option Bytes :=
  if start ≤ stop ∧ stop ≤ bs.length then some ((bs.drop start).take (stop - start)) else none

/-- The next `n` bytes of a string and what follows them. -/
def takeBytes (n : Nat) (bs : Bytes) : Option (Bytes × Bytes) :=
  if n ≤ bs.length then some (bs.take n, bs.drop n) else none

@[simp] theorem takeBytes_append (xs ys : Bytes) : takeBytes xs.length (xs ++ ys) = some (xs, ys) := by
  simp [takeBytes]

theorem takeBytes_append' {n : Nat} {xs : Bytes} (ys : Bytes) (h : xs.length = n) :
    takeBytes n (xs ++ ys) = some (xs, ys) := h ▸ takeBytes_append xs ys

theorem takeBytes_eq_some {n : Nat} {bs xs ys : Bytes} :
    takeBytes n bs = some (xs, ys) ↔ bs = xs ++ ys ∧ xs.length = n := by
  constructor
  · intro h
    unfold takeBytes at h
    split at h
    · rename_i hn
      obtain ⟨rfl, rfl⟩ := Prod.mk.inj (Option.some.inj h)
      exact ⟨(List.take_append_drop n bs).symm, by simp [hn]⟩
    · cases h
  · rintro ⟨rfl, h⟩
    exact takeBytes_append' ys h

theorem slice_append (pre xs post : Bytes) :
    slice (pre ++ xs ++ post) pre.length (pre.length + xs.length) = some xs := by
  rw [slice, if_pos (by simp)]
  simp [List.append_assoc]

theorem slice_eq_none {bs : Bytes} {start stop : Nat} (h : bs.length < stop) : slice bs start stop = none := by
  rw [slice, if_neg (by omega)]

theorem slice_length {bs xs : Bytes} {start stop : Nat} (h : slice bs start stop = some xs) :
    xs.length = stop - start := by
  unfold slice at h
  split at h
  · rename_i hb
    obtain rfl := Option.some.inj h
    rw [List.length_take, List.length_drop]; omega
  · cases h

theorem getElem?_of_eq {input a b : Bytes} {x : UInt8} {o : Nat} (h : input = a ++ x :: b) (ha : a.length = o) :
    input[o]? = some x := by
  subst h ha
  simp

theorem slice_of_prefix {p bs xs : Bytes} (hp : p <+: bs) {start stop : Nat}
    (h : slice p start stop = some xs) : slice bs start stop = some xs := by
  obtain ⟨t, rfl⟩ := hp
  unfold slice at h ⊢
  split at h
  · rename_i hb
    rw [if_pos (by simp; omega), ← h, List.drop_append_of_le_length (by omega),
      List.take_append_of_le_length (by simp; omega)]
  · cases h

/-! ## Text -/

def utf8 (s : String) : Bytes := s.toByteArray.data.toList

def fromUtf8 (bs : Bytes) : Option String := String.fromUTF8? ⟨bs.toArray⟩

@[simp] theorem fromUtf8_utf8 (s : String) : fromUtf8 (utf8 s) = some s := by
  have hbytes : (⟨(utf8 s).toArray⟩ : ByteArray) = s.toByteArray := by simp [utf8]
  rw [fromUtf8, hbytes, String.fromUTF8?, dif_pos s.isValidUTF8]
  rfl

theorem utf8_of_fromUtf8 {bs : Bytes} {s : String} (h : fromUtf8 bs = some s) : utf8 s = bs := by
  unfold fromUtf8 String.fromUTF8? at h
  split at h
  · obtain rfl := Option.some.inj h
    simp [utf8, String.fromUTF8]
  · cases h

def ascii (s : String) : Bytes := s.toList.map fun c => UInt8.ofNat c.toNat

def toAsciiLowercase (s : String) : String := String.ofList (s.toList.map Char.toLower)

theorem utf8_append (s t : String) : utf8 (s ++ t) = utf8 s ++ utf8 t := by
  simp [utf8, String.toByteArray_append]

theorem utf8_ofList (cs : List Char) : utf8 (String.ofList cs) = cs.flatMap String.utf8EncodeChar := by
  rw [utf8, String.toByteArray_ofList, List.utf8Encode]
  simp

theorem length_utf8_ofList {cs : List Char} (h : ∀ c ∈ cs, c.utf8Size = 1) : (utf8 (String.ofList cs)).length = cs.length := by
  rw [utf8_ofList]
  induction cs with
  | nil => rfl
  | cons c cs ih =>
    obtain ⟨hc, hcs⟩ := List.forall_mem_cons.1 h
    rw [List.flatMap_cons, List.length_append, ih hcs, String.length_utf8EncodeChar, hc, List.length_cons, Nat.add_comm]

theorem utf8Size_of_isDigit {c : Char} (h : c.isDigit = true) : c.utf8Size = 1 := by
  have hle := (Char.isDigit_iff_toNat.1 h).2
  rw [Char.utf8Size_eq_one_iff, UInt32.le_iff_toNat_le]
  exact Nat.le_trans hle (by decide)

theorem length_utf8_toString (n : Nat) : (utf8 (toString n)).length = (Nat.toDigits 10 n).length := by
  rw [Nat.toString_eq_ofList_toDigits]
  exact length_utf8_ofList fun c hc => utf8Size_of_isDigit (Nat.isDigit_of_mem_toDigits (by decide) (by decide) hc)

theorem utf8_injective : Function.Injective utf8 := fun s t h => by
  have := congrArg fromUtf8 h
  simpa using this

end Words
