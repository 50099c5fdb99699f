import Torpedo.Util.Decoder
import Mathlib.Data.List.Induction

/-!
# Encoders

An encoder writes to a buffer and may throw. One that writes field by field does the same as one that
writes all these bytes at once (`putBytes`): the rules put the fields together, and say what the array
below the buffer is then.
-/

namespace Torpedo

/-! ## Digits -/

/-- The last `k` digits of a number to the base 256, most significant first. -/
def bytesOf : ℕ → ℕ → List UInt8
  | 0, _ => []
  | k + 1, n => bytesOf k (n / 256) ++ [UInt8.ofNat n]

theorem length_bytesOf (k n : ℕ) : (bytesOf k n).length = k := by
  induction k generalizing n with
  | zero => rfl
  | succ k ih => rw [bytesOf, List.length_append, ih, List.length_singleton]

theorem bytesOf_two (n : ℕ) : bytesOf 2 n = shortBytes n := rfl

theorem bigEndian_append_singleton (bs : List UInt8) (b : UInt8) :
    bigEndian (bs ++ [b]) = bigEndian bs * 256 + b.toNat := by
  unfold bigEndian
  rw [List.foldl_append]
  rfl

theorem bigEndian_bytesOf (k n : ℕ) : bigEndian (bytesOf k n) = n % 256 ^ k := by
  induction k generalizing n with
  | zero => rw [Nat.pow_zero, Nat.mod_one]; rfl
  | succ k ih =>
    have hdigit : (UInt8.ofNat n).toNat = n % 256 := UInt8.toNat_ofNat'
    rw [bytesOf, bigEndian_append_singleton, ih, hdigit, Nat.pow_succ', Nat.mod_mul]
    omega

theorem bytesOf_bigEndian (bs : List UInt8) : bytesOf bs.length (bigEndian bs) = bs := by
  induction bs using List.reverseRecOn with
  | nil => rfl
  | append_singleton bs b ih =>
    have hlt := b.toNat_lt
    have hdiv : (bigEndian bs * 256 + b.toNat) / 256 = bigEndian bs := by omega
    have hdigit : UInt8.ofNat (bigEndian bs * 256 + b.toNat) = b := by
      rw [← UInt8.toNat_inj, UInt8.toNat_ofNat']
      omega
    rw [List.length_append, List.length_singleton, bytesOf, bigEndian_append_singleton, hdiv, ih, hdigit]

/-! ## Buffers that are written -/

namespace ByteBuffer

variable (b : ByteBuffer)

/-- Back to the front. The limit stays. -/
def rewind : ByteBuffer := { b with position := 0, mark := none, position_le := Nat.zero_le _ }

variable {b} {b' : ByteBuffer} {bs : List UInt8}

theorem ext_fields (hhb : b.hb = b'.hb) (hposition : b.position = b'.position)
    (hlimit : b.limit = b'.limit) (hmark : b.mark = b'.mark) : b = b' := by
  cases b
  cases b'
  simp only at hhb hposition hlimit hmark
  subst hhb hposition hlimit hmark
  rfl

theorem put_some (h : bs.length ≤ b.remaining) :
    ∃ b', b.put bs = some b' ∧ b'.hb = b.before ++ bs ++ b.hb.drop (b.position + bs.length) ∧
      b'.position = b.position + bs.length ∧ b'.limit = b.limit ∧ b'.mark = b.mark :=
  ⟨_, dif_pos h, rfl, rfl, rfl, rfl⟩

variable (b)

theorem put_nil : b.put [] = some b := by
  have hlen : ([] : List UInt8).length ≤ b.remaining := Nat.zero_le _
  obtain ⟨b', hb', hhb, hposition, hlimit, hmark⟩ := put_some hlen
  have hsame : b.hb = b'.hb := by
    rw [hhb, List.append_nil]
    exact (List.take_append_drop _ _).symm
  rw [hb', ext_fields hsame hposition.symm hlimit.symm hmark.symm]

/-- Two writes are one. -/
theorem put_put (xs ys : List UInt8) : ((b.put xs).bind fun b' => b'.put ys) = b.put (xs ++ ys) := by
  have hlen : (xs ++ ys).length = xs.length + ys.length := List.length_append
  by_cases hx : xs.length ≤ b.remaining
  · obtain ⟨b', hb', hhb, hposition, hlimit, hmark⟩ := put_some hx
    have hpos : b'.position = (b.before ++ xs).length := by
      rw [hposition, List.length_append, b.length_before]
    have hbefore : b'.before = b.before ++ xs := by
      show b'.hb.take b'.position = _
      rw [hpos, hhb, List.take_left]
    have hrem : b'.remaining = b.remaining - xs.length := by
      unfold remaining
      rw [hlimit, hposition]
      omega
    rw [hb', Option.bind_some]
    by_cases hy : (xs ++ ys).length ≤ b.remaining
    · obtain ⟨c, hc, hhb', hposition', hlimit', hmark'⟩ := put_some hy
      have hys : ys.length ≤ b'.remaining := by omega
      obtain ⟨c', hc', hhb'', hposition'', hlimit'', hmark''⟩ := put_some hys
      have hdrop : b'.hb.drop (b'.position + ys.length) = b.hb.drop (b.position + (xs ++ ys).length) := by
        rw [← List.drop_drop, hpos, hhb, List.drop_left, List.drop_drop, hlen, Nat.add_assoc]
      have hsame : c.hb = c'.hb := by
        rw [hhb', hhb'', hbefore, hdrop, ← List.append_assoc b.before]
      rw [hc, hc', ext_fields hsame (by omega) (hlimit'.trans (hlimit''.trans hlimit).symm)
        (hmark'.trans (hmark''.trans hmark).symm)]
    · rw [put_eq_none (by omega), put_eq_none (by omega)]
  · rw [put_eq_none (by omega), put_eq_none (by omega), Option.bind_none]

/-- The buffer over a new array with these bytes at its front. -/
def written (bs : List UInt8) (n : ℕ) (h : bs.length ≤ n) : ByteBuffer where
  hb := bs ++ List.replicate (n - bs.length) 0
  position := bs.length
  limit := n
  mark := none
  position_le := h
  limit_le := by
    rw [List.length_append, List.length_replicate]
    omega

theorem put_allocate (bs : List UInt8) (n : ℕ) :
    (allocate n).put bs = if h : bs.length ≤ n then some (written bs n h) else none := by
  by_cases h : bs.length ≤ n
  · obtain ⟨b', hb', hhb, hposition, hlimit, hmark⟩ := put_some (b := allocate n) h
    have hsame : b'.hb = (written bs n h).hb := by
      rw [hhb, before_allocate, List.nil_append]
      show bs ++ (List.replicate n 0).drop (0 + bs.length) = _
      rw [List.drop_replicate, Nat.zero_add]
      rfl
    rw [hb', dif_pos h, ext_fields hsame (hposition.trans (Nat.zero_add _)) hlimit hmark]
  · rw [put_eq_none (Nat.lt_of_not_le h), dif_neg h]

end ByteBuffer

/-! ## Encoders -/

abbrev Encoder (α : Type) := StateT ByteBuffer (Except Stop) α

namespace Encoder

variable {α : Type}

def putBytes (bs : List UInt8) : Encoder Unit := fun bb => do
  let bb ← orThrow (bb.put bs)
  return ((), bb)

def putByte (b : UInt8) : Encoder Unit := putBytes [b]

def putShort (n : UInt16) : Encoder Unit := putBytes (bytesOf 2 n.toNat)

def putInt (n : UInt32) : Encoder Unit := putBytes (bytesOf 4 n.toNat)

def putLong (n : UInt64) : Encoder Unit := putBytes (bytesOf 8 n.toNat)

/-- Write an array, if there is one. -/
def putOptional : Option (List UInt8) → Encoder Unit
  | none => return
  | some bs => putBytes bs

/-- Write an array. `null` throws. -/
def putArray : Option (List UInt8) → Encoder Unit
  | none => throw .exception
  | some bs => putBytes bs

/-- Write the first bytes of an array. -/
def putPart (bs : List UInt8) (n : ℕ) : Encoder Unit :=
  if bs.length < n then throw .exception else putBytes (bs.take n)

/-- Write `n` zeros one by one. -/
def putZeros : ℕ → Encoder Unit
  | 0 => return
  | n + 1 => do
    putByte 0
    putZeros n

/-- Overwrite the two bytes at an index. -/
def putShortAt (index : ℕ) (n : UInt16) : Encoder Unit := fun bb => do
  let bb ← orThrow (bb.putAt index (bytesOf 2 n.toNat))
  return ((), bb)

def rewind : Encoder Unit := fun bb => .ok ((), bb.rewind)

/-- Write into a new array. A negative length throws. -/
def encode (length : ℤ) (e : Encoder α) : Except Stop (List UInt8 × α) :=
  if length < 0 then .error .exception
  else do
    let (a, bb) ← e (.allocate length.toNat)
    return (bb.hb, a)

/-! ## Encoders that throw -/

/-- The encoder throws, whatever the buffer. -/
def Fails (e : Encoder α) : Prop := ∀ b, e b = .error .exception

theorem fails_throw : Fails (throw .exception : Encoder α) := fun _ => rfl

theorem Fails.bind {β : Type} {e : Encoder α} (h : Fails e) (k : α → Encoder β) : Fails (e >>= k) :=
  fun b => Decoder.bind_error (h b)

theorem Fails.after {k : Encoder α} (h : Fails k) (bs : List UInt8) : Fails (do putBytes bs; k) := by
  intro b
  cases hput : b.put bs with
  | none =>
    have herror : putBytes bs b = .error .exception := by
      unfold putBytes
      rw [hput]
      rfl
    exact Decoder.bind_error herror
  | some b' =>
    have hok : putBytes bs b = .ok ((), b') := by
      unfold putBytes
      rw [hput]
      rfl
    exact (Decoder.bind_ok hok).trans (h b')

theorem Fails.encode {e : Encoder α} (h : Fails e) (length : ℤ) :
    encode length e = .error .exception := by
  unfold Encoder.encode
  split_ifs
  · rfl
  · rw [h]
    rfl

/-! ## Putting the fields together -/

theorem putBytes_nil : putBytes [] = pure () := by
  funext b
  show (do let bb ← orThrow (b.put []); return ((), bb) : Except Stop (Unit × ByteBuffer)) = _
  rw [ByteBuffer.put_nil]
  rfl

theorem putOptional_eq (o : Option (List UInt8)) : putOptional o = putBytes (o.getD []) := by
  cases o with
  | none => exact putBytes_nil.symm
  | some bs => rfl

theorem putBytes_putBytes (xs ys : List UInt8) :
    (do putBytes xs; putBytes ys) = putBytes (xs ++ ys) := by
  funext b
  show (do let p ← putBytes xs b; putBytes ys p.2) = putBytes (xs ++ ys) b
  unfold putBytes
  rw [← ByteBuffer.put_put]
  cases hx : b.put xs with
  | none => rfl
  | some b' => rfl

theorem putBytes_then (xs ys : List UInt8) (k : Encoder α) :
    (do putBytes xs; putBytes ys; k) = (do putBytes (xs ++ ys); k) := by
  rw [← putBytes_putBytes, bind_assoc]

theorem putZeros_eq (n : ℕ) : putZeros n = putBytes (List.replicate n 0) := by
  induction n with
  | zero => exact putBytes_nil.symm
  | succ n ih =>
    show (do putByte 0; putZeros n) = _
    rw [ih, putByte, putBytes_putBytes]
    rfl

theorem putShortAt_ok {b : ByteBuffer} {index : ℕ} (n : UInt16) (h : index + 2 ≤ b.limit) :
    ∃ b', putShortAt index n b = .ok ((), b') ∧
      b'.hb = b.hb.take index ++ bytesOf 2 n.toNat ++ b.hb.drop (index + 2) := by
  have hlen : index + (bytesOf 2 n.toNat).length ≤ b.limit := by rwa [length_bytesOf]
  unfold putShortAt ByteBuffer.putAt
  rw [dif_pos hlen]
  refine ⟨_, rfl, ?_⟩
  show _ ++ b.hb.drop (index + (bytesOf 2 n.toNat).length) = _
  rw [length_bytesOf]

/-- What has been written when an encoder goes on. -/
theorem encode_putBytes (length : ℤ) (bs : List UInt8) (k : Encoder α) :
    encode length (do putBytes bs; k) =
      if h : bs.length ≤ length.toNat ∧ 0 ≤ length then do
        let (a, bb) ← k (.written bs length.toNat h.1)
        return (bb.hb, a)
      else .error .exception := by
  unfold encode
  by_cases hneg : length < 0
  · rw [if_pos hneg, dif_neg (by omega)]
  · rw [if_neg hneg]
    show (do
      let p ← (do
        let bb ← orThrow ((ByteBuffer.allocate length.toNat).put bs)
        return ((), bb) : Except Stop (Unit × ByteBuffer)) >>= fun p => k p.2
      return (p.2.hb, p.1)) = _
    rw [ByteBuffer.put_allocate]
    by_cases hlen : bs.length ≤ length.toNat
    · rw [dif_pos hlen, dif_pos ⟨hlen, by omega⟩]
      rfl
    · rw [dif_neg hlen, dif_neg fun h => hlen h.1]
      rfl

end Encoder

end Torpedo
