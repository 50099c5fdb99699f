import Torpedo.Util.Encoder

/-!
# Reading what was written

A decoder that finds some bytes at the position of its buffer gives a value for them, and goes on behind
them (`Parses`). The buffers here are over a whole array, and stand behind its first bytes.
-/

namespace Torpedo

namespace ByteBuffer

/-- The buffer over an array, behind its first bytes. -/
def behind (front bs : List UInt8) : ByteBuffer where
  hb := front ++ bs
  position := front.length
  limit := (front ++ bs).length
  mark := none
  position_le := by
    rw [List.length_append]
    exact Nat.le_add_right _ _
  limit_le := le_rfl

variable (front xs ys : List UInt8)

theorem remaining_behind : (behind front xs).remaining = xs.length := by
  show (front ++ xs).length - front.length = xs.length
  rw [List.length_append, Nat.add_sub_cancel_left]

theorem bytes_behind : (behind front xs).bytes = xs := by
  unfold bytes
  rw [remaining_behind]
  show ((front ++ xs).drop front.length).take xs.length = xs
  rw [List.drop_left, List.take_length]

theorem skip_behind : (behind front (xs ++ ys)).skip xs.length = behind (front ++ xs) ys := by
  have hlen : (front ++ xs ++ ys).length = (front ++ (xs ++ ys)).length := by
    rw [List.append_assoc]
  refine ext_fields (List.append_assoc _ _ _).symm ?_ hlen.symm rfl
  show min (front.length + xs.length) (front ++ (xs ++ ys)).length = (front ++ xs).length
  simp only [List.length_append]
  omega

end ByteBuffer

namespace Decoder

variable {α β : Type} {d : Decoder α} {k : α → Decoder β} {a : α} {c : β} {front xs ys : List UInt8}

/-- At these bytes, the decoder gives this value and goes on behind them. -/
def Parses (d : Decoder α) (xs : List UInt8) (a : α) : Prop :=
  ∀ front ys, d (.behind front (xs ++ ys)) = .ok (a, .behind (front ++ xs) ys)

theorem Reads.parses {n : ℕ} {value : List UInt8 → α} (hd : Reads d n value) (hlen : xs.length = n)
    (hvalue : ∀ ys, value (xs ++ ys) = a) : Parses d xs a := by
  intro front ys
  rw [hd, ByteBuffer.remaining_behind, ByteBuffer.bytes_behind, hvalue, ← hlen, ByteBuffer.skip_behind,
    List.length_append, if_pos (Nat.le_add_right _ _)]

theorem Parses.bind (hd : Parses d xs a) (hk : Parses (k a) ys c) : Parses (d >>= k) (xs ++ ys) c := by
  intro front zs
  rw [List.append_assoc, bind_ok (hd front (ys ++ zs)), hk, List.append_assoc]

/-- Go on behind the bytes. -/
theorem Parses.run (hd : Parses d xs a) :
    (d >>= k) (.behind front (xs ++ ys)) = k a (.behind (front ++ xs) ys) := bind_ok (hd front ys)

theorem parses_getBytes (xs : List UInt8) : Parses (getBytes xs.length) xs xs :=
  (reads_getBytes xs.length).parses rfl fun _ => List.take_left

theorem parses_getByte (b : UInt8) : Parses getByte [b] b := by
  refine reads_getByte.parses rfl fun ys => ?_
  show UInt8.ofNat (0 * 256 + b.toNat) = b
  rw [Nat.zero_mul, Nat.zero_add, UInt8.ofNat_toNat]

theorem take_bytesOf (n m : ℕ) (ys : List UInt8) : (bytesOf n m ++ ys).take n = bytesOf n m := by
  rw [List.take_append_of_le_length (length_bytesOf n m).ge, List.take_of_length_le (length_bytesOf n m).le]

theorem shortAt_bytesOf (n : UInt16) (ys : List UInt8) : shortAt (bytesOf 2 n.toNat ++ ys) 0 = n := by
  have hlt : n.toNat < 256 ^ 2 := n.toNat_lt
  unfold shortAt
  rw [List.drop_zero, take_bytesOf, bigEndian_bytesOf, Nat.mod_eq_of_lt hlt, UInt16.ofNat_toNat]

/-- A number of two bytes, behind others. -/
theorem shortAt_append_bytesOf (front rest : List UInt8) (n : UInt16) :
    shortAt (front ++ (bytesOf 2 n.toNat ++ rest)) front.length = n := by
  have hdrop := shortAt_drop (front ++ (bytesOf 2 n.toNat ++ rest)) front.length 0
  rw [List.drop_left, Nat.add_zero] at hdrop
  rw [← hdrop, shortAt_bytesOf]

theorem intAt_bytesOf (n : UInt32) (ys : List UInt8) : intAt (bytesOf 4 n.toNat ++ ys) 0 = n := by
  have hlt : n.toNat < 256 ^ 4 := n.toNat_lt
  unfold intAt
  rw [List.drop_zero, take_bytesOf, bigEndian_bytesOf, Nat.mod_eq_of_lt hlt, UInt32.ofNat_toNat]

theorem longAt_bytesOf (n : UInt64) (ys : List UInt8) : longAt (bytesOf 8 n.toNat ++ ys) 0 = n := by
  have hlt : n.toNat < 256 ^ 8 := n.toNat_lt
  unfold longAt
  rw [List.drop_zero, take_bytesOf, bigEndian_bytesOf, Nat.mod_eq_of_lt hlt, UInt64.ofNat_toNat]

theorem parses_getShort (n : UInt16) : Parses getShort (bytesOf 2 n.toNat) n :=
  reads_getShort.parses (length_bytesOf 2 _) (shortAt_bytesOf n)

theorem parses_getInt (n : UInt32) : Parses getInt (bytesOf 4 n.toNat) n :=
  reads_getInt.parses (length_bytesOf 4 _) (intAt_bytesOf n)

theorem parses_getLong (n : UInt64) : Parses getLong (bytesOf 8 n.toNat) n :=
  reads_getLong.parses (length_bytesOf 8 _) (longAt_bytesOf n)

theorem remaining_run {k : ℕ → Decoder β} :
    (remaining >>= k) (.behind front xs) = k xs.length (.behind front xs) := by
  rw [← ByteBuffer.remaining_behind front xs]
  rfl

/-- The rest of the array is decoded at its place. -/
theorem rest_run {f : ℕ → ℕ → Except Stop α} :
    (rest f >>= k) (.behind front xs) = f front.length xs.length >>= fun a => k a (.behind front xs) := by
  have hlen : (ByteBuffer.behind front xs).limit - (ByteBuffer.behind front xs).position = xs.length :=
    ByteBuffer.remaining_behind front xs
  show ((do
    let a ← f front.length ((ByteBuffer.behind front xs).limit - (ByteBuffer.behind front xs).position)
    return (a, ByteBuffer.behind front xs)) >>= fun p => k p.1 p.2) = _
  rw [hlen, bind_assoc]
  rfl

theorem decode_behind :
    decode d (front ++ xs) front.length xs.length = Prod.fst <$> d (.behind front xs) := by
  have hlen : front.length + xs.length ≤ (front ++ xs).length := by rw [List.length_append]
  have hwrap : ByteBuffer.wrap (front ++ xs) front.length xs.length = some (.behind front xs) := by
    unfold ByteBuffer.wrap
    rw [dif_pos hlen]
    exact congrArg some (ByteBuffer.ext_fields rfl rfl (List.length_append).symm rfl)
  unfold decode
  rw [hwrap]
  rfl

theorem Parses.decode_behind (hd : Parses d xs a) (front : List UInt8) :
    decode d (front ++ xs) front.length xs.length = .ok a := by
  have hend := hd front []
  rw [List.append_nil] at hend
  rw [Decoder.decode_behind, hend]
  rfl

theorem decode_all : decode d xs 0 xs.length = Prod.fst <$> d (.behind [] xs) := by
  have h : decode d ([] ++ xs) ([] : List UInt8).length xs.length = _ := decode_behind
  exact h

theorem map_bind_pure {f : α → β} {b : ByteBuffer} :
    Prod.fst <$> (d >>= fun a => pure (f a)) b = (fun r => f r.1) <$> d b := by
  show Prod.fst <$> (d b >>= fun p => Except.ok (f p.1, p.2)) = _
  cases d b <;> rfl

end Decoder

/-! ## Decoders that do not look at the position -/

namespace Decoder

variable {α β : Type} {d : Decoder α} {k : α → Decoder β}

/-- The same value, and the same bytes left. -/
def Agree (r r' : Except Stop (α × ByteBuffer)) : Prop :=
  match r, r' with
  | .ok (a, b), .ok (a', b') => a = a' ∧ b.bytes = b'.bytes
  | .error e, .error e' => e = e'
  | _, _ => False

/-- The decoder depends on the bytes of its buffer only. -/
def Local (d : Decoder α) : Prop := ∀ b b' : ByteBuffer, b.bytes = b'.bytes → Agree (d b) (d b')

theorem local_pure (a : α) : Local (pure a) := fun _ _ h => ⟨rfl, h⟩

theorem local_throw (e : Stop) : Local (throw e : Decoder α) := fun _ _ _ => rfl

theorem Local.bind (hd : Local d) (hk : ∀ a, Local (k a)) : Local (d >>= k) := by
  intro b b' h
  have hagree := hd b b' h
  show Agree (d b >>= fun p => k p.1 p.2) (d b' >>= fun p => k p.1 p.2)
  match d b, d b', hagree with
  | .ok (a, c), .ok (_, c'), ⟨rfl, hbytes⟩ => exact hk a c c' hbytes
  | .error _, .error _, hagree => exact hagree

theorem Local.ite {c : Prop} [Decidable c] {d' : Decoder α} (hd : Local d) (hd' : Local d') :
    Local (if c then d else d') := by
  split_ifs
  · exact hd
  · exact hd'

theorem Reads.local {n : ℕ} {value : List UInt8 → α} (hd : Reads d n value) : Local d := by
  intro b b' h
  have hrem : b.remaining = b'.remaining := by
    rw [← b.length_bytes, ← b'.length_bytes, h]
  rw [hd b, hd b', ← hrem]
  split_ifs
  · exact ⟨by rw [h], by rw [b.bytes_skip, b'.bytes_skip, h]⟩
  · rfl

theorem local_remaining : Local remaining := by
  intro b b' h
  refine ⟨?_, h⟩
  show b.remaining = b'.remaining
  rw [← b.length_bytes, ← b'.length_bytes, h]

theorem Local.decode_eq (hd : Local d) (front bs : List UInt8) :
    decode d (front ++ bs) front.length bs.length = decode d bs 0 bs.length := by
  have hagree := hd (.behind front bs) (.behind [] bs) (by rw [ByteBuffer.bytes_behind,
    ByteBuffer.bytes_behind])
  rw [decode_behind, decode_all]
  match d (.behind front bs), d (.behind [] bs), hagree with
  | .ok (_, _), .ok (_, _), ⟨rfl, _⟩ => rfl
  | .error _, .error _, hagree => exact congrArg Except.error hagree

end Decoder

/-! ## Splitting an array into fields -/

theorem bigEndian_lt (bs : List UInt8) : bigEndian bs < 256 ^ bs.length := by
  have hmod := bigEndian_bytesOf bs.length (bigEndian bs)
  rw [bytesOf_bigEndian] at hmod
  rw [hmod]
  exact Nat.mod_lt _ (Nat.pow_pos (by decide))

theorem bytesOf_field {n : ℕ} {bs : List UInt8} (h : n ≤ bs.length) :
    bytesOf n (bigEndian (bs.take n)) ++ bs.drop n = bs := by
  have hbytes := bytesOf_bigEndian (bs.take n)
  rw [List.length_take_of_le h] at hbytes
  rw [hbytes, List.take_append_drop]

theorem bytesOf_shortAt {bs : List UInt8} (h : 2 ≤ bs.length) :
    bytesOf 2 (shortAt bs 0).toNat ++ bs.drop 2 = bs := by
  have hlt := bigEndian_lt (bs.take 2)
  rw [List.length_take_of_le h] at hlt
  have hvalue : (shortAt bs 0).toNat = bigEndian (bs.take 2) := by
    unfold shortAt
    rw [List.drop_zero, UInt16.toNat_ofNat']
    exact Nat.mod_eq_of_lt hlt
  rw [hvalue, bytesOf_field h]

theorem bytesOf_intAt {bs : List UInt8} (h : 4 ≤ bs.length) :
    bytesOf 4 (intAt bs 0).toNat ++ bs.drop 4 = bs := by
  have hlt := bigEndian_lt (bs.take 4)
  rw [List.length_take_of_le h] at hlt
  have hvalue : (intAt bs 0).toNat = bigEndian (bs.take 4) := by
    unfold intAt
    rw [List.drop_zero, UInt32.toNat_ofNat']
    exact Nat.mod_eq_of_lt hlt
  rw [hvalue, bytesOf_field h]

/-! ## Positions of an array -/

namespace ByteBuffer

/-- The buffer over an array, at a position. -/
def overData (data : List UInt8) (m : ℕ) : ByteBuffer := (behind [] data).skip m

variable {data : List UInt8} {m n : ℕ}

theorem position_over (h : m ≤ data.length) : (overData data m).position = m := by
  show min (0 + m) ([] ++ data).length = m
  rw [Nat.zero_add, List.nil_append, Nat.min_eq_left h]

theorem limit_over : (overData data m).limit = data.length := rfl

theorem setPosition_over (h : n ≤ data.length) : (overData data m).setPosition n = some (overData data n) := by
  rw [setPosition_eq (by rw [limit_over]; exact h)]
  exact congrArg some (ext_fields rfl (position_over h).symm rfl rfl)

theorem over_eq (h : m ≤ data.length) : overData data m = behind (data.take m) (data.drop m) := by
  have hdata : data.take m ++ data.drop m = data := List.take_append_drop m data
  have hlen : (data.take m).length = m := List.length_take_of_le h
  refine ext_fields hdata.symm ?_ (congrArg List.length hdata.symm) rfl
  rw [position_over h]
  exact hlen.symm

end ByteBuffer

namespace Decoder

open ByteBuffer (overData)

variable {α β : Type} {d : Decoder α} {k : α → Decoder β} {data : List UInt8} {m n : ℕ}

/-- A field at a position, and then the others. -/
theorem Reads.run_over {value : List UInt8 → α} (hd : Reads d n value) (h : m + n ≤ data.length) :
    (d >>= k) (overData data m) = k (value (data.drop m)) (overData data (m + n)) := by
  refine bind_ok ?_
  show d ((ByteBuffer.behind [] data).skip m) = _
  rw [hd, ByteBuffer.remaining_skip, ByteBuffer.remaining_behind, ByteBuffer.bytes_skip,
    ByteBuffer.bytes_behind, ByteBuffer.skip_skip, if_pos (by omega)]
  rfl

/-- Where there is a result, the field is there. -/
theorem Reads.run_over_ok {value : List UInt8 → α} (hd : Reads d n value) {r : β × ByteBuffer}
    (hm : m ≤ data.length) (h : (d >>= k) (overData data m) = .ok r) :
    m + n ≤ data.length ∧ k (value (data.drop m)) (overData data (m + n)) = .ok r := by
  by_cases hn : m + n ≤ data.length
  · exact ⟨hn, (hd.run_over hn).symm.trans h⟩
  · have hthrow : d (ByteBuffer.overData data m) = .error .exception := by
      show d ((ByteBuffer.behind [] data).skip m) = _
      rw [hd, ByteBuffer.remaining_skip, ByteBuffer.remaining_behind, if_neg (by omega)]
    rw [bind_error hthrow] at h
    cases h

theorem position_over {k : ℕ → Decoder β} (h : m ≤ data.length) :
    (position >>= k) (overData data m) = k m (overData data m) := by
  show k (ByteBuffer.overData data m).position _ = _
  rw [ByteBuffer.position_over h]

theorem setPosition_over {k : Unit → Decoder β} (h : n ≤ data.length) :
    (setPosition n >>= k) (overData data m) = k () (overData data n) := by
  refine bind_ok ?_
  unfold setPosition
  rw [ByteBuffer.setPosition_over h]
  rfl

theorem getBytesAt_over (index : ℕ) : getBytesAt index n (overData data m) =
    if index + n ≤ data.length then .ok (slice data index n, overData data m) else .error .exception := rfl

theorem getByteAt_over {k : UInt8 → Decoder β} {index : ℕ} (h : index + 1 ≤ data.length) :
    (getByteAt index >>= k) (overData data m) = k (byteAt data index) (overData data m) := by
  refine bind_ok (bind_ok ?_)
  rw [getBytesAt_over, if_pos h]
  rfl

theorem getShortAt_over {k : UInt16 → Decoder β} {index : ℕ} (h : index + 2 ≤ data.length) :
    (getShortAt index >>= k) (overData data m) = k (shortAt data index) (overData data m) := by
  refine bind_ok (bind_ok ?_)
  rw [getBytesAt_over, if_pos h]
  rfl

theorem getIntAt_over {k : UInt32 → Decoder β} {index : ℕ} (h : index + 4 ≤ data.length) :
    (getIntAt index >>= k) (overData data m) = k (intAt data index) (overData data m) := by
  refine bind_ok (bind_ok ?_)
  rw [getBytesAt_over, if_pos h]
  rfl

theorem getIntAt_over_error {k : UInt32 → Decoder β} {index : ℕ} (h : data.length < index + 4) :
    (getIntAt index >>= k) (overData data m) = .error .exception := by
  refine bind_error (bind_error ?_)
  rw [getBytesAt_over, if_neg (by omega)]

/-- The rest of the array is decoded at the position. -/
theorem rest_over {f : ℕ → ℕ → Except Stop α} (h : m ≤ data.length) :
    (rest f >>= k) (overData data m) = f m (data.length - m) >>= fun a => k a (overData data m) := by
  have hlen : (data.take m).length = m := List.length_take_of_le h
  rw [ByteBuffer.over_eq h, rest_run, hlen, List.length_drop]

theorem decode_over (h : m ≤ data.length) :
    decode d data m (data.length - m) = Prod.fst <$> d (overData data m) := by
  have hlen : (data.take m).length = m := List.length_take_of_le h
  have hdecode : decode d (data.take m ++ data.drop m) (data.take m).length (data.drop m).length = _ :=
    decode_behind
  rwa [List.take_append_drop, hlen, List.length_drop, ← ByteBuffer.over_eq h] at hdecode

theorem decode_over_ok {a : α} (h : m ≤ data.length) (hd : decode d data m (data.length - m) = .ok a) :
    ∃ b, d (overData data m) = .ok (a, b) := by
  rw [decode_over h] at hd
  match hr : d (ByteBuffer.overData data m), hd with
  | .ok (_, b), rfl => exact ⟨b, rfl⟩

end Decoder
end Torpedo
