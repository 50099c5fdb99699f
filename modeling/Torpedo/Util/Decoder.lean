import Torpedo.Util.ByteBuffer

/-!
# Decoders

A decoder reads from a buffer and may throw. `Reads` says what a decoder of a field does: how many bytes
it needs, and what it makes of them. `Decides` says when a result is one and when it is an exception; its
rules go through a decoder field by field, and the positions are those behind the fields read.
-/

namespace Torpedo

/-! ## The fields of some bytes -/

def byteAt (bs : List UInt8) (i : ℕ) : UInt8 := .ofNat (bigEndian ((bs.drop i).take 1))

def shortAt (bs : List UInt8) (i : ℕ) : UInt16 := .ofNat (bigEndian ((bs.drop i).take 2))

def intAt (bs : List UInt8) (i : ℕ) : UInt32 := .ofNat (bigEndian ((bs.drop i).take 4))

def longAt (bs : List UInt8) (i : ℕ) : UInt64 := .ofNat (bigEndian ((bs.drop i).take 8))

/-- The bytes of an array from an offset on. -/
def slice (data : List UInt8) (offset length : ℕ) : List UInt8 := (data.drop offset).take length

@[simp] theorem byteAt_drop (bs : List UInt8) (m i : ℕ) : byteAt (bs.drop m) i = byteAt bs (m + i) := by
  unfold byteAt
  rw [List.drop_drop]

@[simp] theorem shortAt_drop (bs : List UInt8) (m i : ℕ) :
    shortAt (bs.drop m) i = shortAt bs (m + i) := by
  unfold shortAt
  rw [List.drop_drop]

@[simp] theorem intAt_drop (bs : List UInt8) (m i : ℕ) : intAt (bs.drop m) i = intAt bs (m + i) := by
  unfold intAt
  rw [List.drop_drop]

/-! ## Decoders -/

abbrev Decoder (α : Type) := StateT ByteBuffer (Except Stop) α

namespace Decoder

variable {α β : Type}

def getBytes (n : ℕ) : Decoder (List UInt8) := fun bb => orThrow (bb.get n)

def getByte : Decoder UInt8 := do return .ofNat (bigEndian (← getBytes 1))

def getShort : Decoder UInt16 := do return .ofNat (bigEndian (← getBytes 2))

def getInt : Decoder UInt32 := do return .ofNat (bigEndian (← getBytes 4))

def getLong : Decoder UInt64 := do return .ofNat (bigEndian (← getBytes 8))

def remaining : Decoder ℕ := do return (← get).remaining

def position : Decoder ℕ := do return (← get).position

def setPosition (n : ℕ) : Decoder Unit := fun bb => do
  let bb ← orThrow (bb.setPosition n)
  return ((), bb)

/-- The `n` bytes at an index of the array. The position stays. -/
def getBytesAt (index n : ℕ) : Decoder (List UInt8) := fun bb =>
  if index + n ≤ bb.limit then .ok (slice bb.hb index n, bb) else .error .exception

def getByteAt (index : ℕ) : Decoder UInt8 := do return .ofNat (bigEndian (← getBytesAt index 1))

def getShortAt (index : ℕ) : Decoder UInt16 := do return .ofNat (bigEndian (← getBytesAt index 2))

def getIntAt (index : ℕ) : Decoder UInt32 := do return .ofNat (bigEndian (← getBytesAt index 4))

/-- Read `n` bytes one by one. -/
def skipBytes : ℕ → Decoder Unit
  | 0 => return
  | n + 1 => do
    let _ ← getByte
    skipBytes n

/-- Decode the rest of the buffer, from the array below it. -/
def rest (f : ℕ → ℕ → Except Stop α) : Decoder α := fun bb => do
  let a ← f bb.position (bb.limit - bb.position)
  return (a, bb)

/-- Decode some bytes of an array. -/
def decode (d : Decoder α) (data : List UInt8) (offset length : ℕ) : Except Stop α := do
  let bb ← orThrow (ByteBuffer.wrap data offset length)
  let (a, _) ← d bb
  return a

end Decoder

/-! ## The position -/

namespace ByteBuffer

variable (b : ByteBuffer) (m n : ℕ)

/-- The buffer behind the next `n` bytes, or at its limit. -/
def skip : ByteBuffer :=
  { b with position := min (b.position + n) b.limit, position_le := Nat.min_le_right _ _ }

@[simp] theorem hb_skip : (b.skip n).hb = b.hb := rfl

theorem skip_zero : b.skip 0 = b := by
  have hpos : min (b.position + 0) b.limit = b.position := Nat.min_eq_left b.position_le
  cases b
  simp only [skip, ByteBuffer.mk.injEq, true_and, and_true]
  exact hpos

@[simp] theorem skip_skip : (b.skip m).skip n = b.skip (m + n) := by
  have hpos : min (min (b.position + m) b.limit + n) b.limit = min (b.position + (m + n)) b.limit := by
    omega
  simp only [skip, hpos]

@[simp] theorem remaining_skip : (b.skip n).remaining = b.remaining - n := by
  have := b.position_le
  show b.limit - min (b.position + n) b.limit = b.limit - b.position - n
  omega

@[simp] theorem bytes_skip : (b.skip n).bytes = b.bytes.drop n := by
  unfold bytes
  rw [remaining_skip, List.drop_take, List.drop_drop]
  show (b.hb.drop (min (b.position + n) b.limit)).take _ = _
  by_cases h : b.position + n ≤ b.limit
  · rw [Nat.min_eq_left h]
  · have hzero : b.remaining - n = 0 := by
      unfold remaining
      omega
    rw [hzero, List.take_zero, List.take_zero]

end ByteBuffer

/-! ## Fields -/

namespace Decoder

variable {α β : Type} {d : Decoder α} {k : α → Decoder β} {m n : ℕ}

/-- The decoder throws if there are fewer than `n` bytes, and else reads them. -/
def Reads (d : Decoder α) (n : ℕ) (value : List UInt8 → α) : Prop :=
  ∀ b : ByteBuffer, d b =
    if n ≤ b.remaining then .ok (value b.bytes, b.skip n) else .error .exception

theorem reads_pure (a : α) : Reads (pure a) 0 fun _ => a := by
  intro b
  rw [if_pos (Nat.zero_le _), ByteBuffer.skip_zero]
  rfl

theorem Reads.bind {value : List UInt8 → α} {value' : α → List UInt8 → β} (hd : Reads d m value)
    (hk : ∀ a, Reads (k a) n (value' a)) :
    Reads (d >>= k) (m + n) fun bs => value' (value bs) (bs.drop m) := by
  intro b
  show (d b >>= fun p => k p.1 p.2) = _
  rw [hd b]
  by_cases hm : m ≤ b.remaining
  · rw [if_pos hm]
    show k (value b.bytes) (b.skip m) = _
    rw [hk _ (b.skip m), ByteBuffer.remaining_skip, ByteBuffer.skip_skip, ByteBuffer.bytes_skip]
    by_cases hn : m + n ≤ b.remaining
    · rw [if_pos hn, if_pos (by omega)]
    · rw [if_neg hn, if_neg (by omega)]
  · rw [if_neg hm, if_neg (by omega)]
    rfl

theorem Reads.map {value : List UInt8 → α} (hd : Reads d n value) (f : α → β) :
    Reads (do return f (← d)) n fun bs => f (value bs) := hd.bind fun a => reads_pure (f a)

theorem Reads.congr {value value' : List UInt8 → α} (hd : Reads d n value)
    (h : ∀ bs, n ≤ bs.length → value bs = value' bs) : Reads d n value' := by
  intro b
  rw [hd b]
  by_cases hn : n ≤ b.remaining
  · rw [if_pos hn, if_pos hn, h b.bytes (b.length_bytes.symm ▸ hn)]
  · rw [if_neg hn, if_neg hn]

theorem reads_getBytes (n : ℕ) : Reads (getBytes n) n fun bs => bs.take n := by
  intro b
  unfold getBytes ByteBuffer.get
  by_cases h : n ≤ b.remaining
  · have hpos : min (b.position + n) b.limit = b.position + n := by
      have := b.position_le
      unfold ByteBuffer.remaining at h
      omega
    rw [dif_pos h, if_pos h]
    simp only [orThrow, ByteBuffer.skip, hpos]
  · rw [dif_neg h, if_neg h]
    rfl

theorem reads_getByte : Reads getByte 1 fun bs => byteAt bs 0 := (reads_getBytes 1).map _

theorem reads_getShort : Reads getShort 2 fun bs => shortAt bs 0 := (reads_getBytes 2).map _

theorem reads_getInt : Reads getInt 4 fun bs => intAt bs 0 := (reads_getBytes 4).map _

theorem reads_getLong : Reads getLong 8 fun bs => longAt bs 0 := (reads_getBytes 8).map _

theorem reads_skipBytes (n : ℕ) : Reads (skipBytes n) n fun _ => () := by
  induction n with
  | zero => exact reads_pure ()
  | succ n ih =>
    have hcons : Reads (skipBytes (n + 1)) (1 + n) fun _ => () := reads_getByte.bind fun _ => ih
    rwa [Nat.add_comm 1 n] at hcons

end Decoder

theorem of_bind_eq_ok {ε α β : Type} {r : Except ε α} {k : α → Except ε β} {b : β}
    (h : (r >>= k) = .ok b) : ∃ a, r = .ok a ∧ k a = .ok b := by
  match r, h with
  | .ok a, h => exact ⟨a, rfl, h⟩

theorem of_map_ok {ε α β : Type} {f : α → β} {r : Except ε α} {b : β} (h : f <$> r = .ok b) :
    ∃ a, r = .ok a ∧ f a = b := by
  match r, h with
  | .ok a, h => exact ⟨a, rfl, Except.ok.inj h⟩

/-! ## What is decided -/

section Decides

variable {α β : Type} {r : Except Stop α} {P Q : Prop}

/-- There is a result if `P` holds, and an exception if not. -/
def Decides (r : Except Stop α) (P : Prop) : Prop :=
  (P → ∃ a, r = .ok a) ∧ (¬P → r = .error .exception)

theorem Decides.ok (a : α) : Decides (.ok a : Except Stop α) True :=
  ⟨fun _ => ⟨a, rfl⟩, fun h => absurd trivial h⟩

theorem Decides.throw : Decides (.error .exception : Except Stop α) False := ⟨False.elim, fun _ => rfl⟩

theorem Decides.congr (h : Decides r P) (hPQ : P ↔ Q) : Decides r Q :=
  ⟨fun hq => h.1 (hPQ.2 hq), fun hq => h.2 fun hp => hq (hPQ.1 hp)⟩

theorem Decides.iff (h : Decides r P) : (∃ a, r = .ok a) ↔ P := by
  refine ⟨?_, h.1⟩
  rintro ⟨a, ha⟩
  by_contra hp
  rw [h.2 hp] at ha
  cases ha

/-- The rest is decided where there is a result. -/
theorem Decides.bind {k : α → Except Stop β} (h : Decides r P) (hk : ∀ a, r = .ok a → Decides (k a) Q) :
    Decides (r >>= k) (P ∧ Q) := by
  by_cases hp : P
  · obtain ⟨a, ha⟩ := h.1 hp
    have hka := hk a ha
    rw [ha]
    exact hka.congr ⟨fun hq => ⟨hp, hq⟩, fun h => h.2⟩
  · rw [h.2 hp]
    exact Decides.throw.congr ⟨False.elim, fun h => hp h.1⟩

theorem Decides.ite {c : Prop} [Decidable c] (h : c → Decides r P) (h' : ¬c → Decides r Q) :
    Decides r (if c then P else Q) := by
  by_cases hc : c
  · rw [if_pos hc]
    exact h hc
  · rw [if_neg hc]
    exact h' hc

theorem Decides.map (h : Decides r P) (f : α → β) : Decides (f <$> r) P := by
  by_cases hp : P
  · obtain ⟨a, ha⟩ := h.1 hp
    rw [ha]
    exact (Decides.ok (f a)).congr ⟨fun _ => hp, fun _ => trivial⟩
  · rw [h.2 hp]
    exact Decides.throw.congr ⟨False.elim, fun h => hp h⟩

end Decides

namespace Decoder

variable {α β : Type} {b : ByteBuffer} {d : Decoder α} {k : α → Decoder β} {m n : ℕ} {P Q : Prop}

theorem decides_pure (a : α) : Decides ((pure a : Decoder α) b) True := Decides.ok (a, b)

theorem bind_ok {a : α} {b' : ByteBuffer} (h : d b = .ok (a, b')) : (d >>= k) b = k a b' := by
  show (d b >>= fun p => k p.1 p.2) = _
  rw [h]
  rfl

theorem bind_error {e : Stop} (h : d b = .error e) : (d >>= k) b = .error e := by
  show (d b >>= fun p => k p.1 p.2) = _
  rw [h]
  rfl

/-- Where there is a result, both parts have one. -/
theorem of_bind_ok {r : β × ByteBuffer} (h : (d >>= k) b = .ok r) :
    ∃ a b', d b = .ok (a, b') ∧ k a b' = .ok r := by
  obtain ⟨⟨a, b'⟩, ha, h⟩ := of_bind_eq_ok h
  exact ⟨a, b', ha, h⟩

theorem remaining_skip (b : ByteBuffer) (m : ℕ) :
    remaining (b.skip m) = .ok (b.remaining - m, b.skip m) := by
  rw [← ByteBuffer.remaining_skip]
  rfl

theorem decides_bind (hd : Decides (d b) P) (hk : ∀ a b', Decides (k a b') Q) :
    Decides ((d >>= k) b) (P ∧ Q) := hd.bind fun p _ => hk p.1 p.2

/-- A check that throws. -/
theorem decides_check {c : Prop} [Decidable c] (hd : Decides (d b) P) :
    Decides ((if c then throw .exception else d : Decoder α) b) (¬c ∧ P) := by
  split_ifs with hc
  · exact Decides.throw.congr ⟨False.elim, fun h => h.1 hc⟩
  · exact hd.congr (and_iff_right hc).symm

/-- A field, and then the others. -/
theorem Reads.decides {value : List UInt8 → α} (hd : Reads d n value)
    (hk : Decides (k (value (b.bytes.drop m)) (b.skip (m + n))) P) :
    Decides ((d >>= k) (b.skip m)) (n ≤ b.remaining - m ∧ P) := by
  show Decides (d (b.skip m) >>= fun p => k p.1 p.2) _
  rw [hd (b.skip m), ByteBuffer.bytes_skip, ByteBuffer.remaining_skip, ByteBuffer.skip_skip]
  by_cases h : n ≤ b.remaining - m
  · rw [if_pos h]
    exact hk.congr ⟨fun hp => ⟨h, hp⟩, fun hp => hp.2⟩
  · rw [if_neg h]
    exact Decides.throw.congr ⟨False.elim, fun hp => h hp.1⟩

/-- A field that is known to be there. -/
theorem Reads.decides_of_le {value : List UInt8 → α} (hd : Reads d n value) (h : n ≤ b.remaining - m)
    (hk : Decides (k (value (b.bytes.drop m)) (b.skip (m + n))) P) :
    Decides ((d >>= k) (b.skip m)) P := (hd.decides hk).congr (and_iff_right h)

theorem decides_remaining {k : ℕ → Decoder β} (hk : Decides (k (b.remaining - m) (b.skip m)) P) :
    Decides ((remaining >>= k) (b.skip m)) P := by
  rw [bind_ok (remaining_skip b m)]
  exact hk

/-- Whether there is a result for some bytes of an array depends on these. -/
def DecidesSlices (f : ℕ → ℕ → Except Stop α) (data : List UInt8) (C : List UInt8 → Prop) : Prop :=
  ∀ offset length, offset + length ≤ data.length → Decides (f offset length) (C (slice data offset length))

theorem DecidesSlices.map {f : ℕ → ℕ → Except Stop α} {data : List UInt8} {C : List UInt8 → Prop}
    (hf : DecidesSlices f data C) (g : α → β) :
    DecidesSlices (fun offset length => g <$> f offset length) data C :=
  fun offset length h => (hf offset length h).map g

theorem DecidesSlices.ite {f g : ℕ → ℕ → Except Stop α} {data : List UInt8} {C D : List UInt8 → Prop}
    {c : Prop} [Decidable c] (hf : DecidesSlices f data C) (hg : DecidesSlices g data D) :
    DecidesSlices (fun offset length => if c then f offset length else g offset length) data
      (fun bs => if c then C bs else D bs) := by
  intro offset length h
  dsimp only
  split_ifs
  · exact hf offset length h
  · exact hg offset length h

theorem decides_rest {f : ℕ → ℕ → Except Stop α} {C : List UInt8 → Prop}
    (hf : DecidesSlices f b.hb C) (hk : ∀ a, Decides (k a (b.skip m)) P) :
    Decides ((rest f >>= k) (b.skip m)) (C (b.bytes.drop m) ∧ P) := by
  have hfit : (b.skip m).position + ((b.skip m).limit - (b.skip m).position) ≤ b.hb.length := by
    have := (b.skip m).position_le
    have := (b.skip m).limit_le
    rw [ByteBuffer.hb_skip] at this
    omega
  have hrest := hf _ _ hfit
  have hbytes : slice b.hb (b.skip m).position ((b.skip m).limit - (b.skip m).position) =
      b.bytes.drop m := b.bytes_skip m
  rw [hbytes] at hrest
  show Decides ((f _ _ >>= fun a => .ok (a, b.skip m)) >>= fun p => k p.1 p.2) _
  rw [bind_assoc]
  exact hrest.bind fun a _ => hk a

theorem decides_decode {data : List UInt8} {C : List UInt8 → Prop}
    (hd : ∀ b : ByteBuffer, b.hb = data → Decides (d (b.skip 0)) (C b.bytes)) :
    DecidesSlices (decode d data) data C := by
  intro offset length h
  have hwrap : ByteBuffer.wrap data offset length =
      some ⟨data, offset, offset + length, none, by omega, h⟩ := dif_pos h
  have hb := hd ⟨data, offset, offset + length, none, by omega, h⟩ rfl
  have hbytes : ByteBuffer.bytes ⟨data, offset, offset + length, none, by omega, h⟩ =
      slice data offset length := by
    unfold ByteBuffer.bytes ByteBuffer.remaining slice
    rw [Nat.add_sub_cancel_left]
  rw [ByteBuffer.skip_zero, hbytes] at hb
  unfold decode
  rw [hwrap]
  exact (hb.bind fun p _ => Decides.ok p.1).congr ⟨fun h => h.1, fun h => ⟨h, trivial⟩⟩

end Decoder

end Torpedo
