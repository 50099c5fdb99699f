import Torpedo.Util.Codec

/-!
# Two runs of a decoder

A decoder of some bytes of an array should not see the others. `KeepsBehind` says for which bytes it does: over
two arrays with the same bytes at the same place, the results are the same unless it keeps what is behind the
bytes, and that is not the same. The rules for `Leaks` go through a decoder field by field, in both runs.
-/

namespace Torpedo

namespace ByteBuffer

/-- The same bytes left at the same place, of two arrays. -/
structure Twins (b b' : ByteBuffer) : Prop where
  position : b.position = b'.position
  limit : b.limit = b'.limit
  bytes : b.bytes = b'.bytes

variable {b b' : ByteBuffer}

theorem Twins.remaining (h : Twins b b') : b.remaining = b'.remaining := by
  unfold ByteBuffer.remaining
  rw [h.position, h.limit]

theorem Twins.skip (h : Twins b b') (n : ℕ) : Twins (b.skip n) (b'.skip n) where
  position := by
    show min (b.position + n) b.limit = min (b'.position + n) b'.limit
    rw [h.position, h.limit]
  limit := h.limit
  bytes := by rw [bytes_skip, bytes_skip, h.bytes]

end ByteBuffer

namespace Decoder

open ByteBuffer

variable {α β : Type}

/-- The results for the same bytes of two arrays differ only in what comes from behind the bytes, and in that
if the bytes have the property. -/
def KeepsBehind (f : List UInt8 → ℕ → ℕ → Except Stop α) (C : List UInt8 → Prop) : Prop :=
  ∀ data data' offset length, offset + length ≤ data.length → offset + length ≤ data'.length →
    slice data offset length = slice data' offset length →
    (f data offset length = f data' offset length ↔
      (C (slice data offset length) → data.drop (offset + length) = data'.drop (offset + length)))

/-- The runs give the same exactly if, with `K`, the same is behind both buffers. -/
def Leaks (d d' : Decoder α) (b b' : ByteBuffer) (K : Prop) : Prop :=
  Prod.fst <$> d b = Prod.fst <$> d' b' ↔ (K → b.hb.drop b.limit = b'.hb.drop b'.limit)

variable {d d' : Decoder α} {k k' : α → Decoder β} {b b' : ByteBuffer} {m n : ℕ} {K K' : Prop}

theorem Leaks.congr (h : Leaks d d' b b' K) (hK : K ↔ K') : Leaks d d' b b' K' := by
  unfold Leaks at *
  rw [h, hK]

theorem leaks_of_eq (h : Prod.fst <$> d b = Prod.fst <$> d' b') : Leaks d d' b b' False :=
  ⟨fun _ hK => hK.elim, fun _ => h⟩

theorem leaks_pure (a : α) : Leaks (pure a) (pure a) b b' False := leaks_of_eq rfl

theorem leaks_throw (e : Stop) : Leaks (throw e : Decoder α) (throw e) b b' False := leaks_of_eq rfl

theorem Leaks.ite {c : Prop} [Decidable c] (h : c → Leaks d d' b b' K) (h' : ¬c → Leaks d d' b b' K') :
    Leaks d d' b b' (if c then K else K') := by
  split_ifs with hc
  · exact h hc
  · exact h' hc

/-- A check that throws. -/
theorem leaks_check {c : Prop} [Decidable c] (h : Leaks d d' b b' K) :
    Leaks (if c then throw .exception else d) (if c then throw .exception else d') b b' (¬c ∧ K) := by
  by_cases hc : c
  · simpa only [if_pos hc] using (leaks_throw .exception).congr (by simp [hc])
  · simpa only [if_neg hc] using h.congr (and_iff_right hc).symm

/-- A field, and then the others. -/
theorem Reads.leaks {value : List UInt8 → α} (ht : Twins b b') (hd : Reads d n value)
    (hk : Leaks (k (value (b.bytes.drop m))) (k' (value (b.bytes.drop m))) (b.skip (m + n)) (b'.skip (m + n)) K) :
    Leaks (d >>= k) (d >>= k') (b.skip m) (b'.skip m) (n ≤ b.remaining - m ∧ K) := by
  have hrun := hd (b.skip m)
  have hrun' := hd (b'.skip m)
  rw [ByteBuffer.bytes_skip, ByteBuffer.remaining_skip, ByteBuffer.skip_skip] at hrun hrun'
  rw [← ht.bytes, ← ht.remaining] at hrun'
  by_cases h : n ≤ b.remaining - m
  · rw [if_pos h] at hrun hrun'
    unfold Leaks at *
    rw [bind_ok hrun, bind_ok hrun', hk]
    simp only [h, true_and]
    rfl
  · rw [if_neg h] at hrun hrun'
    refine (leaks_of_eq ?_).congr (by simp [h])
    rw [bind_error hrun, bind_error hrun']

theorem leaks_remaining {k k' : ℕ → Decoder β} (ht : Twins b b')
    (hk : Leaks (k (b.remaining - m)) (k' (b.remaining - m)) (b.skip m) (b'.skip m) K) :
    Leaks (remaining >>= k) (remaining >>= k') (b.skip m) (b'.skip m) K := by
  unfold Leaks at *
  rw [bind_ok (Decoder.remaining_skip b m), bind_ok (Decoder.remaining_skip b' m), ← ht.remaining]
  exact hk

/-- What does not look at the place keeps nothing. -/
theorem Local.leaks (hd : Local d) (ht : Twins b b') : Leaks d d b b' False := by
  refine leaks_of_eq ?_
  have hagree := hd b b' ht.bytes
  match d b, d b', hagree with
  | .ok (_, _), .ok (_, _), ⟨rfl, _⟩ => rfl
  | .error _, .error _, rfl => rfl

theorem map_eq_map_iff {g : α → β} (hg : Function.Injective g) {r r' : Except Stop α} :
    g <$> r = g <$> r' ↔ r = r' := by
  constructor
  · intro h
    cases r with
    | error e =>
      cases r' with
      | error e' =>
        cases h
        rfl
      | ok a' => cases h
    | ok a =>
      cases r' with
      | error e' => cases h
      | ok a' => rw [hg (Except.ok.inj h)]
  · rintro rfl
    rfl

theorem leaks_rest_here {f : List UInt8 → ℕ → ℕ → Except Stop α} {C : List UInt8 → Prop} {g : α → β}
    (ht : Twins b b') (hf : KeepsBehind f C) (hg : Function.Injective g) :
    Leaks (do return g (← rest (f b.hb))) (do return g (← rest (f b'.hb))) b b' (C b.bytes) := by
  have hend : b.position + (b.limit - b.position) = b.limit := Nat.add_sub_cancel' b.position_le
  have hslice : ∀ c : ByteBuffer, slice c.hb c.position (c.limit - c.position) = c.bytes := fun _ => rfl
  have hrest := hf b.hb b'.hb b.position (b.limit - b.position) (by rw [hend]; exact b.limit_le)
    (by rw [hend, ht.limit]; exact b'.limit_le)
    (by rw [hslice, ht.bytes, ht.position, ht.limit, hslice])
  rw [hslice, hend] at hrest
  have hrun : ∀ c : ByteBuffer, Prod.fst <$> (do return g (← rest (f c.hb)) : Decoder β) c =
      g <$> f c.hb c.position (c.limit - c.position) := by
    intro c
    unfold rest
    show Prod.fst <$> ((f c.hb c.position (c.limit - c.position) >>= fun a => .ok (a, c)) >>= fun p =>
      .ok (g p.1, p.2)) = _
    cases f c.hb c.position (c.limit - c.position) <;> rfl
  unfold Leaks
  rw [hrun, hrun, map_eq_map_iff hg, ← ht.position, ← ht.limit]
  exact hrest

/-- The rest is decoded, and the packet is kept in another. -/
theorem leaks_rest {f : List UInt8 → ℕ → ℕ → Except Stop α} {C : List UInt8 → Prop} {g : α → β}
    (ht : Twins b b') (hf : KeepsBehind f C) (hg : Function.Injective g) :
    Leaks (do return g (← rest (f b.hb))) (do return g (← rest (f b'.hb))) (b.skip m) (b'.skip m)
      (C (b.bytes.drop m)) := by
  have hleaks := leaks_rest_here (ht.skip m) hf hg
  rwa [ByteBuffer.bytes_skip] at hleaks

/-! ## Decoders of some bytes of an array -/

theorem keepsBehind_decode {d : List UInt8 → ℕ → Decoder α} {C : List UInt8 → Prop}
    (hd : ∀ (length : ℕ) (b b' : ByteBuffer), Twins b b' →
      Leaks (d b.hb length) (d b'.hb length) (b.skip 0) (b'.skip 0) (C b.bytes)) :
    KeepsBehind (fun data offset length => decode (d data length) data offset length) C := by
  intro data data' offset length h h' hslice
  have hwrap : ∀ data : List UInt8, (h : offset + length ≤ data.length) → ∃ b : ByteBuffer,
      ByteBuffer.wrap data offset length = some b ∧ b.hb = data ∧ b.position = offset ∧
      b.limit = offset + length ∧ b.bytes = slice data offset length := by
    intro data h
    refine ⟨_, dif_pos h, rfl, rfl, rfl, ?_⟩
    unfold ByteBuffer.bytes ByteBuffer.remaining slice
    rw [Nat.add_sub_cancel_left]
  obtain ⟨b, hb, rfl, hposition, hlimit, hbytes⟩ := hwrap data h
  obtain ⟨b', hb', rfl, hposition', hlimit', hbytes'⟩ := hwrap data' h'
  have hleaks := hd length b b' ⟨by rw [hposition, hposition'], by rw [hlimit, hlimit'],
    by rw [hbytes, hbytes', hslice]⟩
  rw [skip_zero, skip_zero] at hleaks
  unfold Leaks at hleaks
  rw [hlimit, hlimit', hbytes] at hleaks
  have hrun : ∀ c : ByteBuffer, ByteBuffer.wrap c.hb offset length = some c →
      decode (d c.hb length) c.hb offset length = Prod.fst <$> d c.hb length c := by
    intro c hc
    unfold decode
    rw [hc]
    rfl
  dsimp only
  rw [hrun b hb, hrun b' hb']
  exact hleaks

theorem Local.keepsBehind {d : Decoder α} (hd : Local d) : KeepsBehind (decode d) fun _ => False :=
  keepsBehind_decode (d := fun _ _ => d) fun _ _ _ ht => hd.leaks (ht.skip 0)

theorem KeepsBehind.map {f : List UInt8 → ℕ → ℕ → Except Stop α} {C : List UInt8 → Prop}
    (hf : KeepsBehind f C) {g : α → β} (hg : Function.Injective g) :
    KeepsBehind (fun data offset length => g <$> f data offset length) C :=
  fun data data' offset length h h' hslice =>
    (map_eq_map_iff hg).trans (hf data data' offset length h h' hslice)

theorem KeepsBehind.ite {f g : List UInt8 → ℕ → ℕ → Except Stop α} {C D : List UInt8 → Prop}
    {c : Prop} [Decidable c] (hf : KeepsBehind f C) (hg : KeepsBehind g D) :
    KeepsBehind (fun data offset length => if c then f data offset length else g data offset length)
      (fun bs => if c then C bs else D bs) := by
  by_cases hc : c
  · simpa only [if_pos hc] using hf
  · simpa only [if_neg hc] using hg

end Decoder

end Torpedo
