import Torpedo.Util.Decoder

/-!
# Bytes that are overwritten

Bytes are put into a list in the place of others, all at once or one after the other. A sink takes bytes as long
as it has room for them.
-/

namespace Torpedo

/-- The bytes take the place of those from an index on. -/
def overwrite (hb : List UInt8) (index : ℕ) (bs : List UInt8) : List UInt8 :=
  hb.take index ++ bs ++ hb.drop (index + bs.length)

section

variable {hb xs ys : List UInt8} {index : ℕ}

@[simp] theorem overwrite_nil : overwrite hb index [] = hb := by simp [overwrite]

@[simp] theorem length_overwrite (h : index + xs.length ≤ hb.length) :
    (overwrite hb index xs).length = hb.length := by
  unfold overwrite
  simp only [List.length_append, List.length_take, List.length_drop]
  omega

theorem overwrite_append (h : index + xs.length ≤ hb.length) :
    overwrite (overwrite hb index xs) (index + xs.length) ys = overwrite hb index (xs ++ ys) := by
  have hfront : (hb.take index ++ xs).length = index + xs.length := by
    rw [List.length_append, List.length_take]
    omega
  have htake : (overwrite hb index xs).take (index + xs.length) = hb.take index ++ xs := by
    unfold overwrite
    rw [← hfront, List.take_left]
  have hdrop : (overwrite hb index xs).drop (index + xs.length + ys.length) =
      hb.drop (index + (xs ++ ys).length) := by
    unfold overwrite
    rw [← List.drop_drop, ← hfront, List.drop_left, List.drop_drop, hfront, List.length_append, Nat.add_assoc]
  rw [overwrite, htake, hdrop, overwrite, List.append_assoc (hb.take index)]

theorem set_eq_overwrite {x : UInt8} (h : index < hb.length) : hb.set index x = overwrite hb index [x] := by
  unfold overwrite
  rw [List.set_eq_take_append_cons_drop, if_pos h, List.append_assoc]
  rfl

/-- Each byte is the new one where there is one, and else the old one. -/
theorem getElem?_overwrite (h : index + xs.length ≤ hb.length) (k : ℕ) : (overwrite hb index xs)[k]? =
    if index ≤ k ∧ k < index + xs.length then xs[k - index]? else hb[k]? := by
  have htake : (hb.take index).length = index := List.length_take_of_le (by omega)
  unfold overwrite
  rw [List.append_assoc, List.getElem?_append, htake, List.getElem?_append, List.getElem?_take,
    List.getElem?_drop]
  by_cases hk : k < index
  · simp [hk, Nat.not_le.2 hk]
  · by_cases hlt : k < index + xs.length
    · have hlt' : k - index < xs.length := by omega
      have hle : index ≤ k := by omega
      simp [hk, hle, hlt, hlt']
    · have hlt' : ¬k - index < xs.length := by omega
      have hsum : index + xs.length + (k - index - xs.length) = k := by omega
      simp [hk, hlt, hlt', hsum]

theorem overwrite_inj (hlength : xs.length = ys.length) :
    overwrite hb index xs = overwrite hb index ys ↔ xs = ys := by
  refine ⟨fun h => ?_, fun h => h ▸ rfl⟩
  unfold overwrite at h
  rw [← hlength] at h
  exact List.append_cancel_left (List.append_cancel_right h)

/-- Two beginnings of the same bytes leave the same unless a byte of only one of them is new. -/
theorem overwrite_take_eq_iff {m n : ℕ} (hm : m ≤ xs.length) (hn : n ≤ xs.length)
    (hmroom : index + m ≤ hb.length) (hnroom : index + n ≤ hb.length) :
    overwrite hb index (xs.take m) = overwrite hb index (xs.take n) ↔
      ∀ k, (k < n ↔ ¬k < m) → hb[index + k]? = xs[k]? := by
  have hlengthm : (xs.take m).length = m := List.length_take_of_le hm
  have hlengthn : (xs.take n).length = n := List.length_take_of_le hn
  have hget : ∀ {l : ℕ}, (xs.take l).length = l → index + l ≤ hb.length → ∀ k, (overwrite hb index (xs.take l))[k]? =
      if index ≤ k ∧ k < index + l then (xs.take l)[k - index]? else hb[k]? := fun hl hroom k => by
    rw [getElem?_overwrite (hl.symm ▸ hroom), hl]
  have hgetm := hget hlengthm hmroom
  have hgetn := hget hlengthn hnroom
  constructor
  · intro heq k hk
    have hat := congrArg (fun l : List UInt8 => l[index + k]?) heq
    simp only [hgetm, hgetn, Nat.add_sub_cancel_left, List.getElem?_take, Nat.add_lt_add_iff_left] at hat
    by_cases hkm : k < m
    · have hkn : ¬k < n := fun hkn => hk.1 hkn hkm
      simpa [hkm, hkn] using hat.symm
    · simpa [hkm, hk.2 hkm] using hat
  · intro hsame
    refine List.ext_getElem? fun k => ?_
    rw [hgetm, hgetn, List.getElem?_take, List.getElem?_take]
    by_cases hk : index ≤ k
    · have hat := hsame (k - index)
      rw [Nat.add_sub_cancel' hk] at hat
      have hkm : k < index + m ↔ k - index < m := by omega
      have hkn : k < index + n ↔ k - index < n := by omega
      simp only [hk, true_and, hkm, hkn]
      by_cases hm' : k - index < m <;> by_cases hn' : k - index < n <;> simp [hm', hn'] at hat ⊢ <;> simp [hat]
    · simp [hk]

/-- Nothing else is changed and each byte is the new one. -/
theorem eq_overwrite_iff {hb' : List UInt8} (h : index + xs.length ≤ hb.length)
    (hsame : ∀ j, ¬(index ≤ j ∧ j < index + xs.length) → hb'[j]? = hb[j]?) :
    hb' = overwrite hb index xs ↔ ∀ k < xs.length, hb'[index + k]? = xs[k]? := by
  constructor
  · rintro rfl k hk
    rw [getElem?_overwrite h, if_pos (by omega), Nat.add_sub_cancel_left]
  · intro hbytes
    refine List.ext_getElem? fun j => ?_
    rw [getElem?_overwrite h]
    split_ifs with hj
    · have hat := hbytes (j - index) (by omega)
      rwa [Nat.add_sub_cancel' hj.1] at hat
    · exact hsame j hj

/-- The bytes that are put last stay. -/
theorem overwrite_overwrite (hlength : xs.length = ys.length) (h : index + xs.length ≤ hb.length) :
    overwrite (overwrite hb index xs) index ys = overwrite hb index ys := by
  have hroom : index + ys.length ≤ hb.length := hlength ▸ h
  have hroom' : index + ys.length ≤ (overwrite hb index xs).length := (length_overwrite h).symm ▸ hroom
  refine List.ext_getElem? fun k => ?_
  rw [getElem?_overwrite hroom', getElem?_overwrite h, getElem?_overwrite hroom, hlength]
  split_ifs <;> rfl

/-- All bytes are new. -/
theorem overwrite_zero (h : hb.length ≤ xs.length) : overwrite hb 0 xs = xs := by
  simp [overwrite, h]

end

/-! ## Sinks -/

/-- What takes bytes as long as it has room. -/
structure Sink (δ : Type) where
  room : δ → ℕ
  write : δ → List UInt8 → Option δ
  write_nil : ∀ dst, write dst [] = some dst
  write_cons : ∀ dst x xs, write dst (x :: xs) = (write dst [x]).bind fun dst => write dst xs
  room_write : ∀ {dst x}, 0 < room dst → ∃ dst', write dst [x] = some dst' ∧ room dst' = room dst - 1

namespace Sink

variable {δ : Type} (sink : Sink δ)

/-- Bytes are copied one after the other up to a bound, as long as there is room. The first number is how far
the bound is. -/
def copy (get : ℕ → Decoder UInt8) : ℕ → ℕ → δ → Decoder δ
  | 0, _, dst => return dst
  | n + 1, index, dst =>
    if sink.room dst = 0 then return dst
    else do
      let x ← get index
      let dst ← (orThrow (sink.write dst [x]) : Except Stop δ)
      copy get n (index + 1) dst

theorem copy_eq {get : ℕ → Decoder UInt8} {inBuf : ByteBuffer} {bs : List UInt8} {index : ℕ} {dst : δ}
    (hget : ∀ k x, bs[k]? = some x → get (index + k) inBuf = .ok (x, inBuf)) :
    sink.copy get bs.length index dst inBuf =
      (orThrow (sink.write dst (bs.take (sink.room dst)))).map fun dst => (dst, inBuf) := by
  induction bs generalizing index dst with
  | nil =>
    rw [List.take_nil, sink.write_nil]
    rfl
  | cons x bs ih =>
    rw [List.length_cons, copy]
    by_cases hroom : sink.room dst = 0
    · rw [if_pos hroom, hroom, List.take_zero, sink.write_nil]
      rfl
    · obtain ⟨dst', hdst', hroom'⟩ := sink.room_write (x := x) (Nat.pos_of_ne_zero hroom)
      have htake : (x :: bs).take (sink.room dst) = x :: bs.take (sink.room dst') := by
        rw [hroom', ← List.take_succ_cons, Nat.sub_add_cancel (Nat.pos_of_ne_zero hroom)]
      have hhead : get index inBuf = .ok (x, inBuf) := hget 0 x rfl
      have hget' : ∀ k y, bs[k]? = some y → get (index + 1 + k) inBuf = .ok (y, inBuf) := fun k y hk => by
        have hnext := hget (k + 1) y hk
        rwa [show index + (k + 1) = index + 1 + k by omega] at hnext
      rw [if_neg hroom, htake, sink.write_cons, hdst', Option.bind_some, ← ih hget']
      show (get index inBuf >>= _) = _
      rw [hhead]
      show (liftM (orThrow (sink.write dst [x])) >>= fun dst => sink.copy get bs.length (index + 1) dst :
        Decoder δ) inBuf = _
      rw [hdst']
      rfl

end Sink

end Torpedo
