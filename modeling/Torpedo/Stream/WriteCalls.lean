import Torpedo.Stream.WriteBuffer
import Mathlib.Tactic.Push

/-!
# Calls of the buffer that is written

What each operation of the buffer leaves, and which calls depart from the contract of the interface.
-/

namespace Torpedo

namespace SocketWriteByteChannelBuffer

open Encoder (putBytes putByte)

variable {outBuf outBuf' outBuf'' : ByteBuffer} {index : ℕ} {bs xs ys : List UInt8}

/-! ## Bytes that are put -/

theorem Overwritten.nil : Overwritten outBuf index [] outBuf := ⟨overwrite_nil.symm, rfl, rfl⟩

theorem Overwritten.append (hx : Overwritten outBuf index xs outBuf')
    (hy : Overwritten outBuf' (index + xs.length) ys outBuf'') (h : index + xs.length ≤ outBuf.limit) :
    Overwritten outBuf index (xs ++ ys) outBuf'' where
  hb := by rw [hy.hb, hx.hb, overwrite_append (h.trans outBuf.limit_le)]
  position := hy.position.trans hx.position
  limit := hy.limit.trans hx.limit

theorem Appended.nil : Appended outBuf [] outBuf := ⟨overwrite_nil.symm, rfl, rfl⟩

theorem Appended.append (hx : Appended outBuf xs outBuf') (hy : Appended outBuf' ys outBuf'')
    (h : outBuf.position + xs.length ≤ outBuf.limit) : Appended outBuf (xs ++ ys) outBuf'' where
  hb := by rw [hy.hb, hx.hb, hx.position, overwrite_append (h.trans outBuf.limit_le)]
  position := by rw [hy.position, hx.position, List.length_append, Nat.add_assoc]
  limit := hy.limit.trans hx.limit

theorem putByteAt_run (x : UInt8) (h : index < outBuf.limit) :
    ∃ outBuf', putByteAt index x outBuf = .ok ((), outBuf') ∧ Overwritten outBuf index [x] outBuf' := by
  have hroom : index + [x].length ≤ outBuf.limit := h
  unfold putByteAt ByteBuffer.putAt
  rw [dif_pos hroom]
  refine ⟨_, rfl, ?_⟩
  exact ⟨rfl, rfl, rfl⟩

theorem putBytes_run (h : bs.length ≤ outBuf.remaining) :
    ∃ outBuf', putBytes bs outBuf = .ok ((), outBuf') ∧ Appended outBuf bs outBuf' := by
  obtain ⟨outBuf', hput, hhb, hposition, hlimit, -⟩ := ByteBuffer.put_some h
  refine ⟨outBuf', ?_, hhb, hposition, hlimit⟩
  unfold putBytes
  rw [hput]
  rfl

/-- What it takes to put one byte after the other: room for the next one, and a rule for what has been put. -/
structure Putting (put : ℕ → UInt8 → Encoder Unit) (Room : ℕ → ℕ → ByteBuffer → Prop)
    (Done : ℕ → List UInt8 → ByteBuffer → ByteBuffer → Prop) : Prop where
  nil : ∀ i outBuf, Done i [] outBuf outBuf
  cons : ∀ {i n outBuf} x, Room i (n + 1) outBuf → ∃ outBuf', put i x outBuf = .ok ((), outBuf') ∧
    Room (i + 1) n outBuf' ∧ ∀ bs outBuf'', Done (i + 1) bs outBuf' outBuf'' → Done i (x :: bs) outBuf outBuf''

theorem putting_at (index : ℕ) : Putting (fun i => putByteAt (index + i))
    (fun i n outBuf => index + i + n ≤ outBuf.limit) fun i bs => (Overwritten · (index + i) bs ·) where
  nil _ _ := .nil
  cons {i n outBuf} x h := by
    obtain ⟨outBuf', hput, hdone⟩ := putByteAt_run x (by omega : index + i < outBuf.limit)
    have hlimit := hdone.limit
    have hroom : index + i + [x].length ≤ outBuf.limit := by
      rw [List.length_singleton]
      omega
    exact ⟨outBuf', hput, by omega, fun bs outBuf'' hbs => hdone.append hbs hroom⟩

theorem putting_byte : Putting (fun _ => putByte) (fun _ n outBuf => n ≤ outBuf.remaining)
    fun _ bs => (Appended · bs ·) where
  nil _ _ := .nil
  cons {i n outBuf} x h := by
    have hone : [x].length ≤ outBuf.remaining := by
      rw [List.length_singleton]
      omega
    obtain ⟨outBuf', hput, hdone⟩ := putBytes_run hone
    have hlimit := hdone.limit
    have hposition := hdone.position
    unfold ByteBuffer.remaining at h ⊢
    rw [List.length_singleton] at hposition
    have hroom : outBuf.position + [x].length ≤ outBuf.limit := by
      rw [List.length_singleton]
      omega
    exact ⟨outBuf', hput, by omega, fun bs outBuf'' hbs => hdone.append hbs hroom⟩

/-! ## Sources -/

/-- The source gives these bytes, one after the other. -/
def Gives {σ : Type} (next : σ → Option (UInt8 × σ)) : σ → List UInt8 → Prop
  | _, [] => True
  | src, x :: bs => ∃ src', next src = some (x, src') ∧ Gives next src' bs

theorem Gives.take {σ : Type} {next : σ → Option (UInt8 × σ)} {src : σ} (h : Gives next src bs) (n : ℕ) :
    Gives next src (bs.take n) := by
  induction bs generalizing src n with
  | nil => rwa [List.take_nil]
  | cons x bs ih =>
    cases n with
    | zero => trivial
    | succ n =>
      obtain ⟨src', hnext, hbs⟩ := h
      exact ⟨src', hnext, ih hbs n⟩

theorem gives_nextAt (hb : List UInt8) (i : ℕ) : Gives (nextAt hb) i (hb.drop i) := by
  generalize hbs : hb.drop i = bs
  induction bs generalizing i with
  | nil => trivial
  | cons x bs ih =>
    have hx : hb[i]? = some x := by
      rw [← Nat.add_zero i, ← List.getElem?_drop, hbs]
      rfl
    have htail : hb.drop (i + 1) = bs := by rw [← List.drop_drop, hbs]; rfl
    refine ⟨i + 1, ?_, ih (i + 1) htail⟩
    unfold nextAt
    rw [hx]
    rfl

theorem gives_readByte (src : ChannelBuffer) : Gives ChannelBuffer.readByte src src.readable := by
  generalize hbs : src.readable = bs
  induction bs generalizing src with
  | nil => trivial
  | cons x bs ih =>
    have hreader : src.readerIndex < src.writerIndex := by
      by_contra hle
      have hzero : src.readableBytes = 0 := Nat.sub_eq_zero_of_le (Nat.le_of_not_lt hle)
      unfold ChannelBuffer.readable at hbs
      rw [hzero] at hbs
      cases hbs
    have hone : 1 ≤ src.readableBytes := Nat.sub_pos_of_lt hreader
    have hhead : (src.hb.drop src.readerIndex).take 1 = [x] := by
      have htake := congrArg (List.take 1) hbs
      unfold ChannelBuffer.readable slice at htake
      rwa [List.take_take, Nat.min_eq_left hone] at htake
    have htail : slice src.hb (src.readerIndex + 1) (src.writerIndex - (src.readerIndex + 1)) = bs := by
      have hdrop := congrArg (List.drop 1) hbs
      unfold ChannelBuffer.readable ChannelBuffer.readableBytes slice at hdrop
      rwa [List.drop_take, List.drop_drop, Nat.sub_sub] at hdrop
    refine ⟨{ src with readerIndex := src.readerIndex + 1, readerIndex_le := hreader }, ?_, ih _ htail⟩
    unfold ChannelBuffer.readByte
    rw [dif_pos hreader]
    simp [byteAt, hhead, bigEndian]

theorem gives_nextOf (src : ByteBuffer) : Gives nextOf src src.bytes := by
  generalize hbs : src.bytes = bs
  induction bs generalizing src with
  | nil => trivial
  | cons x bs ih =>
    have hpos : 1 ≤ src.remaining := by
      rw [← src.length_bytes, hbs]
      exact Nat.succ_le_succ (Nat.zero_le _)
    obtain ⟨src', hget, hbytes, -⟩ := ByteBuffer.get_eq hpos
    rw [hbs] at hget hbytes
    refine ⟨src', ?_, ih src' hbytes⟩
    unfold nextOf
    rw [hget]
    simp [byteAt, bigEndian]

/-! ## Loops -/

section

variable {put : ℕ → UInt8 → Encoder Unit} {Room : ℕ → ℕ → ByteBuffer → Prop}
  {Done : ℕ → List UInt8 → ByteBuffer → ByteBuffer → Prop} {i n : ℕ}

theorem copyFrom_run {σ : Type} {next : σ → Option (UInt8 × σ)} {src : σ} (hput : Putting put Room Done)
    (hsrc : Gives next src bs) (hroom : Room i bs.length outBuf) : ∃ src' outBuf',
      copyFrom next put bs.length i src outBuf = .ok (src', outBuf') ∧ Done i bs outBuf outBuf' := by
  induction bs generalizing i src outBuf with
  | nil => exact ⟨src, outBuf, rfl, hput.nil i outBuf⟩
  | cons x bs ih =>
    obtain ⟨src', hnext, hbs⟩ := hsrc
    obtain ⟨outBuf', hrun, hroom', hdone⟩ := hput.cons x hroom
    obtain ⟨src'', outBuf'', hrest, hall⟩ := ih hbs hroom'
    refine ⟨src'', outBuf'', ?_, hdone bs outBuf'' hall⟩
    show (liftM (orThrow (next src) : Except Stop (UInt8 × σ)) >>= fun p => do
      put i p.1
      copyFrom next put bs.length (i + 1) p.2 : Encoder σ) outBuf = _
    rw [hnext]
    show (put i x >>= fun _ => copyFrom next put bs.length (i + 1) src') outBuf = _
    exact (Decoder.bind_ok hrun).trans hrest

/-- The bytes up to the end of the stream. -/
theorem copyFromStream_run (hput : Putting put Room Done) (src : List UInt8) (hroom : Room i n outBuf) :
    ∃ count outBuf', copyFromStream put n i src outBuf = .ok (count, outBuf') ∧
      Done i (src.take n) outBuf outBuf' := by
  induction n generalizing i src outBuf with
  | zero => exact ⟨i, outBuf, rfl, hput.nil i outBuf⟩
  | succ n ih =>
    cases src with
    | nil => exact ⟨i, outBuf, rfl, hput.nil i outBuf⟩
    | cons x src =>
      obtain ⟨outBuf', hrun, hroom', hdone⟩ := hput.cons x hroom
      obtain ⟨count, outBuf'', hrest, hall⟩ := ih src hroom'
      refine ⟨count, outBuf'', ?_, hdone (src.take n) outBuf'' hall⟩
      exact (Decoder.bind_ok hrun).trans hrest

end

theorem Overwritten.again {x y : UInt8} (hx : Overwritten outBuf index [x] outBuf')
    (hy : Overwritten outBuf' index [y] outBuf'') (h : index < outBuf.limit) :
    Overwritten outBuf index [y] outBuf'' where
  hb := by
    have hroom : index + [x].length ≤ outBuf.hb.length := Nat.lt_of_lt_of_le h outBuf.limit_le
    have hsame : overwrite (overwrite outBuf.hb index [x]) index [y] = overwrite outBuf.hb index [y] :=
      overwrite_overwrite rfl hroom
    rw [hy.hb, hx.hb, hsame]
  position := hy.position.trans hx.position
  limit := hy.limit.trans hx.limit

theorem putArray_succ {src : List UInt8} {i : ℕ} {y : UInt8} (hy : src[i - index]? = some y)
    (h : index < outBuf.limit) (n : ℕ) : ∃ outBuf', Overwritten outBuf index [y] outBuf' ∧
      putArray index src (n + 1) i outBuf = putArray index src n (i + 1) outBuf' := by
  obtain ⟨outBuf', hput, hdone⟩ := putByteAt_run y h
  refine ⟨outBuf', hdone, ?_⟩
  show (liftM (orThrow src[i - index]? : Except Stop UInt8) >>= fun x => do
    putByteAt index x
    putArray index src n (i + 1) : Encoder Unit) outBuf = _
  rw [hy]
  show (putByteAt index y outBuf >>= _) = _
  rw [hput]
  rfl

/-- All bytes are put at the index, so that the last one stays. -/
theorem putArray_run {src : List UInt8} {n i : ℕ} {x : UInt8} (hi : index ≤ i)
    (hx : src[i + n - index]? = some x) (h : index < outBuf.limit) :
    ∃ outBuf', putArray index src (n + 1) i outBuf = .ok ((), outBuf') ∧
      Overwritten outBuf index [x] outBuf' := by
  have hlt := (List.getElem?_eq_some_iff.1 hx).1
  obtain ⟨y, hy⟩ : ∃ y, src[i - index]? = some y := ⟨_, List.getElem?_eq_getElem (by omega)⟩
  induction n generalizing i y outBuf with
  | zero =>
    obtain ⟨outBuf', hdone, hrun⟩ := putArray_succ hx h 0
    exact ⟨outBuf', hrun, hdone⟩
  | succ n ih =>
    obtain ⟨outBuf', hdone, hrun⟩ := putArray_succ hy h (n + 1)
    have hx' : src[i + 1 + n - index]? = some x := by
      rwa [show i + 1 + n - index = i + (n + 1) - index by omega]
    have hnext : src[i + 1 - index]? = some src[i + 1 - index] := List.getElem?_eq_getElem (by omega)
    obtain ⟨outBuf'', hrest, hlast⟩ := ih (i := i + 1) (by omega) hx' (hdone.limit.symm ▸ h) (by omega) _ hnext
    exact ⟨outBuf'', hrun.trans hrest, hdone.again hlast h⟩

/-! ## Calls that depart from the contract -/

/-- The byte that is at a place after `setBytes` from an array. -/
def left (hb : List UInt8) (index : ℕ) (src : List UInt8) (k : ℕ) : Option UInt8 :=
  if k = 0 ∧ index < src.length then src[src.length - 1 - index]? else hb[index + k]?

namespace Source

def DepartsSet (outBuf : ByteBuffer) (index : ℕ) : Source → Prop
  | buffer _ | channel _ _ => True
  | array src => ∃ k < src.length, left outBuf.hb index src k ≠ src[k]?
  | bufferOfLength src _ => (outBuf.limit : ℤ) < intSum index src.readableBytes
  | stream src _ => (outBuf.limit : ℤ) < intSum index src.available
  | byteBuffer _ | bufferAt _ _ _ | arrayAt _ _ _ => False

def DepartsWrite (outBuf : ByteBuffer) : Source → Prop
  | channel _ _ => True
  | bufferOfLength src _ => outBuf.remaining < src.readableBytes
  | buffer _ | array _ | byteBuffer _ | stream _ _ | bufferAt _ _ _ | arrayAt _ _ _ => False

end Source

def Departs (outBuf : ByteBuffer) : Call → Prop
  | .setBytes index source => source.DepartsSet outBuf index
  | .write number => ∃ value, number = .medium value
  | .writeZero _ => False
  | .writeBytes source => source.DepartsWrite outBuf

theorem checkLimit_run {needed : ℤ} (h : needed ≤ outBuf.limit) : checkLimit needed outBuf = .ok ((), outBuf) :=
  if_neg (Int.not_lt.2 h)

theorem checkLimit_error {needed : ℤ} (h : (outBuf.limit : ℤ) < needed) :
    checkLimit needed outBuf = .error .exception := if_pos h

theorem checkWritable_run {needed : ℕ} (h : needed ≤ outBuf.remaining) :
    checkWritable needed outBuf = .ok ((), outBuf) := if_neg (by omega)

theorem checkWritable_error {needed : ℕ} (h : outBuf.remaining < needed) :
    checkWritable needed outBuf = .error .exception := if_pos (by omega)

theorem checkSum_run {n : ℕ} (h : index + n ≤ outBuf.limit) :
    checkLimit (intSum index n) outBuf = .ok ((), outBuf) := by
  have hsum := intSum_le index n
  exact checkLimit_run (by omega)

theorem length_slice_of_le {hb : List UInt8} {i n : ℕ} (h : i + n ≤ hb.length) : (slice hb i n).length = n := by
  unfold slice
  rw [List.length_take, List.length_drop]
  omega

theorem length_readable (src : ChannelBuffer) : src.readable.length = src.readableBytes := by
  have hreader := src.readerIndex_le
  have hwriter := src.writerIndex_le
  refine length_slice_of_le ?_
  unfold ChannelBuffer.readableBytes
  omega

/-! ## Sources of each kind -/

theorem gives_readable (src : ChannelBuffer) (length : ℕ) :
    Gives ChannelBuffer.readByte src (src.readable.take length) := (gives_readByte src).take length

theorem length_take_readable {src : ChannelBuffer} {length : ℕ} (h : length ≤ src.readableBytes) :
    (src.readable.take length).length = length := by
  rw [List.length_take, length_readable, Nat.min_eq_left h]

theorem gives_slice (hb : List UInt8) (i length : ℕ) : Gives (nextAt hb) i (slice hb i length) :=
  (gives_nextAt hb i).take length

section

variable {put : ℕ → UInt8 → Encoder Unit} {Room : ℕ → ℕ → ByteBuffer → Prop}
  {Done : ℕ → List UInt8 → ByteBuffer → ByteBuffer → Prop} {check : Encoder Unit} {n : ℕ}

/-- The operations that copy: after a check that is passed, all bytes of the source are put. -/
theorem copied {σ : Type} {next : σ → Option (UInt8 × σ)} {src : σ} (hput : Putting put Room Done)
    (hcheck : check outBuf = .ok ((), outBuf)) (hsrc : Gives next src bs) (hlength : bs.length = n)
    (hroom : Room 0 n outBuf) : ∃ outBuf', (do
      let _ ← (do
        check
        copyFrom next put n 0 src) : Encoder Unit) outBuf = .ok ((), outBuf') ∧ Done 0 bs outBuf outBuf' := by
  subst hlength
  obtain ⟨src', outBuf', hrun, hdone⟩ := copyFrom_run hput hsrc hroom
  exact ⟨outBuf', Decoder.bind_ok ((Decoder.bind_ok hcheck).trans hrun), hdone⟩

theorem copiedFromStream (hput : Putting put Room Done) (hcheck : check outBuf = .ok ((), outBuf))
    (src : List UInt8) (hroom : Room 0 n outBuf) : ∃ outBuf', (do
      let _ ← (do
        check
        copyFromStream put n 0 src) : Encoder Unit) outBuf = .ok ((), outBuf') ∧
          Done 0 (src.take n) outBuf outBuf' := by
  obtain ⟨count, outBuf', hrun, hdone⟩ := copyFromStream_run hput src hroom
  exact ⟨outBuf', Decoder.bind_ok ((Decoder.bind_ok hcheck).trans hrun), hdone⟩

/-- A check that is not passed. -/
theorem not_run {α : Type} {k : Encoder α} {P : ByteBuffer → Prop} (hcheck : check outBuf = .error .exception) :
    ¬∃ outBuf', (do
      let _ ← (do
        check
        k) : Encoder Unit) outBuf = .ok ((), outBuf') ∧ P outBuf' := by
  rintro ⟨other, hother, -⟩
  cases hother.symm.trans (Decoder.bind_error (Decoder.bind_error hcheck))

end

/-- What the loop of `setBytes` from an array leaves: only the byte at the index is a new one. -/
theorem setBytesFromArray_run {src : List UInt8} (h : index + src.length ≤ outBuf.limit) :
    ∃ outBuf', setBytesFromArray index src outBuf = .ok ((), outBuf') ∧
      (Overwritten outBuf index src outBuf' ↔ ∀ k < src.length, left outBuf.hb index src k = src[k]?) := by
  have hroom : index + src.length ≤ outBuf.hb.length := h.trans outBuf.limit_le
  have hrun : setBytesFromArray index src outBuf = putArray index src (src.length - index) index outBuf :=
    Decoder.bind_ok (checkSum_run h)
  by_cases hlt : index < src.length
  · obtain ⟨n, hn⟩ : ∃ n, src.length - index = n + 1 := ⟨src.length - index - 1, by omega⟩
    have hlast : src.length - 1 - index = index + n - index := by omega
    have hx : src[index + n - index]? = some src[index + n - index] := List.getElem?_eq_getElem (by omega)
    obtain ⟨outBuf', hput, hdone⟩ := putArray_run (Nat.le_refl index) hx (by omega : index < outBuf.limit)
    refine ⟨outBuf', by rw [hrun, hn, hput], ?_⟩
    have hone : index + [src[index + n - index]].length ≤ outBuf.hb.length := by
      rw [List.length_singleton]
      omega
    have hat : ∀ j, outBuf'.hb[j]? = if j = index then some src[index + n - index] else outBuf.hb[j]? := by
      intro j
      rw [hdone.hb, getElem?_overwrite hone, List.length_singleton]
      by_cases hj : j = index
      · subst hj
        rw [if_pos (by omega), if_pos rfl, Nat.sub_self]
        rfl
      · rw [if_neg (by omega), if_neg hj]
    have hsame : ∀ j, ¬(index ≤ j ∧ j < index + src.length) → outBuf'.hb[j]? = outBuf.hb[j]? := fun j hj => by
      rw [hat, if_neg (by omega)]
    have hleft : ∀ k, outBuf'.hb[index + k]? = left outBuf.hb index src k := by
      intro k
      unfold left
      rw [hat, hlast, hx]
      by_cases hk : k = 0
      · rw [if_pos (by omega), if_pos ⟨hk, hlt⟩]
      · rw [if_neg (by omega), if_neg fun hk' => hk hk'.1]
    simp only [← hleft]
    rw [← eq_overwrite_iff hroom hsame]
    exact ⟨Overwritten.hb, fun hhb => ⟨hhb, hdone.position, hdone.limit⟩⟩
  · refine ⟨outBuf, by rw [hrun, Nat.sub_eq_zero_of_le (Nat.le_of_not_lt hlt)]; rfl, ?_⟩
    have hleft : ∀ k, outBuf.hb[index + k]? = left outBuf.hb index src k := fun k =>
      (if_neg fun hk => hlt hk.2).symm
    simp only [← hleft]
    rw [← eq_overwrite_iff hroom fun _ _ => rfl]
    exact ⟨Overwritten.hb, fun hhb => ⟨hhb, rfl, rfl⟩⟩

theorem setBytes_iff {source : Source} (h : index + source.length ≤ outBuf.limit) (hhas : source.Has) :
    (∃ outBuf', setBytes index source outBuf = .ok ((), outBuf') ∧
      Overwritten outBuf index source.bytes outBuf') ↔ ¬source.DepartsSet outBuf index := by
  cases source with
  | buffer src => exact iff_of_false nofun (not_not_intro trivial)
  | channel src length => exact iff_of_false nofun (not_not_intro trivial)
  | array src =>
    obtain ⟨outBuf', hrun, hiff⟩ := setBytesFromArray_run h
    have hdeparts : ¬Source.DepartsSet outBuf index (.array src) ↔
        ∀ k < src.length, left outBuf.hb index src k = src[k]? := by
      unfold Source.DepartsSet
      push Not
      rfl
    rw [hdeparts, ← hiff]
    constructor
    · rintro ⟨other, hother, hdone⟩
      cases hother.symm.trans hrun
      exact hdone
    · exact fun hdone => ⟨outBuf', hrun, hdone⟩
  | byteBuffer src =>
    exact iff_of_true (copied (putting_at index) (checkSum_run h) (gives_nextOf src) src.length_bytes h) not_false
  | bufferOfLength src length =>
    by_cases hsum : (outBuf.limit : ℤ) < intSum index src.readableBytes
    · exact iff_of_false (not_run (checkLimit_error hsum)) (not_not_intro hsum)
    · have hcheck := checkLimit_run (Int.not_lt.1 hsum)
      exact iff_of_true (copied (putting_at index) hcheck (gives_readable src length) (length_take_readable hhas) h)
        hsum
  | stream src length =>
    by_cases hsum : (outBuf.limit : ℤ) < intSum index src.available
    · exact iff_of_false (not_run (checkLimit_error hsum)) (not_not_intro hsum)
    · have hcheck := checkLimit_run (Int.not_lt.1 hsum)
      exact iff_of_true (copiedFromStream (putting_at index) hcheck src.bytes h) hsum
  | bufferAt src srcIndex length =>
    have hgives : Gives (fun i => (src.getByte i).map fun x => (x, i + 1)) srcIndex
        (slice src.hb srcIndex length) := gives_slice src.hb srcIndex length
    exact iff_of_true (copied (putting_at index) (checkSum_run h) hgives (length_slice_of_le hhas) h) not_false
  | arrayAt src srcIndex length =>
    have hgives := gives_slice src srcIndex length
    exact iff_of_true (copied (putting_at index) (checkSum_run h) hgives (length_slice_of_le hhas) h) not_false

theorem writeBytes_iff {source : Source} (h : source.length ≤ outBuf.remaining) (hhas : source.Has) :
    (∃ outBuf', writeBytes source outBuf = .ok ((), outBuf') ∧ Appended outBuf source.bytes outBuf') ↔
      ¬source.DepartsWrite outBuf := by
  have hcheck : checkWritable source.length outBuf = .ok ((), outBuf) := checkWritable_run h
  cases source with
  | buffer src =>
    exact iff_of_true (copied putting_byte hcheck (gives_readByte src) (length_readable src) h) not_false
  | array src =>
    obtain ⟨outBuf', hrun, hdone⟩ := putBytes_run h
    exact iff_of_true ⟨outBuf', (Decoder.bind_ok hcheck).trans hrun, hdone⟩ not_false
  | byteBuffer src =>
    obtain ⟨src', hget, -⟩ := ByteBuffer.get_eq (Nat.le_refl src.remaining)
    rw [List.take_of_length_le (Nat.le_of_eq src.length_bytes)] at hget
    have hroom : src.bytes.length ≤ outBuf.remaining := src.length_bytes.symm ▸ h
    obtain ⟨outBuf', hrun, hdone⟩ := putBytes_run hroom
    have hput : writeBytesFromByteBuffer src outBuf = .ok (src', outBuf') := by
      refine (Decoder.bind_ok hcheck).trans ?_
      show (liftM (orThrow (src.get src.remaining) : Except Stop (List UInt8 × ByteBuffer)) >>= fun p => do
        putBytes p.1
        return p.2 : Encoder ByteBuffer) outBuf = _
      rw [hget]
      show (putBytes src.bytes >>= fun _ => return src' : Encoder ByteBuffer) outBuf = _
      exact Decoder.bind_ok hrun
    exact iff_of_true ⟨outBuf', Decoder.bind_ok hput, hdone⟩ not_false
  | bufferOfLength src length =>
    have hstart : writeBytesOfLength src length outBuf = (do
        checkWritable src.readableBytes
        copyFrom ChannelBuffer.readByte (fun _ => putByte) length 0 src) outBuf := Decoder.bind_ok hcheck
    by_cases hreadable : outBuf.remaining < src.readableBytes
    · refine iff_of_false ?_ (not_not_intro hreadable)
      rintro ⟨other, hother, -⟩
      have herror := hstart.trans (Decoder.bind_error (checkWritable_error hreadable))
      cases hother.symm.trans (Decoder.bind_error herror)
    · have hcheck' := checkWritable_run (Nat.le_of_not_lt hreadable)
      have hlength : (src.readable.take length).length = length := length_take_readable hhas
      have hroom : (src.readable.take length).length ≤ outBuf.remaining := hlength.symm ▸ h
      obtain ⟨src', outBuf', hrun, hdone⟩ := copyFrom_run (i := 0) putting_byte (gives_readable src length) hroom
      rw [hlength] at hrun
      have hcopied := hstart.trans ((Decoder.bind_ok hcheck').trans hrun)
      exact iff_of_true ⟨outBuf', Decoder.bind_ok hcopied, hdone⟩ hreadable
  | stream src length =>
    exact iff_of_true (copiedFromStream putting_byte hcheck src.bytes h) not_false
  | channel src length => exact iff_of_false nofun (not_not_intro trivial)
  | bufferAt src srcIndex length =>
    have hgives : Gives (fun i => (src.getByte i).map fun x => (x, i + 1)) srcIndex
        (slice src.hb srcIndex length) := gives_slice src.hb srcIndex length
    exact iff_of_true (copied putting_byte hcheck hgives (length_slice_of_le hhas) h) not_false
  | arrayAt src srcIndex length =>
    have hgives := gives_slice src srcIndex length
    exact iff_of_true (copied putting_byte hcheck hgives (length_slice_of_le hhas) h) not_false

/-! ## Numbers -/

theorem bytesOf_mod (k n : ℕ) : bytesOf k (n % 256 ^ k) = bytesOf k n := by
  rw [← bigEndian_bytesOf]
  have hback := bytesOf_bigEndian (bytesOf k n)
  rwa [length_bytesOf] at hback

/-- The bytes that are put are those of the number. -/
theorem write_run {number : Number} (hmedium : ∀ value, number ≠ .medium value)
    (h : number.width ≤ outBuf.remaining) :
    ∃ outBuf', write number outBuf = .ok ((), outBuf') ∧ Appended outBuf number.bytes outBuf' := by
  have hcheck : checkWritable number.width outBuf = .ok ((), outBuf) := checkWritable_run h
  have hlength : number.bytes.length ≤ outBuf.remaining := (length_bytesOf ..).symm ▸ h
  obtain ⟨outBuf', hrun, hdone⟩ := putBytes_run hlength
  refine ⟨outBuf', ?_, hdone⟩
  cases number with
  | byte value =>
    have hbits : value.toInt8.toUInt8.toNat = value.toUInt32.toNat % 256 := by
      show (value.toBitVec.signExtend 8).toNat = _
      rw [BitVec.signExtend_eq_setWidth_of_le _ (by decide), BitVec.toNat_setWidth]
      rfl
    have hbytes : [value.toInt8.toUInt8] = bytesOf 1 value.toUInt32.toNat := by
      have hbyte : UInt8.ofNat value.toInt8.toUInt8.toNat = value.toInt8.toUInt8 := UInt8.ofNat_toNat
      rw [← bytesOf_mod, ← hbyte, hbits]
      rfl
    refine (Decoder.bind_ok hcheck).trans ?_
    show putBytes [value.toInt8.toUInt8] outBuf = _
    rw [hbytes]
    exact hrun
  | short value =>
    have hbits : value.toInt16.toUInt16.toNat = value.toUInt32.toNat % 65536 := by
      show (value.toBitVec.signExtend 16).toNat = _
      rw [BitVec.signExtend_eq_setWidth_of_le _ (by decide), BitVec.toNat_setWidth]
      rfl
    have hbytes : bytesOf 2 value.toInt16.toUInt16.toNat = bytesOf 2 value.toUInt32.toNat := by
      rw [hbits]
      exact bytesOf_mod 2 _
    refine (Decoder.bind_ok hcheck).trans ?_
    show putBytes (bytesOf 2 value.toInt16.toUInt16.toNat) outBuf = _
    rw [hbytes]
    exact hrun
  | char value =>
    have hbytes : bytesOf 2 value.toUInt32.toUInt16.toNat = bytesOf 2 value.toUInt32.toNat := bytesOf_mod 2 _
    refine (Decoder.bind_ok hcheck).trans ?_
    show putBytes (bytesOf 2 value.toUInt32.toUInt16.toNat) outBuf = _
    rw [hbytes]
    exact hrun
  | medium value => exact absurd rfl (hmedium value)
  | int value => exact (Decoder.bind_ok hcheck).trans hrun
  | long value => exact (Decoder.bind_ok hcheck).trans hrun
  | float bits => exact (Decoder.bind_ok hcheck).trans hrun
  | double bits => exact (Decoder.bind_ok hcheck).trans hrun

theorem write_iff {number : Number} (h : number.width ≤ outBuf.remaining) :
    (∃ outBuf', write number outBuf = .ok ((), outBuf') ∧ Appended outBuf number.bytes outBuf') ↔
      ¬∃ value, number = .medium value := by
  by_cases hmedium : ∃ value, number = .medium value
  · obtain ⟨value, rfl⟩ := hmedium
    exact iff_of_false nofun (not_not_intro ⟨value, rfl⟩)
  · exact iff_of_true (write_run (not_exists.1 hmedium) h) hmedium

theorem writeZeros_run {n : ℕ} (h : n ≤ outBuf.remaining) :
    ∃ outBuf', writeZeros n outBuf = .ok ((), outBuf') ∧ Appended outBuf (List.replicate n 0) outBuf' := by
  induction n generalizing outBuf with
  | zero => exact ⟨outBuf, rfl, .nil⟩
  | succ n ih =>
    obtain ⟨outBuf', hput, hroom, hdone⟩ := putting_byte.cons (i := 0) 0 h
    obtain ⟨outBuf'', hrest, hall⟩ := ih hroom
    refine ⟨outBuf'', ?_, hdone _ _ hall⟩
    have hbyte : writeByte 0 outBuf = .ok ((), outBuf') :=
      (Decoder.bind_ok (checkWritable_run (by omega))).trans hput
    exact (Decoder.bind_ok hbyte).trans hrest

/-- A call for which there is room follows the contract but for those that depart from it. -/
theorem write_follows_iff (outBuf : ByteBuffer) (call : Call) :
    Follows outBuf call ↔ ¬(Within outBuf call ∧ Departs outBuf call) := by
  rw [not_and]
  refine forall_congr' fun hwithin => ?_
  cases call with
  | setBytes index source => exact setBytes_iff hwithin.1 hwithin.2
  | write number => exact write_iff hwithin
  | writeZero length =>
    obtain ⟨outBuf', hrun, hdone⟩ := writeZeros_run hwithin
    exact iff_of_true ⟨outBuf', (Decoder.bind_ok (checkWritable_run hwithin)).trans hrun, hdone⟩ not_false
  | writeBytes source => exact writeBytes_iff hwithin.1 hwithin.2

/-- Of the bytes 1 and 2 only the second one is put, in the place of the first one. -/
theorem not_write_follows : ¬∀ (outBuf : ByteBuffer) (call : Call), Follows outBuf call := by
  intro h
  have hhas : Source.Has (.array [1, 2]) := trivial
  have hwithin : 0 + Source.length (.array [1, 2]) ≤ (ByteBuffer.allocate 2).limit := Nat.le_refl 2
  have hdeparts : Source.DepartsSet (.allocate 2) 0 (.array [1, 2]) := ⟨0, by decide, by decide⟩
  exact (setBytes_iff hwithin hhas).1 (h _ (.setBytes 0 (.array [1, 2])) ⟨hwithin, hhas⟩) hdeparts

end SocketWriteByteChannelBuffer

end Torpedo
