import Torpedo.Stream.ReadBuffer
import Torpedo.Util.Codec
import Mathlib.Tactic.Push

/-!
# Calls of the buffer that is read

What each operation of the buffer gives and leaves, and which calls depart from the contract of the interface.
-/

namespace Torpedo

namespace SocketReadByteChannelBuffer

open Decoder (getBytesAt getByteAt)

/-! ## Numbers that are read -/

theorem map_run {α β : Type} {f : α → β} {k : Decoder α} {a : α} {inBuf inBuf' : ByteBuffer}
    (h : k inBuf = .ok (a, inBuf')) : (do return f (← k) : Decoder β) inBuf = .ok (f a, inBuf') := by
  exact Decoder.bind_ok h

theorem unsignedByte_eq : ∀ n < 256, (0x00ff &&& (Int8.ofNat n).toInt32).toInt16.toInt = n := by decide +kernel

theorem unsignedShort_eq {n : ℕ} (h : n < 65536) : (0x0000ffff &&& (Int16.ofNat n).toInt32).toInt = n := by
  have hmask : (0x0000ffff : Int32).toBitVec.toNat = 2 ^ 16 - 1 := rfl
  have htoNat : (0x0000ffff &&& (Int16.ofNat n).toInt32).toBitVec.toNat = n := by
    rw [Int32.toBitVec_and, BitVec.toNat_and, hmask, Nat.and_comm, Nat.and_two_pow_sub_one_eq_mod,
      Int16.toBitVec_toInt32, Int16.toBitVec_ofNat', BitVec.toNat_signExtend, BitVec.toNat_setWidth,
      BitVec.toNat_ofNat]
    split_ifs <;> omega
  have hlt : 2 * (0x0000ffff &&& (Int16.ofNat n).toInt32).toBitVec.toNat < 2 ^ 32 := by omega
  show (0x0000ffff &&& (Int16.ofNat n).toInt32).toBitVec.toInt = _
  rw [BitVec.toInt_eq_toNat_of_lt hlt, htoNat]

/-- The mask is -1, and masks nothing. -/
theorem unsignedInt_eq (n : ℕ) :
    (0x00000000ffffffff &&& Int32.ofNat n).toInt64.toInt = (n : ℤ).bmod (256 ^ 4) := by
  have hmask : (0x00000000ffffffff : Int32) = -1 := by decide
  rw [hmask, Int32.neg_one_and, Int32.toInt_toInt64]
  exact Int32.toInt_ofNat'

/-- What the operations make of the bytes. -/
def coded (kind : Kind) (bs : List UInt8) : ℤ :=
  match kind with
  | .byte => (Int8.ofNat (bigEndian bs)).toInt
  | .unsignedByte => (0x00ff &&& (Int8.ofNat (bigEndian bs)).toInt32).toInt16.toInt
  | .short => (Int16.ofNat (bigEndian bs)).toInt
  | .unsignedShort => (0x0000ffff &&& (Int16.ofNat (bigEndian bs)).toInt32).toInt
  | .char => (UInt16.ofNat (bigEndian bs)).toNat
  | .medium | .unsignedMedium => 0
  | .int => (Int32.ofNat (bigEndian bs)).toInt
  | .unsignedInt => (0x00000000ffffffff &&& Int32.ofNat (bigEndian bs)).toInt64.toInt
  | .long => (Int64.ofNat (bigEndian bs)).toInt
  | .float => (UInt32.ofNat (bigEndian bs)).toNat
  | .double => (UInt64.ofNat (bigEndian bs)).toNat

/-- The class has these kinds. -/
def Supported (kind : Kind) : Prop := kind ≠ .medium ∧ kind ≠ .unsignedMedium

theorem get_run {index : ℕ} {kind : Kind} {inBuf : ByteBuffer} {bs : List UInt8} (hkind : Supported kind)
    (h : getAt index kind.width inBuf = .ok (bs, inBuf)) :
    get index kind inBuf = .ok (coded kind bs, inBuf) := by
  cases kind with
  | medium => exact absurd rfl hkind.1
  | unsignedMedium => exact absurd rfl hkind.2
  | unsignedByte | unsignedShort | unsignedInt => exact map_run (map_run (map_run h))
  | _ => exact map_run (map_run h)

theorem read_run {kind : Kind} {inBuf inBuf' : ByteBuffer} {bs : List UInt8} (hkind : Supported kind)
    (h : Decoder.getBytes kind.width inBuf = .ok (bs, inBuf')) :
    read kind inBuf = .ok (coded kind bs, inBuf') := by
  cases kind with
  | medium => exact absurd rfl hkind.1
  | unsignedMedium => exact absurd rfl hkind.2
  | unsignedByte | unsignedShort | unsignedInt => exact map_run (map_run (map_run h))
  | _ => exact map_run (map_run h)

theorem coded_eq_value {kind : Kind} {bs : List UInt8} (hkind : Supported kind)
    (hlength : bs.length = kind.width) (hint : kind = .unsignedInt → bigEndian bs < 2 ^ 31) :
    coded kind bs = kind.value bs := by
  have hlt : bigEndian bs < 256 ^ kind.width := hlength ▸ bigEndian_lt bs
  unfold Kind.value
  cases kind with
  | byte => exact Int8.toInt_ofNat'.trans (if_pos trivial).symm
  | unsignedByte => exact unsignedByte_eq _ hlt
  | short => exact Int16.toInt_ofNat'.trans (if_pos trivial).symm
  | unsignedShort => exact unsignedShort_eq hlt
  | char => exact congrArg Nat.cast (UInt16.toNat_ofNat_of_lt' hlt)
  | medium => exact absurd rfl hkind.1
  | unsignedMedium => exact absurd rfl hkind.2
  | int => exact Int32.toInt_ofNat'.trans (if_pos trivial).symm
  | unsignedInt =>
    rw [if_neg (by decide)]
    exact (unsignedInt_eq _).trans (Int.bmod_eq_of_le (by omega) (by have := hint rfl; omega))
  | long => exact Int64.toInt_ofNat'.trans (if_pos trivial).symm
  | float => exact congrArg Nat.cast (UInt32.toNat_ofNat_of_lt' hlt)
  | double => exact congrArg Nat.cast (UInt64.toNat_ofNat_of_lt' hlt)

/-- A number from 2^31 on is read as a negative one. -/
theorem coded_neg {bs : List UInt8} (hlength : bs.length = 4) (hle : 2 ^ 31 ≤ bigEndian bs) :
    coded .unsignedInt bs < 0 := by
  have hlt : bigEndian bs < 256 ^ 4 := hlength ▸ bigEndian_lt bs
  have hcoded : coded .unsignedInt bs = (bigEndian bs : ℤ).bmod (256 ^ 4) := unsignedInt_eq _
  have hsub : (bigEndian bs : ℤ).bmod (256 ^ 4) = bigEndian bs - 256 ^ 4 := by
    rw [← Int.sub_bmod_right]
    exact Int.bmod_eq_of_le (by omega) (by omega)
  rw [hcoded, hsub]
  omega

/-! ## Bytes that are copied -/

variable {inBuf : ByteBuffer} {index width n length : ℕ}

theorem length_slice (h : index + n ≤ inBuf.limit) : (slice inBuf.hb index n).length = n := by
  have hlimit := inBuf.limit_le
  unfold slice
  rw [List.length_take, List.length_drop]
  omega

theorem checkIndex_run (h : index + width ≤ inBuf.limit) : checkIndex index width inBuf = .ok ((), inBuf) := by
  have hlimit : inBuf.limit ≤ inBuf.capacity := inBuf.limit_le
  have hsum := intSum_le index width
  exact if_neg (by omega)

theorem checkRoom_run {needed room : ℕ} (h : needed ≤ room) : checkRoom needed room inBuf = .ok ((), inBuf) :=
  if_neg (Nat.not_lt.2 h)

theorem getBytesAt_run (h : index + width ≤ inBuf.limit) :
    getBytesAt index width inBuf = .ok (slice inBuf.hb index width, inBuf) := if_pos h

theorem getAt_run (h : index + width ≤ inBuf.limit) :
    getAt index width inBuf = .ok (slice inBuf.hb index width, inBuf) := by
  exact (Decoder.bind_ok (checkIndex_run h)).trans (getBytesAt_run h)

theorem getByteAt_run {x : UInt8} (h : index < inBuf.limit) (hx : inBuf.hb[index]? = some x) :
    getByteAt index inBuf = .ok (x, inBuf) := by
  obtain ⟨hlt, hget⟩ := List.getElem?_eq_some_iff.1 hx
  have hslice : slice inBuf.hb index 1 = [x] := by
    unfold slice
    rw [List.drop_eq_getElem_cons hlt, hget]
    rfl
  have hbyte : UInt8.ofNat (bigEndian [x]) = x := by simp [bigEndian]
  have hrun : getByteAt index inBuf = .ok (UInt8.ofNat (bigEndian (slice inBuf.hb index 1)), inBuf) :=
    map_run (getBytesAt_run h)
  rw [hrun, hslice, hbyte]

theorem getElem?_slice {k : ℕ} (hk : k < n) : (slice inBuf.hb index n)[k]? = inBuf.hb[index + k]? := by
  unfold slice
  rw [List.getElem?_take, if_pos hk, List.getElem?_drop]

theorem take_slice (m : ℕ) : (slice inBuf.hb index n).take m = slice inBuf.hb index (min m n) := List.take_take

theorem copy_run {δ : Type} (sink : Sink δ) (dst : δ) (h : index + n ≤ inBuf.limit) :
    sink.copy getByteAt n index dst inBuf =
      (orThrow (sink.write dst (slice inBuf.hb index (min (sink.room dst) n)))).map fun dst => (dst, inBuf) := by
  have hlength := length_slice h
  have hget : ∀ k x, (slice inBuf.hb index n)[k]? = some x → getByteAt (index + k) inBuf = .ok (x, inBuf) := by
    intro k x hx
    have hk : k < n := hlength ▸ (List.getElem?_eq_some_iff.1 hx).1
    rw [getElem?_slice hk] at hx
    exact getByteAt_run (by omega) hx
  have hcopy : sink.copy getByteAt (slice inBuf.hb index n).length index dst inBuf =
      (orThrow (sink.write dst ((slice inBuf.hb index n).take (sink.room dst)))).map fun dst => (dst, inBuf) :=
    sink.copy_eq hget
  rw [hlength, take_slice] at hcopy
  exact hcopy

theorem copy_some {δ : Type} {sink : Sink δ} {dst dst' : δ} (h : index + n ≤ inBuf.limit)
    (hwrite : sink.write dst (slice inBuf.hb index (min (sink.room dst) n)) = some dst') :
    sink.copy getByteAt n index dst inBuf = .ok (dst', inBuf) := by
  rw [copy_run sink dst h, hwrite]
  rfl

theorem fill_run {x : UInt8} (h : index < inBuf.limit) (hx : inBuf.hb[index]? = some x) {current : ℕ}
    {dst : List UInt8} (hroom : current + n ≤ dst.length) :
    fill index n current dst inBuf = .ok (overwrite dst current (List.replicate n x), inBuf) := by
  induction n generalizing current dst with
  | zero => exact congrArg Except.ok (Prod.ext overwrite_nil.symm rfl)
  | succ n ih =>
    have hset : dst.set current x = overwrite dst current [x] := set_eq_overwrite (by omega)
    have hone : current + [x].length ≤ dst.length := by
      rw [List.length_singleton]
      omega
    have hroom' : current + 1 + n ≤ (dst.set current x).length := by
      rw [List.length_set]
      omega
    have hnext := ih hroom'
    have happend : overwrite (overwrite dst current [x]) (current + 1) (List.replicate n x) =
        overwrite dst current (List.replicate (n + 1) x) := overwrite_append hone
    rw [hset, happend] at hnext
    unfold fill
    show (if inBuf.limit ≤ index then return dst else do
      let x ← getByteAt index
      fill index n (current + 1) (dst.set current x) : Decoder (List UInt8)) inBuf = _
    rw [if_neg (Nat.not_le.2 h)]
    show (getByteAt index inBuf >>= _) = _
    rw [getByteAt_run h hx, ← hnext, ← hset]
    rfl

theorem slice_succ {x : UInt8} (hx : inBuf.hb[index]? = some x) :
    slice inBuf.hb index (n + 1) = x :: slice inBuf.hb (index + 1) n := by
  obtain ⟨hlt, hget⟩ := List.getElem?_eq_some_iff.1 hx
  unfold slice
  rw [List.drop_eq_getElem_cons hlt, hget, List.take_succ_cons]

theorem copyToStream_run {dst : List UInt8} (h : index + n ≤ inBuf.limit) :
    copyToStream n index dst inBuf = .ok (dst ++ slice inBuf.hb index n, inBuf) := by
  induction n generalizing index dst with
  | zero => exact congrArg Except.ok (Prod.ext (List.append_nil dst).symm rfl)
  | succ n ih =>
    have hlimit := inBuf.limit_le
    obtain ⟨x, hx⟩ : ∃ x, inBuf.hb[index]? = some x := ⟨_, List.getElem?_eq_getElem (by omega)⟩
    show (getByteAt index inBuf >>= _) = _
    rw [getByteAt_run (by omega) hx, slice_succ hx, List.append_cons]
    exact ih (by omega)

/-! ## Bytes that are not those asked for -/

theorem index_add_reach_le (h : index ≤ inBuf.limit) : index + reach inBuf index length ≤ inBuf.limit := by
  unfold reach
  omega

/-- A buffer takes the bytes it has room for. -/
theorem writeBytes_slice {dst : ChannelBuffer} (h : index + n ≤ inBuf.limit) (hroom : n ≤ dst.writableBytes) :
    ∃ dst', dst.writeBytes (slice inBuf.hb index n) = some dst' := by
  have hfits : dst.writerIndex + (slice inBuf.hb index n).length ≤ dst.capacity := by
    have hwriter := dst.writerIndex_le
    rw [length_slice h]
    unfold ChannelBuffer.writableBytes ChannelBuffer.capacity at *
    omega
  obtain ⟨dst', hdst', -⟩ := ChannelBuffer.writeBytes_some hfits
  exact ⟨dst', hdst'⟩

theorem getBytesToBuffer_run {dst : ChannelBuffer} (h : index + dst.writableBytes ≤ inBuf.limit) :
    ∃ dst', dst.writeBytes (slice inBuf.hb index dst.writableBytes) = some dst' ∧
      getBytesToBuffer index dst inBuf = .ok (dst', inBuf) := by
  obtain ⟨dst', hdst'⟩ := writeBytes_slice h (Nat.le_refl dst.writableBytes)
  have hbound : index + (inBuf.limit - index) ≤ inBuf.limit := by omega
  have hmin : min dst.writableBytes (inBuf.limit - index) = dst.writableBytes := Nat.min_eq_left (by omega)
  have hwrite := hdst'
  rw [← hmin] at hwrite
  exact ⟨dst', hdst', (Decoder.bind_ok (checkIndex_run h)).trans (copy_some hbound hwrite)⟩

theorem getBytesToByteBuffer_run {dst : ByteBuffer} (h : index + dst.remaining ≤ inBuf.limit) :
    ∃ dst', dst.put (slice inBuf.hb index dst.remaining) = some dst' ∧
      getBytesToByteBuffer index dst inBuf = .ok (dst', inBuf) := by
  obtain ⟨dst', hdst', -⟩ := ByteBuffer.put_some (Nat.le_of_eq (length_slice h))
  have hbound : index + (inBuf.limit - index) ≤ inBuf.limit := by omega
  have hmin : min dst.remaining (inBuf.limit - index) = dst.remaining := Nat.min_eq_left (by omega)
  have hwrite := hdst'
  rw [← hmin] at hwrite
  exact ⟨dst', hdst', (Decoder.bind_ok (checkIndex_run h)).trans (copy_some hbound hwrite)⟩

/-- As many bytes as there is room for are copied, up to the bound of the loop. -/
theorem getBytesOfLength_run {dst : ChannelBuffer} (h : index + length ≤ inBuf.limit)
    (hroom : length ≤ dst.writableBytes) :
    ∃ dst',
      dst.writeBytes (slice inBuf.hb index (min dst.writableBytes (reach inBuf index length))) = some dst' ∧
      getBytesOfLength index dst length inBuf = .ok (dst', inBuf) := by
  have hreach : index + reach inBuf index length ≤ inBuf.limit := index_add_reach_le (by omega)
  have hcopied : index + min dst.writableBytes (reach inBuf index length) ≤ inBuf.limit := by omega
  obtain ⟨dst', hdst'⟩ := writeBytes_slice hcopied (Nat.min_le_left dst.writableBytes _)
  exact ⟨dst', hdst', (Decoder.bind_ok (checkIndex_run h)).trans
    ((Decoder.bind_ok (checkRoom_run hroom)).trans (copy_some hreach hdst'))⟩

theorem getBytesToStream_run {dst : List UInt8} (h : index + length ≤ inBuf.limit) :
    getBytesToStream index dst length inBuf =
      .ok (dst ++ slice inBuf.hb index (reach inBuf index length), inBuf) := by
  exact (Decoder.bind_ok (checkIndex_run h)).trans (copyToStream_run (index_add_reach_le (by omega)))

/-- Each byte of the array is the first of those asked for. -/
theorem getBytesToArrayAt_run {dst : List UInt8} {dstIndex : ℕ} (h : index + length ≤ inBuf.limit)
    (hroom : dstIndex + length ≤ dst.length) : ∃ x, (0 < length → inBuf.hb[index]? = some x) ∧
      getBytesToArrayAt index dst dstIndex length inBuf =
        .ok (overwrite dst dstIndex (List.replicate length x), inBuf) := by
  have hmin : min length dst.length = length := by omega
  have hstart : getBytesToArrayAt index dst dstIndex length inBuf = fill index length dstIndex dst inBuf := by
    refine (Decoder.bind_ok (checkIndex_run h)).trans ((Decoder.bind_ok (checkRoom_run hroom)).trans ?_)
    exact congrArg (fun n => fill index n dstIndex dst inBuf) hmin
  rw [hstart]
  by_cases hlength : length = 0
  · subst hlength
    exact ⟨0, fun hpos => absurd hpos (Nat.lt_irrefl 0), congrArg Except.ok (Prod.ext overwrite_nil.symm rfl)⟩
  · have hlimit := inBuf.limit_le
    have hx : inBuf.hb[index]? = some inBuf.hb[index] := List.getElem?_eq_getElem (by omega)
    exact ⟨_, fun _ => hx, fill_run (by omega) hx hroom⟩

/-- The bytes are copied to the index, and the writer index is put back. -/
theorem getBytesToBufferAt_run {dst : ChannelBuffer} {dstIndex : ℕ} (h : index + length ≤ inBuf.limit)
    (hroom : dstIndex + length ≤ dst.capacity) (hreader : dst.readerIndex ≤ dstIndex) :
    ∃ dst' : ChannelBuffer, dst'.hb = overwrite dst.hb dstIndex
        (slice inBuf.hb index (min (dst.capacity - dstIndex) (reach inBuf index length))) ∧
      dst'.readerIndex = dst.readerIndex ∧ dst'.writerIndex = dst.writerIndex ∧
      getBytesToBufferAt index dst dstIndex length inBuf = .ok (dst', inBuf) := by
  obtain ⟨moved, hmoved, hhb, hreader', hwriter⟩ := ChannelBuffer.setWriterIndex_some hreader (by omega)
  have hcapacity : moved.capacity = dst.capacity := congrArg List.length hhb
  have hwritable : moved.writableBytes = dst.capacity - dstIndex := by
    unfold ChannelBuffer.writableBytes
    rw [hcapacity, hwriter]
  have hmroom : length ≤ moved.writableBytes := by omega
  obtain ⟨copied, hcopied, hrun⟩ := getBytesOfLength_run h hmroom
  rw [hwritable] at hcopied
  have hreach : index + reach inBuf index length ≤ inBuf.limit := index_add_reach_le (by omega)
  have hbytes : (slice inBuf.hb index (min (dst.capacity - dstIndex) (reach inBuf index length))).length =
      min (dst.capacity - dstIndex) (reach inBuf index length) := length_slice (by omega)
  have hfits : moved.writerIndex +
      (slice inBuf.hb index (min (dst.capacity - dstIndex) (reach inBuf index length))).length ≤
        moved.capacity := by
    rw [hbytes]
    omega
  obtain ⟨copied', hcopied', hchb, hcreader, -⟩ := ChannelBuffer.writeBytes_some hfits
  obtain rfl : copied' = copied := Option.some.inj (hcopied'.symm.trans hcopied)
  have hccapacity : copied'.capacity = dst.capacity := by
    show copied'.hb.length = dst.capacity
    rw [hchb, length_overwrite hfits]
    exact hcapacity
  have hback : copied'.readerIndex ≤ dst.writerIndex := by
    rw [hcreader, hreader']
    exact dst.readerIndex_le
  have hback' : dst.writerIndex ≤ copied'.capacity := hccapacity.symm ▸ dst.writerIndex_le
  obtain ⟨dst', hdst', hhb', hreader'', hwriter'⟩ := ChannelBuffer.setWriterIndex_some hback hback'
  refine ⟨dst', by rw [hhb', hchb, hhb, hwriter], by omega, hwriter', ?_⟩
  show ((liftM (orThrow (dst.setWriterIndex dstIndex) : Except Stop ChannelBuffer) :
    Decoder ChannelBuffer) inBuf >>= _) = _
  rw [hmoved]
  show (getBytesOfLength index moved length inBuf >>= _) = _
  rw [hrun]
  show ((liftM (orThrow (copied'.setWriterIndex dst.writerIndex) : Except Stop ChannelBuffer) :
    Decoder ChannelBuffer) inBuf) = _
  rw [hdst']
  rfl

theorem getBytesToBufferAt_error {dst : ChannelBuffer} {dstIndex : ℕ} (hreader : dstIndex < dst.readerIndex) :
    getBytesToBufferAt index dst dstIndex length inBuf = .error .exception := by
  have hnone : dst.setWriterIndex dstIndex = none := dif_neg fun h => Nat.not_lt.2 h.1 hreader
  show ((liftM (orThrow (dst.setWriterIndex dstIndex) : Except Stop ChannelBuffer) :
    Decoder ChannelBuffer) inBuf >>= _) = _
  rw [hnone]
  rfl

/-! ## Calls that depart from the contract -/

/-- The bound of the loop with a length stops it after so many bytes: it is as far from the index, or there is no
room for more, or no more bytes are there. -/
def StopsAt (inBuf : ByteBuffer) (index length : ℕ) (full : Prop) : Prop :=
  inBuf.position = index ∨ inBuf.position < index ∧ length = 0 ∨
    index < inBuf.position ∧ inBuf.position + length < 2 ^ 31 ∧ (full ∨ inBuf.limit = index + length)

/-- A kind that is missing, or a number without a sign from 2^31 on. -/
def WrongKind (kind : Kind) (bs : List UInt8) : Prop :=
  kind = .medium ∨ kind = .unsignedMedium ∨ kind = .unsignedInt ∧ 2 ^ 31 ≤ bigEndian bs

/-- Not all bytes asked for are equal to the first one. -/
def Varied (inBuf : ByteBuffer) (index length : ℕ) : Prop :=
  ∃ x ∈ slice inBuf.hb index length, some x ≠ inBuf.hb[index]?

def Target.Departs (inBuf : ByteBuffer) (index : ℕ) : Target → Prop
  | .buffer _ | .byteBuffer _ => False
  | .array dst => Varied inBuf index dst.length
  | .bufferOfLength dst length => ¬StopsAt inBuf index length (dst.writableBytes = length)
  | .stream _ length => ¬StopsAt inBuf index length False
  | .channel _ _ => True
  | .bufferAt dst dstIndex length => dstIndex < dst.readerIndex ∨
      ∃ k, (k < length ↔ ¬k < min (dst.capacity - dstIndex) (reach inBuf index length)) ∧
        dst.hb[dstIndex + k]? ≠ inBuf.hb[index + k]?
  | .arrayAt _ _ length => Varied inBuf index length

def Departs (inBuf : ByteBuffer) : Call → Prop
  | .get kind index => WrongKind kind (slice inBuf.hb index kind.width)
  | .read kind => WrongKind kind (slice inBuf.hb inBuf.position kind.width)
  | .getBytes index target => target.Departs inBuf index
  | .readBytes (.array _) | .readBytes (.arrayAt _ _ _) => False
  | .readBytes _ | .readNew _ | .readFound => True

theorem reach_eq (hlimit : inBuf.limit < 2 ^ 31) (h : index + length ≤ inBuf.limit) : reach inBuf index length =
    min (if inBuf.position + length < 2 ^ 31 then inBuf.position + length else 0) inBuf.limit - index := by
  have hposition := inBuf.position_le
  unfold reach
  rw [intSum_eq (by omega)]
  split_ifs <;> omega

theorem stopsAt_iff {room : ℕ} (hlimit : inBuf.limit < 2 ^ 31) (h : index + length ≤ inBuf.limit)
    (hroom : length ≤ room) :
    min room (reach inBuf index length) = length ↔ StopsAt inBuf index length (room = length) := by
  have hposition := inBuf.position_le
  rw [reach_eq hlimit h]
  unfold StopsAt
  split_ifs with hlt <;> omega

theorem stopsAt_false_iff (hlimit : inBuf.limit < 2 ^ 31) (h : index + length ≤ inBuf.limit) :
    reach inBuf index length = length ↔ StopsAt inBuf index length False := by
  have hposition := inBuf.position_le
  rw [reach_eq hlimit h]
  unfold StopsAt
  simp only [false_or]
  split_ifs with hlt <;> omega

/-! ## When the contract is followed -/

theorem exists_ok_iff {α : Type} {r : Except Stop (α × ByteBuffer)} {a : α} {inBuf' : ByteBuffer}
    {P : α → ByteBuffer → Prop} (h : r = .ok (a, inBuf')) :
    (∃ a' b', r = .ok (a', b') ∧ P a' b') ↔ P a inBuf' := by
  subst h
  constructor
  · rintro ⟨_, _, ⟨⟩, hP⟩
    exact hP
  · exact fun hP => ⟨_, _, rfl, hP⟩

theorem not_exists_ok {α : Type} {r : Except Stop (α × ByteBuffer)} {P : α → ByteBuffer → Prop}
    (h : r = .error .exception) : ¬∃ a b, r = .ok (a, b) ∧ P a b := by
  rintro ⟨a, b, hok, -⟩
  cases hok.symm.trans h

theorem value_nonneg {kind : Kind} {bs : List UInt8} (h : ¬kind.Signed) : 0 ≤ kind.value bs := by
  unfold Kind.value
  rw [if_neg h]
  omega

/-- Each number is the one that the bytes stand for, but one of the wrong kind. -/
theorem number_iff {k : Decoder ℤ} {kind : Kind} {bs : List UInt8} {inBuf' : ByteBuffer} {P : ByteBuffer → Prop}
    (hok : Supported kind → k inBuf = .ok (coded kind bs, inBuf'))
    (herror : ¬Supported kind → k inBuf = .error .exception) (hlength : bs.length = kind.width) (hP : P inBuf') :
    (∃ answer b', (do return Answer.number (← k) : Decoder Answer) inBuf = .ok (answer, b') ∧
      IsNumber kind bs answer ∧ P b') ↔ ¬WrongKind kind bs := by
  by_cases hkind : Supported kind
  · rw [exists_ok_iff (map_run (hok hkind)), and_iff_left hP]
    have hwrong : WrongKind kind bs ↔ kind = .unsignedInt ∧ 2 ^ 31 ≤ bigEndian bs := by
      unfold WrongKind
      rw [or_iff_right hkind.1, or_iff_right hkind.2]
    rw [hwrong]
    constructor
    · rintro ⟨n, ⟨⟩, hvalue, hnonneg⟩ ⟨rfl, hle⟩
      have hneg := coded_neg hlength hle
      have hpos := hnonneg (by decide)
      omega
    · intro hwrong
      have hvalue := coded_eq_value hkind hlength fun hint => Nat.lt_of_not_le fun hle => hwrong ⟨hint, hle⟩
      exact ⟨_, rfl, hvalue, fun hsigned => hvalue.symm ▸ value_nonneg hsigned⟩
  · have hwrong : WrongKind kind bs := by
      unfold Supported at hkind
      rw [not_and_or, not_not, not_not] at hkind
      exact hkind.imp_right .inl
    exact iff_of_false (not_exists_ok (Decoder.bind_error (herror hkind))) (not_not_intro hwrong)

theorem get_error {kind : Kind} (h : ¬Supported kind) : get index kind inBuf = .error .exception := by
  cases kind with
  | medium | unsignedMedium => rfl
  | _ => exact absurd ⟨nofun, nofun⟩ h

theorem read_error {kind : Kind} (h : ¬Supported kind) : read kind inBuf = .error .exception := by
  cases kind with
  | medium | unsignedMedium => rfl
  | _ => exact absurd ⟨nofun, nofun⟩ h

theorem replicate_eq_slice_iff {x : UInt8} (h : index + length ≤ inBuf.limit)
    (hx : 0 < length → inBuf.hb[index]? = some x) :
    List.replicate length x = slice inBuf.hb index length ↔ ¬Varied inBuf index length := by
  rw [eq_comm, List.eq_replicate_iff, and_iff_right (length_slice h)]
  unfold Varied
  push Not
  refine forall₂_congr fun y hy => ?_
  have hpos : 0 < length := length_slice h ▸ List.length_pos_of_mem hy
  rw [hx hpos, Option.some_inj]

theorem writeBytes_inj {dst dst' : ChannelBuffer} {m : ℕ}
    (hm : dst.writeBytes (slice inBuf.hb index m) = some dst')
    (hn : dst.writeBytes (slice inBuf.hb index n) = some dst') (hmlimit : index + m ≤ inBuf.limit)
    (hnlimit : index + n ≤ inBuf.limit) : m = n := by
  have hwriter := ChannelBuffer.writerIndex_of_writeBytes hm
  rw [ChannelBuffer.writerIndex_of_writeBytes hn, length_slice hmlimit, length_slice hnlimit] at hwriter
  omega

theorem getBytes_iff {target : Target} (hlimit : inBuf.limit < 2 ^ 31)
    (h : index + target.length ≤ inBuf.limit) (hfits : target.Fits) :
    (∃ answer b', getBytes index target inBuf = .ok (answer, b') ∧
      target.Copied (slice inBuf.hb index target.length) answer ∧ b' = inBuf) ↔ ¬target.Departs inBuf index := by
  have hok : ∀ {answer}, getBytes index target inBuf = .ok (answer, inBuf) →
      ((∃ answer b', getBytes index target inBuf = .ok (answer, b') ∧
        target.Copied (slice inBuf.hb index target.length) answer ∧ b' = inBuf) ↔
          target.Copied (slice inBuf.hb index target.length) answer) :=
    fun hrun => (exists_ok_iff hrun).trans (and_iff_left rfl)
  cases target with
  | buffer dst =>
    obtain ⟨dst', hdst', hrun⟩ := getBytesToBuffer_run h
    exact (hok (map_run hrun)).trans (iff_of_true ⟨dst', hdst', rfl⟩ not_false)
  | array dst =>
    have hroom : 0 + dst.length ≤ dst.length := Nat.le_of_eq (Nat.zero_add _)
    obtain ⟨x, hx, hrun⟩ := getBytesToArrayAt_run h hroom
    have hfull : overwrite dst 0 (List.replicate dst.length x) = List.replicate dst.length x :=
      overwrite_zero (Nat.le_of_eq List.length_replicate.symm)
    refine (hok (map_run hrun)).trans (Iff.trans ?_ (replicate_eq_slice_iff h hx))
    show Answer.bytes (overwrite dst 0 (List.replicate dst.length x)) = _ ↔ _
    rw [hfull, Answer.bytes.injEq]
    rfl
  | byteBuffer dst =>
    obtain ⟨dst', hdst', hrun⟩ := getBytesToByteBuffer_run h
    exact (hok (map_run hrun)).trans (iff_of_true ⟨dst', hdst', rfl⟩ not_false)
  | bufferOfLength dst length =>
    have hlength : index + length ≤ inBuf.limit := h
    have hreach : index + reach inBuf index length ≤ inBuf.limit := index_add_reach_le (by omega)
    have hroom : length ≤ dst.writableBytes := hfits
    obtain ⟨dst', hdst', hrun⟩ := getBytesOfLength_run hlength hroom
    refine (hok (map_run hrun)).trans (Iff.trans ?_ (not_not.trans (stopsAt_iff hlimit hlength hroom).symm).symm)
    constructor
    · rintro ⟨asked, hasked, ⟨⟩⟩
      exact writeBytes_inj hdst' hasked (by omega) hlength
    · intro heq
      rw [heq] at hdst'
      exact ⟨dst', hdst', rfl⟩
  | stream dst length =>
    have hlength : index + length ≤ inBuf.limit := h
    have hreach : index + reach inBuf index length ≤ inBuf.limit := index_add_reach_le (by omega)
    refine (hok (map_run (getBytesToStream_run h))).trans
      (Iff.trans ?_ (not_not.trans (stopsAt_false_iff hlimit h).symm).symm)
    show Answer.bytes (dst ++ slice inBuf.hb index (reach inBuf index length)) = .bytes _ ↔ _
    rw [Answer.bytes.injEq, List.append_cancel_left_eq]
    refine ⟨fun heq => ?_, fun heq => congrArg _ heq⟩
    have hlengths := congrArg List.length heq
    rwa [length_slice hreach, length_slice h] at hlengths
  | channel dst length => exact iff_of_false (not_exists_ok rfl) (not_not_intro trivial)
  | bufferAt dst dstIndex length =>
    have hlength : index + length ≤ inBuf.limit := h
    have hroom : dstIndex + length ≤ dst.capacity := hfits
    have hreach : index + reach inBuf index length ≤ inBuf.limit := index_add_reach_le (by omega)
    by_cases hreader : dstIndex < dst.readerIndex
    · refine iff_of_false (not_exists_ok ?_) (not_not_intro (.inl hreader))
      exact Decoder.bind_error (getBytesToBufferAt_error hreader)
    · obtain ⟨dst', hhb, hreader', hwriter, hrun⟩ := getBytesToBufferAt_run h hfits (Nat.le_of_not_lt hreader)
      have hbytes : (inBuf.hb.drop index).length = inBuf.hb.length - index := List.length_drop
      have hlimit' := inBuf.limit_le
      have hcopied : dstIndex + min (dst.capacity - dstIndex) (reach inBuf index length) ≤ dst.hb.length := by
        have hcapacity : dst.capacity = dst.hb.length := rfl
        omega
      have hsame : overwrite dst.hb dstIndex (slice inBuf.hb index
          (min (dst.capacity - dstIndex) (reach inBuf index length))) =
            overwrite dst.hb dstIndex (slice inBuf.hb index length) ↔ _ :=
        overwrite_take_eq_iff (by omega) (by omega) hcopied hroom
      refine (hok (map_run hrun)).trans (Iff.trans (b := overwrite dst.hb dstIndex (slice inBuf.hb index
        (min (dst.capacity - dstIndex) (reach inBuf index length))) =
          overwrite dst.hb dstIndex (slice inBuf.hb index length)) ?_ (hsame.trans ?_))
      · constructor
        · rintro ⟨asked, hasked, -, -, ⟨⟩⟩
          exact hhb.symm.trans hasked
        · exact fun heq => ⟨dst', hhb.trans heq, hreader', hwriter, rfl⟩
      · show _ ↔ ¬(dstIndex < dst.readerIndex ∨ _)
        rw [or_iff_right hreader]
        push Not
        simp only [List.getElem?_drop]
  | arrayAt dst dstIndex length =>
    obtain ⟨x, hx, hrun⟩ := getBytesToArrayAt_run h hfits
    refine (hok (map_run hrun)).trans (Iff.trans ?_ (replicate_eq_slice_iff h hx))
    show Answer.bytes (overwrite dst dstIndex (List.replicate length x)) = .bytes _ ↔ _
    rw [Answer.bytes.injEq]
    exact overwrite_inj (List.length_replicate.trans (length_slice h).symm)

theorem getBytes_run (h : n ≤ inBuf.remaining) : ∃ inBuf', Advanced inBuf n inBuf' ∧
    Decoder.getBytes n inBuf = .ok (slice inBuf.hb inBuf.position n, inBuf') := by
  have hmin : min n inBuf.remaining = n := Nat.min_eq_left h
  have hbytes : inBuf.bytes.take n = slice inBuf.hb inBuf.position n := by
    unfold ByteBuffer.bytes slice
    rw [List.take_take, hmin]
  unfold Decoder.getBytes ByteBuffer.get
  rw [dif_pos h, hbytes]
  refine ⟨_, ?_, rfl⟩
  exact ⟨rfl, rfl, rfl⟩

theorem readBytesToArrayAt_run {dst : List UInt8} {dstIndex : ℕ} (h : length ≤ inBuf.remaining)
    (hroom : dstIndex + length ≤ dst.length) : ∃ inBuf', Advanced inBuf length inBuf' ∧
      readBytesToArrayAt dst dstIndex length inBuf =
        .ok (overwrite dst dstIndex (slice inBuf.hb inBuf.position length), inBuf') := by
  obtain ⟨inBuf', hadvanced, hrun⟩ := getBytes_run h
  refine ⟨inBuf', hadvanced, ?_⟩
  exact (Decoder.bind_ok (checkRoom_run hroom)).trans (map_run hrun)

theorem position_add_le (h : n ≤ inBuf.remaining) : inBuf.position + n ≤ inBuf.limit := by
  have hposition := inBuf.position_le
  unfold ByteBuffer.remaining at h
  omega

/-- What is read into an array is what has been asked for. -/
theorem readBytes_iff {target : Target} (h : target.length ≤ inBuf.remaining) (hfits : target.Fits) :
    (∃ answer b', readBytes target inBuf = .ok (answer, b') ∧
      target.Copied (slice inBuf.hb inBuf.position target.length) answer ∧ Advanced inBuf target.length b') ↔
        ¬Departs inBuf (.readBytes target) := by
  cases target with
  | array dst =>
    have hroom : 0 + dst.length ≤ dst.length := Nat.le_of_eq (Nat.zero_add _)
    obtain ⟨inBuf', hadvanced, hrun⟩ := readBytesToArrayAt_run h hroom
    have hfull : overwrite dst 0 (slice inBuf.hb inBuf.position dst.length) =
        slice inBuf.hb inBuf.position dst.length :=
      overwrite_zero (Nat.le_of_eq (length_slice (position_add_le h)).symm)
    exact iff_of_true ⟨_, inBuf', map_run hrun, congrArg Answer.bytes hfull, hadvanced⟩ not_false
  | arrayAt dst dstIndex length =>
    obtain ⟨inBuf', hadvanced, hrun⟩ := readBytesToArrayAt_run h hfits
    exact iff_of_true ⟨_, inBuf', map_run hrun, rfl, hadvanced⟩ not_false
  | _ => exact iff_of_false (not_exists_ok rfl) (not_not_intro trivial)

/-- A call within the bytes follows the contract but for those that depart from it. -/
theorem read_follows_iff (s : SocketReadByteChannelBuffer) (call : Call) :
    Follows s.inBuf call ↔ ¬(Within s.inBuf call ∧ Departs s.inBuf call) := by
  rw [not_and]
  refine forall_congr' fun hwithin => ?_
  have hlimit : s.inBuf.limit < 2 ^ 31 := Nat.lt_of_le_of_lt s.inBuf.limit_le s.capacity_lt
  cases call with
  | get kind index =>
    exact number_iff (P := fun b => b = s.inBuf) (fun hkind => get_run hkind (getAt_run hwithin)) get_error
      (length_slice hwithin) rfl
  | read kind =>
    obtain ⟨inBuf', hadvanced, hrun⟩ := getBytes_run hwithin
    exact number_iff (fun hkind => read_run hkind hrun) read_error (length_slice (position_add_le hwithin))
      hadvanced
  | getBytes index target => exact getBytes_iff hlimit hwithin.1 hwithin.2
  | readBytes target => exact readBytes_iff hwithin.1 hwithin.2
  | readNew length => exact iff_of_false (not_exists_ok rfl) (not_not_intro trivial)
  | readFound => exact iff_of_false (not_exists_ok rfl) (not_not_intro trivial)

/-- Four bytes `ff` are read as the number -1 without a sign. -/
theorem not_read_follows : ¬∀ (s : SocketReadByteChannelBuffer) (call : Call), Follows s.inBuf call := by
  intro h
  let s : SocketReadByteChannelBuffer :=
    ⟨⟨[0xff, 0xff, 0xff, 0xff], 0, 4, none, by decide, by decide⟩, by decide⟩
  have hrun : get 0 .unsignedInt s.inBuf = .ok (coded .unsignedInt [0xff, 0xff, 0xff, 0xff], s.inBuf) :=
    get_run ⟨nofun, nofun⟩ (getAt_run (Nat.le_refl 4))
  obtain ⟨answer, inBuf', hok, ⟨n, rfl, -, hnonneg⟩, -⟩ := h s (.get .unsignedInt 0) (Nat.le_refl 4)
  cases (map_run hrun).symm.trans hok
  exact absurd (hnonneg (by decide)) (Int.not_le.2 (coded_neg rfl (by decide)))

end SocketReadByteChannelBuffer

end Torpedo
