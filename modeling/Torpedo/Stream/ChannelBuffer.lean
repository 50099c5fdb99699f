import Torpedo.Util.Encoder
import Torpedo.Util.Overwrites

/-!
# Buffers of the channel library

A `ChannelBuffer` of a fixed capacity, as far as bytes are copied to it and from it. It has an index where the
next byte is read and one where the next byte is written.
-/

namespace Torpedo

/-- The sum of two numbers of the type `int`. -/
def intSum (a b : ℕ) : ℤ := (Int32.ofNat (a + b)).toInt

theorem intSum_eq {a b : ℕ} (h : a + b < 2 ^ 32) :
    intSum a b = if a + b < 2 ^ 31 then (a + b : ℤ) else (a + b : ℤ) - 2 ^ 32 := by
  unfold intSum
  rw [Int32.toInt_ofNat', show Int32.size = 2 ^ 32 from rfl, Int.bmod_def]
  split_ifs <;> omega

theorem intSum_le (a b : ℕ) : intSum a b ≤ a + b := by
  unfold intSum
  rw [Int32.toInt_ofNat', show Int32.size = 2 ^ 32 from rfl, Int.bmod_def]
  split_ifs <;> omega

structure ChannelBuffer where
  hb : List UInt8
  readerIndex : ℕ
  writerIndex : ℕ
  readerIndex_le : readerIndex ≤ writerIndex
  writerIndex_le : writerIndex ≤ hb.length

namespace ChannelBuffer

variable (b : ChannelBuffer)

def capacity : ℕ := b.hb.length

def writableBytes : ℕ := b.capacity - b.writerIndex

def readableBytes : ℕ := b.writerIndex - b.readerIndex

/-- The bytes that can be read. -/
def readable : List UInt8 := slice b.hb b.readerIndex b.readableBytes

def setWriterIndex (index : ℕ) : Option ChannelBuffer :=
  if h : b.readerIndex ≤ index ∧ index ≤ b.capacity then
    some { b with writerIndex := index, readerIndex_le := h.1, writerIndex_le := h.2 }
  else none

def writeBytes (bs : List UInt8) : Option ChannelBuffer :=
  if h : b.writerIndex + bs.length ≤ b.capacity then
    some { b with
      hb := overwrite b.hb b.writerIndex bs
      writerIndex := b.writerIndex + bs.length
      readerIndex_le := b.readerIndex_le.trans (Nat.le_add_right ..)
      writerIndex_le := (length_overwrite h).symm ▸ h }
  else none

def readByte : Option (UInt8 × ChannelBuffer) :=
  if h : b.readerIndex < b.writerIndex then
    some (byteAt b.hb b.readerIndex, { b with readerIndex := b.readerIndex + 1, readerIndex_le := h })
  else none

def getByte (index : ℕ) : Option UInt8 := b.hb[index]?

variable {b} {b' : ChannelBuffer} {bs xs ys : List UInt8}

theorem ext_fields (hhb : b.hb = b'.hb) (hreader : b.readerIndex = b'.readerIndex)
    (hwriter : b.writerIndex = b'.writerIndex) : b = b' := by
  cases b
  cases b'
  simp only at hhb hreader hwriter
  subst hhb hreader hwriter
  rfl

theorem setWriterIndex_some {index : ℕ} (hreader : b.readerIndex ≤ index) (hcapacity : index ≤ b.capacity) :
    ∃ b', b.setWriterIndex index = some b' ∧ b'.hb = b.hb ∧ b'.readerIndex = b.readerIndex ∧
      b'.writerIndex = index :=
  ⟨_, dif_pos ⟨hreader, hcapacity⟩, rfl, rfl, rfl⟩

theorem writeBytes_some (h : b.writerIndex + bs.length ≤ b.capacity) :
    ∃ b', b.writeBytes bs = some b' ∧ b'.hb = overwrite b.hb b.writerIndex bs ∧ b'.readerIndex = b.readerIndex ∧
      b'.writerIndex = b.writerIndex + bs.length :=
  ⟨_, dif_pos h, rfl, rfl, rfl⟩

theorem writerIndex_of_writeBytes (h : b.writeBytes bs = some b') :
    b'.writerIndex = b.writerIndex + bs.length := by
  unfold writeBytes at h
  split_ifs at h
  obtain rfl := Option.some.inj h
  rfl

theorem writeBytes_none (h : ¬b.writerIndex + bs.length ≤ b.capacity) : b.writeBytes bs = none := dif_neg h

theorem writeBytes_nil : b.writeBytes [] = some b := by
  have hroom : b.writerIndex + ([] : List UInt8).length ≤ b.capacity := b.writerIndex_le
  obtain ⟨b', hb', hhb, hreader, hwriter⟩ := writeBytes_some hroom
  rw [hb', ext_fields (hhb.trans overwrite_nil) hreader hwriter]

theorem writeBytes_append : b.writeBytes (xs ++ ys) = (b.writeBytes xs).bind fun b => b.writeBytes ys := by
  have hlength : (xs ++ ys).length = xs.length + ys.length := List.length_append
  by_cases hx : b.writerIndex + xs.length ≤ b.capacity
  · obtain ⟨b', hb', hhb, hreader, hwriter⟩ := writeBytes_some hx
    have hcapacity : b'.capacity = b.capacity := by
      unfold capacity
      rw [hhb, length_overwrite hx]
    rw [hb', Option.bind_some]
    by_cases hxy : b.writerIndex + (xs ++ ys).length ≤ b.capacity
    · obtain ⟨c, hc, hchb, hcreader, hcwriter⟩ := writeBytes_some hxy
      have hy : b'.writerIndex + ys.length ≤ b'.capacity := by omega
      obtain ⟨d, hd, hdhb, hdreader, hdwriter⟩ := writeBytes_some hy
      have hhb' : c.hb = d.hb := by rw [hchb, hdhb, hhb, hwriter, overwrite_append hx]
      rw [hc, hd, ext_fields hhb' (by omega) (by omega)]
    · rw [writeBytes_none hxy, writeBytes_none (by omega)]
  · rw [writeBytes_none hx, writeBytes_none (by omega), Option.bind_none]

/-- Bytes are written as long as the buffer is writable. -/
def sink : Sink ChannelBuffer where
  room := writableBytes
  write := writeBytes
  write_nil _ := writeBytes_nil
  write_cons b x xs := by
    have happend : b.writeBytes ([x] ++ xs) = (b.writeBytes [x]).bind fun b => b.writeBytes xs := writeBytes_append
    exact happend
  room_write {b x} h := by
    have hroom : b.writerIndex + [x].length ≤ b.capacity := by
      unfold writableBytes at h
      rw [List.length_singleton]
      omega
    obtain ⟨b', hb', hhb, -, hwriter⟩ := writeBytes_some hroom
    refine ⟨b', hb', ?_⟩
    unfold writableBytes capacity
    rw [hhb, length_overwrite hroom, hwriter, List.length_singleton]
    omega

end ChannelBuffer

/-- Bytes are put as long as the position is below the limit. -/
def ByteBuffer.sink : Sink ByteBuffer where
  room := ByteBuffer.remaining
  write := ByteBuffer.put
  write_nil := ByteBuffer.put_nil
  write_cons b x xs := (b.put_put [x] xs).symm
  room_write {b x} h := by
    have hroom : [x].length ≤ b.remaining := h
    obtain ⟨b', hb', -, hposition, hlimit, -⟩ := ByteBuffer.put_some hroom
    refine ⟨b', hb', ?_⟩
    unfold ByteBuffer.remaining
    rw [hposition, hlimit, List.length_singleton]
    omega

end Torpedo
