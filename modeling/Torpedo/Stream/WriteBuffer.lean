import Torpedo.Stream.ChannelBuffer

/-!
# The buffer that is written

`SocketWriteByteChannelBuffer` takes the bytes that go to a socket. The position of its buffer is the writer
index. Each operation is an encoder that writes to the buffer, and gives what is left of its source.
-/

namespace Torpedo

/-- A stream of bytes up to its end, and how many it says are available. -/
structure InputStream where
  bytes : List UInt8
  available : ℕ

namespace SocketWriteByteChannelBuffer

open Encoder (putBytes putByte)

variable {σ : Type}

/-- What the operations check first. -/
def check (needed : ℤ) (bound : ℕ) : Encoder Unit := fun outBuf =>
  if (bound : ℤ) < needed then .error .exception else .ok ((), outBuf)

def checkLimit (needed : ℤ) : Encoder Unit := do check needed (← get).limit

def checkWritable (needed : ℕ) : Encoder Unit := do check needed (← get).remaining

/-- `put` at an index. The position stays. -/
def putByteAt (index : ℕ) (x : UInt8) : Encoder Unit := fun outBuf => do
  let outBuf ← orThrow (outBuf.putAt index [x])
  return ((), outBuf)

/-- Byte after byte of a source is put, so many in all. The second number counts them. -/
def copyFrom (next : σ → Option (UInt8 × σ)) (put : ℕ → UInt8 → Encoder Unit) : ℕ → ℕ → σ → Encoder σ
  | 0, _, src => return src
  | n + 1, i, src => do
    let (x, src) ← (orThrow (next src) : Except Stop (UInt8 × σ))
    put i x
    copyFrom next put n (i + 1) src

/-- The byte at an index, and the index of the next one. -/
def nextAt (hb : List UInt8) (index : ℕ) : Option (UInt8 × ℕ) := hb[index]?.map fun x => (x, index + 1)

/-- `get` of a buffer of Java. -/
def nextOf (src : ByteBuffer) : Option (UInt8 × ByteBuffer) :=
  (src.get 1).map fun (bs, src) => (byteAt bs 0, src)

/-- The loop over a stream, which may end. -/
def copyFromStream (put : ℕ → UInt8 → Encoder Unit) : ℕ → ℕ → List UInt8 → Encoder ℕ
  | 0, i, _ => return i
  | _ + 1, i, [] => return i
  | n + 1, i, x :: src => do
    put i x
    copyFromStream put n (i + 1) src

/-! ## Bytes at an index -/

/-- The loop of `setBytes` from an array. The index is that of the buffer and the start of the loop. -/
def putArray (index : ℕ) (src : List UInt8) : ℕ → ℕ → Encoder Unit
  | 0, _ => return
  | n + 1, i => do
    let x ← (orThrow src[i - index]? : Except Stop UInt8)
    putByteAt index x
    putArray index src n (i + 1)

/-- `setBytes` from an array. -/
def setBytesFromArray (index : ℕ) (src : List UInt8) : Encoder Unit := do
  checkLimit (intSum index src.length)
  putArray index src (src.length - index) index

/-- `setBytes` from a buffer of Java. -/
def setBytesFromByteBuffer (index : ℕ) (src : ByteBuffer) : Encoder ByteBuffer := do
  checkLimit (intSum index src.remaining)
  copyFrom nextOf (fun i => putByteAt (index + i)) src.remaining 0 src

/-- `setBytes` from a buffer, with a length. -/
def setBytesOfLength (index : ℕ) (src : ChannelBuffer) (length : ℕ) : Encoder ChannelBuffer := do
  checkLimit (intSum index src.readableBytes)
  copyFrom ChannelBuffer.readByte (fun i => putByteAt (index + i)) length 0 src

/-- `setBytes` from a stream. -/
def setBytesFromStream (index : ℕ) (src : InputStream) (length : ℕ) : Encoder ℕ := do
  checkLimit (intSum index src.available)
  copyFromStream (fun i => putByteAt (index + i)) length 0 src.bytes

/-- `setBytes` from an index of a buffer. -/
def setBytesFromBufferAt (index : ℕ) (src : ChannelBuffer) (srcIndex length : ℕ) : Encoder ℕ := do
  checkLimit (intSum index length)
  copyFrom (fun i => (src.getByte i).map fun x => (x, i + 1)) (fun i => putByteAt (index + i)) length 0 srcIndex

/-- `setBytes` from an index of an array. -/
def setBytesFromArrayAt (index : ℕ) (src : List UInt8) (srcIndex length : ℕ) : Encoder ℕ := do
  checkLimit (intSum index length)
  copyFrom (nextAt src) (fun i => putByteAt (index + i)) length 0 srcIndex

/-! ## Numbers at the writer index -/

def writeByte (value : Int32) : Encoder Unit := do
  checkWritable 1
  putByte value.toInt8.toUInt8

def writeShort (value : Int32) : Encoder Unit := do
  checkWritable 2
  Encoder.putShort value.toInt16.toUInt16

def writeChar (value : Int32) : Encoder Unit := do
  checkWritable 2
  Encoder.putShort value.toUInt32.toUInt16

def writeInt (value : Int32) : Encoder Unit := do
  checkWritable 4
  Encoder.putInt value.toUInt32

def writeLong (value : Int64) : Encoder Unit := do
  checkWritable 8
  Encoder.putLong value.toUInt64

/-- The number is given as its bits. -/
def writeFloat (bits : UInt32) : Encoder Unit := do
  checkWritable 4
  Encoder.putInt bits

/-- The number is given as its bits. -/
def writeDouble (bits : UInt64) : Encoder Unit := do
  checkWritable 8
  Encoder.putLong bits

/-- The loop of `writeZero`. -/
def writeZeros : ℕ → Encoder Unit
  | 0 => return
  | n + 1 => do
    writeByte 0
    writeZeros n

def writeZero (length : ℕ) : Encoder Unit := do
  checkWritable length
  writeZeros length

/-! ## Bytes at the writer index -/

/-- `writeBytes` of all that can be read of a buffer. -/
def writeBytesFromBuffer (src : ChannelBuffer) : Encoder ChannelBuffer := do
  checkWritable src.readableBytes
  copyFrom ChannelBuffer.readByte (fun _ => putByte) src.readableBytes 0 src

/-- `writeBytes` of an array. -/
def writeBytesFromArray (src : List UInt8) : Encoder Unit := do
  checkWritable src.length
  putBytes src

/-- `writeBytes` from a buffer of Java. -/
def writeBytesFromByteBuffer (src : ByteBuffer) : Encoder ByteBuffer := do
  checkWritable src.remaining
  let (bs, src) ← (orThrow (src.get src.remaining) : Except Stop (List UInt8 × ByteBuffer))
  putBytes bs
  return src

/-- `writeBytes` from a buffer, with a length. -/
def writeBytesOfLength (src : ChannelBuffer) (length : ℕ) : Encoder ChannelBuffer := do
  checkWritable length
  checkWritable src.readableBytes
  copyFrom ChannelBuffer.readByte (fun _ => putByte) length 0 src

/-- `writeBytes` from a stream. -/
def writeBytesFromStream (src : InputStream) (length : ℕ) : Encoder ℕ := do
  checkWritable length
  copyFromStream (fun _ => putByte) length 0 src.bytes

/-- `writeBytes` from an index of a buffer. -/
def writeBytesFromBufferAt (src : ChannelBuffer) (srcIndex length : ℕ) : Encoder ℕ := do
  checkWritable length
  copyFrom (fun i => (src.getByte i).map fun x => (x, i + 1)) (fun _ => putByte) length 0 srcIndex

/-- `writeBytes` from an index of an array. -/
def writeBytesFromArrayAt (src : List UInt8) (srcIndex length : ℕ) : Encoder ℕ := do
  checkWritable length
  copyFrom (nextAt src) (fun _ => putByte) length 0 srcIndex

/-! ## Calls -/

/-- A number that is written. Floating-point numbers are given as their bits. -/
inductive Number
  | byte (value : Int32)
  | short (value : Int32)
  | char (value : Int32)
  | medium (value : Int32)
  | int (value : Int32)
  | long (value : Int64)
  | float (bits : UInt32)
  | double (bits : UInt64)
deriving DecidableEq, Repr

/-- Where bytes are copied from. -/
inductive Source
  | buffer (src : ChannelBuffer)
  | array (src : List UInt8)
  | byteBuffer (src : ByteBuffer)
  | bufferOfLength (src : ChannelBuffer) (length : ℕ)
  | stream (src : InputStream) (length : ℕ)
  | channel (src : List UInt8) (length : ℕ)
  | bufferAt (src : ChannelBuffer) (srcIndex length : ℕ)
  | arrayAt (src : List UInt8) (srcIndex length : ℕ)

/-- The operations of the interface that set bytes or write something. -/
inductive Call
  | setBytes (index : ℕ) (source : Source)
  | write (number : Number)
  | writeZero (length : ℕ)
  | writeBytes (source : Source)

/-- `UnsupportedOperationException`. -/
def unsupported {α : Type} : Encoder α := throw .exception

def setBytes (index : ℕ) : Source → Encoder Unit
  | .buffer _ | .channel _ _ => unsupported
  | .array src => setBytesFromArray index src
  | .byteBuffer src => do let _ ← setBytesFromByteBuffer index src
  | .bufferOfLength src length => do let _ ← setBytesOfLength index src length
  | .stream src length => do let _ ← setBytesFromStream index src length
  | .bufferAt src srcIndex length => do let _ ← setBytesFromBufferAt index src srcIndex length
  | .arrayAt src srcIndex length => do let _ ← setBytesFromArrayAt index src srcIndex length

def write : Number → Encoder Unit
  | .byte value => writeByte value
  | .short value => writeShort value
  | .char value => writeChar value
  | .medium _ => unsupported
  | .int value => writeInt value
  | .long value => writeLong value
  | .float bits => writeFloat bits
  | .double bits => writeDouble bits

def writeBytes : Source → Encoder Unit
  | .buffer src => do let _ ← writeBytesFromBuffer src
  | .array src => writeBytesFromArray src
  | .byteBuffer src => do let _ ← writeBytesFromByteBuffer src
  | .bufferOfLength src length => do let _ ← writeBytesOfLength src length
  | .stream src length => do let _ ← writeBytesFromStream src length
  | .channel _ _ => unsupported
  | .bufferAt src srcIndex length => do let _ ← writeBytesFromBufferAt src srcIndex length
  | .arrayAt src srcIndex length => do let _ ← writeBytesFromArrayAt src srcIndex length

def run : Call → Encoder Unit
  | .setBytes index source => setBytes index source
  | .write number => write number
  | .writeZero length => writeZero length
  | .writeBytes source => writeBytes source

/-! ## The contract of the interface -/

namespace Number

def width : Number → ℕ
  | byte _ => 1
  | short _ | char _ => 2
  | medium _ => 3
  | int _ | float _ => 4
  | long _ | double _ => 8

def bits : Number → ℕ
  | byte value | short value | char value | medium value | int value => value.toUInt32.toNat
  | long value => value.toUInt64.toNat
  | float bits => bits.toNat
  | double bits => bits.toNat

/-- The last bytes of the number, most significant first. -/
def bytes (number : Number) : List UInt8 := bytesOf number.width number.bits

end Number

namespace Source

/-- How many bytes are asked for. -/
def length : Source → ℕ
  | buffer src => src.readableBytes
  | array src => src.length
  | byteBuffer src => src.remaining
  | bufferOfLength _ length | stream _ length | channel _ length => length
  | bufferAt _ _ length | arrayAt _ _ length => length

/-- The source has the bytes. A stream may end before. -/
def Has : Source → Prop
  | buffer _ | array _ | byteBuffer _ | stream _ _ | channel _ _ => True
  | bufferOfLength src length => length ≤ src.readableBytes
  | bufferAt src srcIndex length => srcIndex + length ≤ src.capacity
  | arrayAt src srcIndex length => srcIndex + length ≤ src.length

/-- The bytes that are asked for. -/
def bytes : Source → List UInt8
  | buffer src => src.readable
  | array src => src
  | byteBuffer src => src.bytes
  | bufferOfLength src length => src.readable.take length
  | stream src length => src.bytes.take length
  | channel src length => src.take length
  | bufferAt src srcIndex length => slice src.hb srcIndex length
  | arrayAt src srcIndex length => slice src srcIndex length

end Source

/-- The bytes are at the index, and all else is as it was. -/
structure Overwritten (outBuf : ByteBuffer) (index : ℕ) (bs : List UInt8) (outBuf' : ByteBuffer) : Prop where
  hb : outBuf'.hb = overwrite outBuf.hb index bs
  position : outBuf'.position = outBuf.position
  limit : outBuf'.limit = outBuf.limit

/-- The bytes are at the writer index, which has gone on by their number, and all else is as it was. -/
structure Appended (outBuf : ByteBuffer) (bs : List UInt8) (outBuf' : ByteBuffer) : Prop where
  hb : outBuf'.hb = overwrite outBuf.hb outBuf.position bs
  position : outBuf'.position = outBuf.position + bs.length
  limit : outBuf'.limit = outBuf.limit

/-- The buffer has room for the bytes, and the source has them. -/
def Within (outBuf : ByteBuffer) : Call → Prop
  | .setBytes index source => index + source.length ≤ outBuf.limit ∧ source.Has
  | .write number => number.width ≤ outBuf.remaining
  | .writeZero length => length ≤ outBuf.remaining
  | .writeBytes source => source.length ≤ outBuf.remaining ∧ source.Has

/-- What a call leaves. -/
def Contract (outBuf outBuf' : ByteBuffer) : Call → Prop
  | .setBytes index source => Overwritten outBuf index source.bytes outBuf'
  | .write number => Appended outBuf number.bytes outBuf'
  | .writeZero length => Appended outBuf (List.replicate length 0) outBuf'
  | .writeBytes source => Appended outBuf source.bytes outBuf'

/-- A call for which there is room does what the interface says. -/
def Follows (outBuf : ByteBuffer) (call : Call) : Prop :=
  Within outBuf call → ∃ outBuf', run call outBuf = .ok ((), outBuf') ∧ Contract outBuf outBuf' call

end SocketWriteByteChannelBuffer

end Torpedo
