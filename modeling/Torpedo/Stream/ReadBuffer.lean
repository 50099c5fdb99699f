import Torpedo.Stream.ChannelBuffer

/-!
# The buffer that is read

`SocketReadByteChannelBuffer` gives the bytes that have come from a socket. They are those up to the limit of
its buffer, and the position is the reader index. Each operation is a decoder that reads from the buffer.
-/

namespace Torpedo

/-- The bytes are in a buffer of Java, whose capacity is an `int`. -/
structure SocketReadByteChannelBuffer where
  inBuf : ByteBuffer
  capacity_lt : inBuf.capacity < 2 ^ 31

namespace SocketReadByteChannelBuffer

open Decoder (getBytesAt getByteAt)

/-! ## Numbers at an index -/

/-- What the operations check first. -/
def checkIndex (index width : ℕ) : Decoder Unit := fun inBuf =>
  if (inBuf.capacity : ℤ) < intSum index width then .error .exception else .ok ((), inBuf)

/-- There is room for the bytes where they are copied to. -/
def checkRoom (needed room : ℕ) : Decoder Unit := fun inBuf =>
  if room < needed then .error .exception else .ok ((), inBuf)

/-- The bytes at an index, after the check. -/
def getAt (index width : ℕ) : Decoder (List UInt8) := do
  checkIndex index width
  getBytesAt index width

def getByte (index : ℕ) : Decoder Int8 := do return .ofNat (bigEndian (← getAt index 1))

def getShort (index : ℕ) : Decoder Int16 := do return .ofNat (bigEndian (← getAt index 2))

def getChar (index : ℕ) : Decoder UInt16 := do return .ofNat (bigEndian (← getAt index 2))

def getInt (index : ℕ) : Decoder Int32 := do return .ofNat (bigEndian (← getAt index 4))

def getLong (index : ℕ) : Decoder Int64 := do return .ofNat (bigEndian (← getAt index 8))

/-- The bits of the number. -/
def getFloat (index : ℕ) : Decoder UInt32 := do return .ofNat (bigEndian (← getAt index 4))

/-- The bits of the number. -/
def getDouble (index : ℕ) : Decoder UInt64 := do return .ofNat (bigEndian (← getAt index 8))

def getUnsignedByte (index : ℕ) : Decoder Int16 := do return (0x00ff &&& (← getByte index).toInt32).toInt16

def getUnsignedShort (index : ℕ) : Decoder Int32 := do return 0x0000ffff &&& (← getShort index).toInt32

/-- The mask is an `int`, and so is what is masked. -/
def getUnsignedInt (index : ℕ) : Decoder Int64 := do return (0x00000000ffffffff &&& (← getInt index)).toInt64

/-! ## Numbers at the reader index -/

def readByte : Decoder Int8 := do return .ofNat (bigEndian (← Decoder.getBytes 1))

def readShort : Decoder Int16 := do return .ofNat (bigEndian (← Decoder.getBytes 2))

def readChar : Decoder UInt16 := do return .ofNat (bigEndian (← Decoder.getBytes 2))

def readInt : Decoder Int32 := do return .ofNat (bigEndian (← Decoder.getBytes 4))

def readLong : Decoder Int64 := do return .ofNat (bigEndian (← Decoder.getBytes 8))

/-- The bits of the number. -/
def readFloat : Decoder UInt32 := do return .ofNat (bigEndian (← Decoder.getBytes 4))

/-- The bits of the number. -/
def readDouble : Decoder UInt64 := do return .ofNat (bigEndian (← Decoder.getBytes 8))

def readUnsignedByte : Decoder Int16 := do return (0x00ff &&& (← readByte).toInt32).toInt16

def readUnsignedShort : Decoder Int32 := do return 0x0000ffff &&& (← readShort).toInt32

def readUnsignedInt : Decoder Int64 := do return (0x00000000ffffffff &&& (← readInt)).toInt64

/-! ## Bytes at an index -/

/-- `getBytes` to a buffer until it is full. -/
def getBytesToBuffer (index : ℕ) (dst : ChannelBuffer) : Decoder ChannelBuffer := do
  checkIndex index dst.writableBytes
  ChannelBuffer.sink.copy getByteAt ((← get).limit - index) index dst

/-- `getBytes` to a buffer of Java until its limit. -/
def getBytesToByteBuffer (index : ℕ) (dst : ByteBuffer) : Decoder ByteBuffer := do
  checkIndex index dst.remaining
  ByteBuffer.sink.copy getByteAt ((← get).limit - index) index dst

/-- How far the bound of the loops with a length is from the index. -/
def reach (inBuf : ByteBuffer) (index length : ℕ) : ℕ :=
  min (intSum inBuf.position length).toNat inBuf.limit - index

/-- `getBytes` to a buffer, with a length. -/
def getBytesOfLength (index : ℕ) (dst : ChannelBuffer) (length : ℕ) : Decoder ChannelBuffer := do
  checkIndex index length
  checkRoom length dst.writableBytes
  ChannelBuffer.sink.copy getByteAt (reach (← get) index length) index dst

/-- The loop of `getBytes` to a stream, of which the bytes written are known. -/
def copyToStream : ℕ → ℕ → List UInt8 → Decoder (List UInt8)
  | 0, _, dst => return dst
  | n + 1, index, dst => do
    let x ← getByteAt index
    copyToStream n (index + 1) (dst ++ [x])

/-- `getBytes` to a stream. -/
def getBytesToStream (index : ℕ) (dst : List UInt8) (length : ℕ) : Decoder (List UInt8) := do
  checkIndex index length
  copyToStream (reach (← get) index length) index dst

/-- `getBytes` to an index of a buffer. -/
def getBytesToBufferAt (index : ℕ) (dst : ChannelBuffer) (dstIndex length : ℕ) : Decoder ChannelBuffer := do
  let backup := dst.writerIndex
  let dst ← (orThrow (dst.setWriterIndex dstIndex) : Except Stop ChannelBuffer)
  let dst ← getBytesOfLength index dst length
  (orThrow (dst.setWriterIndex backup) : Except Stop ChannelBuffer)

/-- The loop of `getBytes` to an array. The index of the byte that is read stays. -/
def fill (index : ℕ) : ℕ → ℕ → List UInt8 → Decoder (List UInt8)
  | 0, _, dst => return dst
  | n + 1, current, dst => do
    if (← get).limit ≤ index then return dst
    else
      let x ← getByteAt index
      fill index n (current + 1) (dst.set current x)

/-- `getBytes` to an index of an array. -/
def getBytesToArrayAt (index : ℕ) (dst : List UInt8) (dstIndex length : ℕ) : Decoder (List UInt8) := do
  checkIndex index length
  checkRoom (dstIndex + length) dst.length
  fill index (min length dst.length) dstIndex dst

/-- `getBytes` to an array. -/
def getBytesToArray (index : ℕ) (dst : List UInt8) : Decoder (List UInt8) :=
  getBytesToArrayAt index dst 0 dst.length

/-! ## Bytes at the reader index -/

/-- `readBytes` to an index of an array. -/
def readBytesToArrayAt (dst : List UInt8) (dstIndex length : ℕ) : Decoder (List UInt8) := do
  checkRoom (dstIndex + length) dst.length
  return overwrite dst dstIndex (← Decoder.getBytes length)

/-- `readBytes` to an array. -/
def readBytesToArray (dst : List UInt8) : Decoder (List UInt8) := readBytesToArrayAt dst 0 dst.length

/-! ## Calls -/

/-- What a number is read as. -/
inductive Kind
  | byte | unsignedByte | short | unsignedShort | char | medium | unsignedMedium | int | unsignedInt | long
  | float | double
deriving DecidableEq, Repr

namespace Kind

def width : Kind → ℕ
  | byte | unsignedByte => 1
  | short | unsignedShort | char => 2
  | medium | unsignedMedium => 3
  | int | unsignedInt | float => 4
  | long | double => 8

/-- Floating-point numbers stand for their bits. -/
def Signed : Kind → Prop
  | byte | short | medium | int | long => True
  | unsignedByte | unsignedShort | char | unsignedMedium | unsignedInt | float | double => False

instance : DecidablePred Signed := fun kind => by cases kind <;> unfold Signed <;> infer_instance

/-- The number that the bytes stand for. -/
def value (kind : Kind) (bs : List UInt8) : ℤ :=
  if kind.Signed then (bigEndian bs : ℤ).bmod (256 ^ kind.width) else bigEndian bs

end Kind

/-- Where bytes are copied to. -/
inductive Target
  | buffer (dst : ChannelBuffer)
  | array (dst : List UInt8)
  | byteBuffer (dst : ByteBuffer)
  | bufferOfLength (dst : ChannelBuffer) (length : ℕ)
  | stream (dst : List UInt8) (length : ℕ)
  | channel (dst : List UInt8) (length : ℕ)
  | bufferAt (dst : ChannelBuffer) (dstIndex length : ℕ)
  | arrayAt (dst : List UInt8) (dstIndex length : ℕ)

/-- The operations of the interface that get or read something. `readNew` stands for `readBytes` and `readSlice`
of a length, and `readFound` for those with a finder. -/
inductive Call
  | get (kind : Kind) (index : ℕ)
  | read (kind : Kind)
  | getBytes (index : ℕ) (target : Target)
  | readBytes (target : Target)
  | readNew (length : ℕ)
  | readFound

/-- What a call gives: a number, or what bytes have been copied to. -/
inductive Answer
  | number (n : ℤ)
  | buffer (dst : ChannelBuffer)
  | bytes (dst : List UInt8)
  | byteBuffer (dst : ByteBuffer)

/-- `UnsupportedOperationException`. -/
def unsupported {α : Type} : Decoder α := throw .exception

def get (index : ℕ) : Kind → Decoder ℤ
  | .byte => do return (← getByte index).toInt
  | .unsignedByte => do return (← getUnsignedByte index).toInt
  | .short => do return (← getShort index).toInt
  | .unsignedShort => do return (← getUnsignedShort index).toInt
  | .char => do return (← getChar index).toNat
  | .medium | .unsignedMedium => unsupported
  | .int => do return (← getInt index).toInt
  | .unsignedInt => do return (← getUnsignedInt index).toInt
  | .long => do return (← getLong index).toInt
  | .float => do return (← getFloat index).toNat
  | .double => do return (← getDouble index).toNat

def read : Kind → Decoder ℤ
  | .byte => do return (← readByte).toInt
  | .unsignedByte => do return (← readUnsignedByte).toInt
  | .short => do return (← readShort).toInt
  | .unsignedShort => do return (← readUnsignedShort).toInt
  | .char => do return (← readChar).toNat
  | .medium | .unsignedMedium => unsupported
  | .int => do return (← readInt).toInt
  | .unsignedInt => do return (← readUnsignedInt).toInt
  | .long => do return (← readLong).toInt
  | .float => do return (← readFloat).toNat
  | .double => do return (← readDouble).toNat

def getBytes (index : ℕ) : Target → Decoder Answer
  | .buffer dst => do return .buffer (← getBytesToBuffer index dst)
  | .array dst => do return .bytes (← getBytesToArray index dst)
  | .byteBuffer dst => do return .byteBuffer (← getBytesToByteBuffer index dst)
  | .bufferOfLength dst length => do return .buffer (← getBytesOfLength index dst length)
  | .stream dst length => do return .bytes (← getBytesToStream index dst length)
  | .channel _ _ => unsupported
  | .bufferAt dst dstIndex length => do return .buffer (← getBytesToBufferAt index dst dstIndex length)
  | .arrayAt dst dstIndex length => do return .bytes (← getBytesToArrayAt index dst dstIndex length)

def readBytes : Target → Decoder Answer
  | .array dst => do return .bytes (← readBytesToArray dst)
  | .arrayAt dst dstIndex length => do return .bytes (← readBytesToArrayAt dst dstIndex length)
  | _ => unsupported

def run : Call → Decoder Answer
  | .get kind index => do return .number (← get index kind)
  | .read kind => do return .number (← read kind)
  | .getBytes index target => getBytes index target
  | .readBytes target => readBytes target
  | .readNew _ | .readFound => unsupported

/-! ## The contract of the interface -/

namespace Target

/-- How many bytes are asked for. -/
def length : Target → ℕ
  | buffer dst => dst.writableBytes
  | array dst => dst.length
  | byteBuffer dst => dst.remaining
  | bufferOfLength _ length | stream _ length | channel _ length => length
  | bufferAt _ _ length | arrayAt _ _ length => length

/-- There is room for the bytes. -/
def Fits : Target → Prop
  | buffer _ | array _ | byteBuffer _ | stream _ _ | channel _ _ => True
  | bufferOfLength dst length => length ≤ dst.writableBytes
  | bufferAt dst dstIndex length => dstIndex + length ≤ dst.capacity
  | arrayAt dst dstIndex length => dstIndex + length ≤ dst.length

/-- The bytes have been copied, and nothing else has changed. -/
def Copied (bs : List UInt8) : Target → Answer → Prop
  | buffer dst, answer | bufferOfLength dst _, answer =>
    ∃ dst', dst.writeBytes bs = some dst' ∧ answer = .buffer dst'
  | array _, answer => answer = .bytes bs
  | byteBuffer dst, answer => ∃ dst', dst.put bs = some dst' ∧ answer = .byteBuffer dst'
  | stream dst _, answer | channel dst _, answer => answer = .bytes (dst ++ bs)
  | bufferAt dst dstIndex _, answer => ∃ dst', dst'.hb = overwrite dst.hb dstIndex bs ∧
      dst'.readerIndex = dst.readerIndex ∧ dst'.writerIndex = dst.writerIndex ∧ answer = .buffer dst'
  | arrayAt dst dstIndex _, answer => answer = .bytes (overwrite dst dstIndex bs)

end Target

/-- The reader index has gone on. -/
structure Advanced (inBuf : ByteBuffer) (n : ℕ) (inBuf' : ByteBuffer) : Prop where
  hb : inBuf'.hb = inBuf.hb
  position : inBuf'.position = inBuf.position + n
  limit : inBuf'.limit = inBuf.limit

/-- The number that the bytes stand for, which is negative for none of the kinds without a sign. -/
def IsNumber (kind : Kind) (bs : List UInt8) (answer : Answer) : Prop :=
  ∃ n, answer = .number n ∧ n = kind.value bs ∧ (¬kind.Signed → 0 ≤ n)

/-- The index and the length are within the bytes of the buffer, and the target has room. -/
def Within (inBuf : ByteBuffer) : Call → Prop
  | .get kind index => index + kind.width ≤ inBuf.limit
  | .read kind => kind.width ≤ inBuf.remaining
  | .getBytes index target => index + target.length ≤ inBuf.limit ∧ target.Fits
  | .readBytes target => target.length ≤ inBuf.remaining ∧ target.Fits
  | .readNew length => length ≤ inBuf.remaining
  | .readFound => True

/-- What a call gives and leaves. Of what a finder finds nothing is said. -/
def Contract (inBuf : ByteBuffer) (answer : Answer) (inBuf' : ByteBuffer) : Call → Prop
  | .get kind index => IsNumber kind (slice inBuf.hb index kind.width) answer ∧ inBuf' = inBuf
  | .read kind => IsNumber kind (slice inBuf.hb inBuf.position kind.width) answer ∧
      Advanced inBuf kind.width inBuf'
  | .getBytes index target => target.Copied (slice inBuf.hb index target.length) answer ∧ inBuf' = inBuf
  | .readBytes target => target.Copied (slice inBuf.hb inBuf.position target.length) answer ∧
      Advanced inBuf target.length inBuf'
  | .readNew length => answer = .bytes (slice inBuf.hb inBuf.position length) ∧ Advanced inBuf length inBuf'
  | .readFound => True

/-- A call within the bytes does what the interface says. -/
def Follows (inBuf : ByteBuffer) (call : Call) : Prop :=
  Within inBuf call → ∃ answer inBuf', run call inBuf = .ok (answer, inBuf') ∧ Contract inBuf answer inBuf' call

end SocketReadByteChannelBuffer

end Torpedo
