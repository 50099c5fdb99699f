import Torpedo.Util.ByteBuffer

/-!
# The message stream of a connection

`OFMessageAsyncStream`: messages are read from a socket and written to it through two buffers of fixed
size. The classes of the messages are not part of the repository: how a message is read from a buffer
(`Reader`) and written to one are parameters. Loops have fuel, and a result tells when it has run out.
-/

namespace Torpedo

/-- `DEFAULT_BUFFER_SIZE`. -/
def defaultBufferSize : ℕ := 65536

/-! ## Reading -/

/-- `OFHeader`, with its fields as unsigned numbers. -/
structure OFHeader where
  version : ℕ
  type : ℕ
  length : ℕ
  xid : ℕ

namespace OFHeader

/-- `MINIMUM_LENGTH`. -/
def minimumLength : ℕ := 8

def readFrom (data : ByteBuffer) : Option (OFHeader × ByteBuffer) := do
  let (version, data) ← data.get 1
  let (type, data) ← data.get 1
  let (length, data) ← data.get 2
  let (xid, data) ← data.get 4
  return (⟨bigEndian version, bigEndian type, bigEndian length, bigEndian xid⟩, data)

end OFHeader

/-- `OFMessageReader.readFrom` on the readable bytes of a buffer: a message, `null`, or an exception. -/
abbrev Reader (M : Type) := List UInt8 → Option (Option M)

section Read

variable {M : Type} (reader : Reader M)

/-- The loop of `parseMessages`. -/
def parseLoop (limit : ℕ) : ℕ → ByteBuffer → List M → Except Stop (List M × ByteBuffer)
  | 0, _, _ => .error .outOfFuel
  | fuel + 1, data, results =>
    if limit = 0 ∨ results.length ≤ limit then
      if data.remaining < OFHeader.minimumLength then return (results, data)
      else do
        let (demux, data) ← orThrow (OFHeader.readFrom data.setMark)
        let data ← orThrow data.reset
        if data.remaining < demux.length then return (results, data)
        else
          let start := data.position
          let result := reader data.bytes
          -- the reader index is set whatever the reader has done
          let data ← orThrow (data.setPosition (start + demux.length))
          match result with
          | some (some msg) => parseLoop limit fuel data (results ++ [msg])
          | _ => .error .exception
    else return (results, data)

/-- `parseMessages`. A loop of more rounds than this never ends: each message has a byte at least. -/
def parseMessages (limit : ℕ) (data : ByteBuffer) : Except Stop (List M × ByteBuffer) :=
  parseLoop reader limit (data.capacity + limit + 2) data []

/-- `read`, when the bytes `arrived` are ready at the socket. The socket keeps those for which there is no
room in the buffer. -/
def read (limit : ℕ) (inBuf : ByteBuffer) (arrived : List UInt8) : Except Stop (List M × ByteBuffer) := do
  let inBuf ← orThrow (inBuf.put (arrived.take inBuf.remaining))
  let (l, inBuf) ← parseMessages reader limit inBuf.flip
  return (l, if 0 < inBuf.remaining then inBuf.compact else inBuf.clear)

end Read

/-! ## Writing -/

/-- The calls that write to a `SocketWriteByteChannelBuffer`. -/
inductive WriteCall
  | writeByte (value : UInt8)
  | writeShort (value : UInt16)
  | writeInt (value : UInt32)
  | writeLong (value : UInt64)
  | writeBytes (src : List UInt8)
  | writeZero (length : ℕ)

/-- The bytes that a call writes. -/
def WriteCall.bytes : WriteCall → List UInt8
  | .writeByte value => [value]
  | .writeShort value => shortBytes value.toNat
  | .writeInt value => shortBytes (value.toNat / 65536) ++ shortBytes value.toNat
  | .writeLong value => shortBytes (value.toNat / 65536 ^ 3) ++ shortBytes (value.toNat / 65536 ^ 2) ++
      shortBytes (value.toNat / 65536) ++ shortBytes value.toNat
  | .writeBytes src => src
  | .writeZero length => List.replicate length 0

/-- A call throws an `IndexOutOfBoundsException` and writes nothing if there is no room for its bytes. -/
def WriteCall.perform (call : WriteCall) (outBuf : ByteBuffer) : Option ByteBuffer :=
  if outBuf.remaining < call.bytes.length then none else outBuf.put call.bytes

/-- `setShort`. -/
def setShort (outBuf : ByteBuffer) (index value : ℕ) : Option ByteBuffer :=
  if outBuf.limit < index + 2 then none else outBuf.putAt index (shortBytes value)

/-- The stream on its way out: the buffer, the attempts to write to the socket so far and the bytes
sent. -/
structure OutStream where
  outBuf : ByteBuffer
  attempts : ℕ
  sent : List UInt8

namespace OutStream

/-- A new stream. -/
def start : OutStream := ⟨.allocate defaultBufferSize, 0, []⟩

/-- `SocketWriteByteChannelBuffer.write`, after its `flip`. The socket takes up to `accepts i` bytes at
the attempt `i`. -/
def send (accepts : ℕ → ℕ) : ℕ → OutStream → Except Stop OutStream
  | 0, _ => .error .outOfFuel
  | fuel + 1, s => do
    let (bytes, outBuf) ← orThrow (s.outBuf.get (min (accepts s.attempts) s.outBuf.remaining))
    let s : OutStream := ⟨outBuf, s.attempts + 1, s.sent ++ bytes⟩
    if 0 < s.outBuf.remaining then send accepts fuel s else return s

/-- `flush`. -/
def flush (accepts : ℕ → ℕ) (fuel : ℕ) (s : OutStream) : Except Stop OutStream := do
  let s ← send accepts fuel { s with outBuf := s.outBuf.flip }
  return { s with outBuf := s.outBuf.clear }

/-- The loop of `appendMessageToOutBuf`. `writeTo` tells what the message leaves in the buffer, and
whether it has thrown an `IndexOutOfBoundsException`. -/
def appendLoop (accepts : ℕ → ℕ) (writeTo : ByteBuffer → ByteBuffer × Bool) (writerIndex fuel : ℕ) :
    ℕ → OutStream → Except Stop OutStream
  | 0, _ => .error .outOfFuel
  | rounds + 1, s =>
    match writeTo s.outBuf with
    | (outBuf, false) => return { s with outBuf := outBuf }
    | (outBuf, true) => do
      let outBuf ← orThrow (outBuf.setPosition writerIndex)
      let s ← flush accepts fuel { s with outBuf := outBuf }
      appendLoop accepts writeTo writerIndex fuel rounds s

/-- `write`. -/
def write (accepts : ℕ → ℕ) (writeTo : ByteBuffer → ByteBuffer × Bool) (fuel : ℕ) (s : OutStream) :
    Except Stop OutStream :=
  appendLoop accepts writeTo s.outBuf.position fuel fuel s

end OutStream

end Torpedo
