import Mathlib.Data.List.Induction
import Torpedo.Stream.AsyncStream

/-!
# Reading messages

However the network splits a stream of messages, the calls of `read` return its messages one after the
other, and each leaves room in the buffer: what stays in it is less than a whole message, or the call
was to stop early and has taken a message out.
-/

namespace Torpedo

/-- The bytes of a message, with their number in the length field. -/
structure Frame where
  bytes : List UInt8
  minimumLength_le : OFHeader.minimumLength ≤ bytes.length
  length_le : bytes.length ≤ 65535
  length_eq : bigEndian ((bytes.drop 2).take 2) = bytes.length

/-- The bytes of a stream of messages. -/
def streamBytes (frames : List Frame) : List UInt8 := frames.flatMap Frame.bytes

/-- A connection that is read: its buffer, the bytes of the stream that are still to come out of the
socket, and the messages returned so far. -/
structure Session (M : Type) where
  inBuf : ByteBuffer
  arriving : List UInt8
  returned : List M

/-- A call of `read`: how many bytes are ready at the socket, and the limit. -/
structure ReadCall where
  ready : ℕ
  limit : ℕ

namespace Session

variable {M : Type}

def start (stream : List UInt8) : Session M := ⟨.allocate defaultBufferSize, stream, []⟩

def read (reader : Reader M) (s : Session M) (call : ReadCall) : Except Stop (Session M) := do
  let (l, inBuf) ← Torpedo.read reader call.limit s.inBuf (s.arriving.take call.ready)
  return ⟨inBuf, s.arriving.drop (min call.ready s.inBuf.remaining), s.returned ++ l⟩

def run (reader : Reader M) (s : Session M) (calls : List ReadCall) : Except Stop (Session M) :=
  calls.foldlM (read reader) s

end Session

/-! ## The header of a message -/

section Header

variable {data : ByteBuffer}

theorem OFHeader.readFrom_eq (h : OFHeader.minimumLength ≤ data.remaining) :
    ∃ demux data', OFHeader.readFrom data = some (demux, data') ∧
      demux.length = bigEndian ((data.bytes.drop 2).take 2) ∧
      data'.hb = data.hb ∧ data'.limit = data.limit ∧ data'.mark = data.mark := by
  have hlen := data.length_bytes
  unfold OFHeader.minimumLength at h
  obtain ⟨b₁, h₁, hb₁, hhb₁, hl₁, hm₁⟩ := ByteBuffer.get_eq (b := data) (n := 1) (by omega)
  have hlen₁ := b₁.length_bytes
  rw [hb₁, List.length_drop] at hlen₁
  obtain ⟨b₂, h₂, hb₂, hhb₂, hl₂, hm₂⟩ := ByteBuffer.get_eq (b := b₁) (n := 1) (by omega)
  have hlen₂ := b₂.length_bytes
  rw [hb₂, hb₁, List.length_drop, List.length_drop] at hlen₂
  obtain ⟨b₃, h₃, hb₃, hhb₃, hl₃, hm₃⟩ := ByteBuffer.get_eq (b := b₂) (n := 2) (by omega)
  have hlen₃ := b₃.length_bytes
  rw [hb₃, hb₂, hb₁, List.length_drop, List.length_drop, List.length_drop] at hlen₃
  obtain ⟨b₄, h₄, -, hhb₄, hl₄, hm₄⟩ := ByteBuffer.get_eq (b := b₃) (n := 4) (by omega)
  refine ⟨⟨bigEndian (data.bytes.take 1), bigEndian (b₁.bytes.take 1), bigEndian (b₂.bytes.take 2),
    bigEndian (b₃.bytes.take 4)⟩, b₄, ?_, ?_, ?_, ?_, ?_⟩
  · unfold OFHeader.readFrom
    simp only [h₁, h₂, h₃, h₄, Option.bind_eq_bind, Option.bind_some]
    rfl
  · show bigEndian (b₂.bytes.take 2) = _
    rw [hb₂, hb₁, List.drop_drop]
  · rw [hhb₄, hhb₃, hhb₂, hhb₁]
  · rw [hl₄, hl₃, hl₂, hl₁]
  · rw [hm₄, hm₃, hm₂, hm₁]

/-- Looking at the header leaves the buffer as it was. -/
theorem peek_eq (h : OFHeader.minimumLength ≤ data.remaining) :
    ∃ demux data' data'', OFHeader.readFrom data.setMark = some (demux, data') ∧
      data'.reset = some data'' ∧ demux.length = bigEndian ((data.bytes.drop 2).take 2) ∧
      data''.bytes = data.bytes ∧ data''.capacity = data.capacity := by
  obtain ⟨demux, data', hread, hlength, hhb, hlimit, hmark⟩ :=
    OFHeader.readFrom_eq (show OFHeader.minimumLength ≤ data.setMark.remaining from h)
  have hmark : data'.mark = some data.position := hmark
  have hle : data.position ≤ data'.limit := hlimit ▸ data.position_le
  refine ⟨demux, data', { data' with
    position := data.position
    mark := data'.mark.filter (· ≤ data.position)
    position_le := hle }, hread, ?_, hlength, ?_, ?_⟩
  · unfold ByteBuffer.reset
    rw [hmark, Option.bind_some, ByteBuffer.setPosition_eq hle, hmark]
  · unfold ByteBuffer.bytes ByteBuffer.remaining
    dsimp only
    rw [hhb, hlimit]
    rfl
  · exact congrArg List.length hhb

end Header

/-! ## The messages at the front of the buffer -/

section Loop

variable {M : Type} {reader : Reader M} {parse : Frame → M}

/-- The third-party reader reads a message from the bytes of its header length, whatever follows. -/
def Parses (reader : Reader M) (parse : Frame → M) : Prop :=
  ∀ (frame : Frame) (rest : List UInt8), reader (frame.bytes ++ rest) = some (some (parse frame))

/-- The bytes do not hold the first message. -/
def Incomplete (frames : List Frame) (bytes : List UInt8) : Prop :=
  ∀ frame rest, frames = frame :: rest → bytes.length < frame.bytes.length

theorem streamBytes_cons (frame : Frame) (frames : List Frame) :
    streamBytes (frame :: frames) = frame.bytes ++ streamBytes frames := List.flatMap_cons

theorem streamBytes_append (frames frames' : List Frame) :
    streamBytes (frames ++ frames') = streamBytes frames ++ streamBytes frames' := List.flatMap_append

/-- The header of the first message, seen in the buffer. -/
theorem length_of_header {frame : Frame} {bytes arriving stream : List UInt8}
    (h : bytes ++ arriving = frame.bytes ++ stream) (hlen : OFHeader.minimumLength ≤ bytes.length) :
    bigEndian ((bytes.drop 2).take 2) = frame.bytes.length := by
  have hmin := frame.minimumLength_le
  unfold OFHeader.minimumLength at hlen hmin
  have htake : bytes.take 4 = frame.bytes.take 4 := by
    have heq := congrArg (List.take 4) h
    rwa [List.take_append_of_le_length (by omega), List.take_append_of_le_length (by omega)] at heq
  have hfield : ∀ l : List UInt8, (l.drop 2).take 2 = (l.take 4).drop 2 := fun l => by
    rw [List.drop_take]
  rw [hfield, htake, ← hfield, frame.length_eq]

/-- A buffer with a whole message begins with it. -/
theorem append_of_length_le {frame : Frame} {bytes arriving stream : List UInt8}
    (h : bytes ++ arriving = frame.bytes ++ stream) (hle : frame.bytes.length ≤ bytes.length) :
    bytes = frame.bytes ++ bytes.drop frame.bytes.length ∧
      bytes.drop frame.bytes.length ++ arriving = stream := by
  have htake : bytes.take frame.bytes.length = frame.bytes := by
    have heq := congrArg (List.take frame.bytes.length) h
    rwa [List.take_append_of_le_length hle, List.take_left] at heq
  have hbytes : bytes = frame.bytes ++ bytes.drop frame.bytes.length := by
    conv_lhs => rw [← List.take_append_drop frame.bytes.length bytes, htake]
  refine ⟨hbytes, ?_⟩
  rw [hbytes, List.append_assoc] at h
  exact List.append_cancel_left h

/-- The loop returns whole messages, one after the other, until the next one is incomplete or the limit
is passed. -/
theorem parseLoop_frames (hr : Parses reader parse) (limit : ℕ) {arriving : List UInt8} {fuel : ℕ}
    {frames : List Frame} {data : ByteBuffer} (results : List M) (hfuel : data.bytes.length < fuel)
    (hdata : data.bytes ++ arriving = streamBytes frames) :
    ∃ done rest data', parseLoop reader limit fuel data results = .ok (results ++ done.map parse, data') ∧
      frames = done ++ rest ∧ data'.bytes ++ arriving = streamBytes rest ∧
      data'.capacity = data.capacity ∧
      (Incomplete rest data'.bytes ∨ limit ≠ 0 ∧ limit < results.length + done.length) := by
  induction fuel generalizing frames data results with
  | zero => omega
  | succ fuel ih =>
    unfold parseLoop
    by_cases hlimit : limit = 0 ∨ results.length ≤ limit
    · rw [if_pos hlimit]
      have hlen := data.length_bytes
      by_cases hshort : data.remaining < OFHeader.minimumLength
      · rw [if_pos hshort]
        refine ⟨[], frames, data, by simp [pure, Except.pure], rfl, hdata, rfl, .inl ?_⟩
        intro frame rest _
        have := frame.minimumLength_le
        omega
      · rw [if_neg hshort]
        have hmin : OFHeader.minimumLength ≤ data.bytes.length := by omega
        cases frames with
        | nil =>
          have hnil := (List.append_eq_nil_iff.1 hdata).1
          rw [hnil] at hmin
          exact absurd hmin (by decide)
        | cons frame frames =>
          rw [streamBytes_cons] at hdata
          obtain ⟨demux, data₁, data₂, hread, hreset, hlength, hbytes, hcap⟩ :=
            peek_eq (Nat.not_lt.1 hshort)
          rw [length_of_header hdata hmin] at hlength
          have hlen₂ := data₂.length_bytes
          rw [hbytes] at hlen₂
          simp only [hread, hreset, orThrow, bind, Except.bind]
          by_cases hpart : data₂.remaining < demux.length
          · rw [if_pos hpart]
            refine ⟨[], frame :: frames, data₂, by simp [pure, Except.pure], rfl, ?_, hcap, .inl ?_⟩
            · rw [hbytes, streamBytes_cons]
              exact hdata
            · rintro _ _ ⟨⟩
              rw [hbytes]
              omega
          · rw [if_neg hpart]
            obtain ⟨hfront, hback⟩ := append_of_length_le hdata (by omega)
            obtain ⟨data₃, hset, hbytes₃, hcap₃⟩ :=
              ByteBuffer.setPosition_add (b := data₂) (n := demux.length) (by omega)
            have hparse : reader data₂.bytes = some (some (parse frame)) := by
              rw [hbytes, hfront]
              exact hr frame _
            rw [hbytes, hlength] at hbytes₃
            have hless : data₃.bytes.length < fuel := by
              have := frame.minimumLength_le
              unfold OFHeader.minimumLength at this
              rw [hbytes₃, List.length_drop]
              omega
            obtain ⟨done, rest, data', hloop, hframes, hdata', hcap', hend⟩ :=
              ih (results ++ [parse frame]) hless (by rw [hbytes₃]; exact hback)
            refine ⟨frame :: done, rest, data', ?_, ?_, hdata', ?_, ?_⟩
            · simp only [hset, hparse]
              rw [hloop]
              simp
            · rw [hframes]
              rfl
            · rw [hcap', hcap₃, hcap]
            · refine hend.imp_right fun ⟨hne, hlt⟩ => ⟨hne, ?_⟩
              rw [List.length_append, List.length_singleton] at hlt
              rw [List.length_cons]
              omega
    · rw [if_neg hlimit]
      rw [not_or, Nat.not_le] at hlimit
      exact ⟨[], frames, data, by simp [pure, Except.pure], rfl, hdata, rfl, .inr hlimit⟩

end Loop

/-! ## Runs -/

namespace Session

variable {M : Type} {reader : Reader M} {parse : Frame → M} {frames : List Frame} {s : Session M}

/-- The session has returned the first messages of the stream, and the others are in the buffer and
behind it. The buffer has room. -/
structure Reads (parse : Frame → M) (frames : List Frame) (s : Session M) : Prop where
  capacity : s.inBuf.capacity = defaultBufferSize
  limit : s.inBuf.limit = s.inBuf.capacity
  room : 0 < s.inBuf.remaining
  split : ∃ done rest, frames = done ++ rest ∧ s.returned = done.map parse ∧
    s.inBuf.before ++ s.arriving = streamBytes rest

theorem reads_start (parse : Frame → M) (frames : List Frame) :
    (start (streamBytes frames) : Session M).Reads parse frames where
  capacity := ByteBuffer.capacity_allocate
  limit := ByteBuffer.capacity_allocate.symm
  room := Nat.zero_lt_succ _
  split := ⟨[], frames, rfl, rfl, rfl⟩

/-- The buffer after a call, ready to be written again. -/
theorem before_next (data : ByteBuffer) :
    (if 0 < data.remaining then data.compact else data.clear).before = data.bytes ∧
    (if 0 < data.remaining then data.compact else data.clear).capacity = data.capacity ∧
    (if 0 < data.remaining then data.compact else data.clear).limit = data.capacity ∧
    (if 0 < data.remaining then data.compact else data.clear).remaining =
      data.capacity - data.bytes.length := by
  rw [data.length_bytes]
  split_ifs with hremaining
  · exact ⟨ByteBuffer.before_compact, ByteBuffer.capacity_compact, rfl, rfl⟩
  · have hnil : data.bytes = [] := by
      rw [← List.length_eq_zero_iff, data.length_bytes]
      omega
    have hzero : data.remaining = 0 := by omega
    rw [hnil, hzero]
    exact ⟨rfl, rfl, rfl, rfl⟩

/-- What stays in the buffer leaves room. -/
theorem length_lt_of_end {done rest : List Frame} {arriving bytes bytes' : List UInt8} {limit : ℕ}
    (h : bytes ++ arriving = streamBytes (done ++ rest)) (h' : bytes' ++ arriving = streamBytes rest)
    (hle : bytes.length ≤ defaultBufferSize)
    (hend : Incomplete rest bytes' ∨ limit ≠ 0 ∧ limit < ([] : List M).length + done.length) :
    bytes'.length < defaultBufferSize := by
  unfold defaultBufferSize at *
  obtain hinc | ⟨-, hlt⟩ := hend
  · cases rest with
    | nil =>
      rw [(List.append_eq_nil_iff.1 h').1]
      decide
    | cons frame rest =>
      have := hinc frame rest rfl
      have := frame.length_le
      omega
  · cases done with
    | nil =>
      rw [List.length_nil, List.length_nil] at hlt
      omega
    | cons frame done =>
      rw [streamBytes_append, streamBytes_cons, ← h'] at h
      have hlen := congrArg List.length h
      simp only [List.length_append] at hlen
      have := frame.minimumLength_le
      unfold OFHeader.minimumLength at this
      omega

/-- A call returns the next messages, and all of them if it has no limit and the stream is at its
end. -/
theorem Reads.read (hs : s.Reads parse frames) (hr : Parses reader parse) (call : ReadCall) :
    ∃ s', s.read reader call = .ok s' ∧ s'.Reads parse frames ∧
      (call.limit = 0 → s'.arriving = [] → s'.returned = frames.map parse) := by
  obtain ⟨done, rest, hframes, hreturned, hstream⟩ := hs.split
  set taken := (s.arriving.take call.ready).take s.inBuf.remaining with htaken
  have hfit : taken.length ≤ s.inBuf.remaining := by
    rw [htaken, List.length_take]
    exact Nat.min_le_left ..
  have harriving : taken ++ s.arriving.drop (min call.ready s.inBuf.remaining) = s.arriving := by
    rw [htaken, List.take_take, Nat.min_comm, List.take_append_drop]
  obtain ⟨b, hput, hbefore, -, hcap⟩ := ByteBuffer.put_eq hfit
  have hfuel : b.flip.bytes.length < b.flip.capacity + call.limit + 2 := by
    have := b.length_before
    have := b.position_le
    have := b.limit_le
    show b.before.length < b.hb.length + call.limit + 2
    omega
  have hdata : b.flip.bytes ++ s.arriving.drop (min call.ready s.inBuf.remaining) = streamBytes rest := by
    rw [ByteBuffer.bytes_flip, hbefore, List.append_assoc, harriving]
    exact hstream
  obtain ⟨done', rest', data, hloop, hrest, hleft, hcap', hend⟩ :=
    parseLoop_frames hr call.limit [] hfuel hdata
  obtain ⟨hnext, hnextcap, hnextlimit, hnextroom⟩ := before_next data
  have hcapacity : data.capacity = defaultBufferSize := by
    rw [hcap', ByteBuffer.capacity_flip, hcap, hs.capacity]
  have hroom : data.bytes.length < defaultBufferSize := by
    refine length_lt_of_end (M := M) (by rw [hdata, hrest]) hleft ?_ hend
    have := b.flip.length_bytes
    have := b.flip.remaining_le
    rw [ByteBuffer.capacity_flip, hcap, hs.capacity] at this
    omega
  refine ⟨⟨if 0 < data.remaining then data.compact else data.clear,
    s.arriving.drop (min call.ready s.inBuf.remaining), s.returned ++ done'.map parse⟩, ?_, ?_, ?_⟩
  · unfold Session.read Torpedo.read parseMessages
    simp only [← htaken, hput, orThrow, bind, Except.bind, pure, Except.pure]
    rw [hloop]
    rfl
  · refine ⟨?_, ?_, ?_, done ++ done', rest', ?_, ?_, ?_⟩
    · exact hnextcap.trans hcapacity
    · exact hnextlimit.trans hnextcap.symm
    · show 0 < (if 0 < data.remaining then data.compact else data.clear).remaining
      omega
    · rw [hframes, hrest, List.append_assoc]
    · rw [hreturned, List.map_append]
    · show (if 0 < data.remaining then data.compact else data.clear).before ++ _ = _
      rw [hnext]
      exact hleft
  · intro hlimit hnone
    have hinc := hend.resolve_right fun h => h.1 hlimit
    have hnil : rest' = [] := by
      cases rest' with
      | nil => rfl
      | cons frame rest' =>
        -- the stream is at its end, so the message is in the buffer as a whole
        have hwhole := hinc frame rest' rfl
        have hnone : s.arriving.drop (min call.ready s.inBuf.remaining) = [] := hnone
        rw [hnone, List.append_nil, streamBytes_cons] at hleft
        rw [hleft, List.length_append] at hwhole
        omega
    show s.returned ++ done'.map parse = frames.map parse
    rw [hreturned, hframes, hrest, hnil, List.append_nil, List.map_append]

/-- **Reading.** For a stream of messages, however the network splits it into reads: the calls of `read`
return the messages of the stream in their order, with what is not returned yet still in the buffer or
to arrive, leave room in the buffer, and have returned all messages when a call without a limit has met
the end of the stream. -/
theorem run_reads (reader : Reader M) (parse : Frame → M) (hr : Parses reader parse)
    (frames : List Frame) (calls : List ReadCall) :
    ∃ s, run reader (start (streamBytes frames)) calls = .ok s ∧
      (∃ done rest, frames = done ++ rest ∧ s.returned = done.map parse ∧
        s.inBuf.before ++ s.arriving = streamBytes rest) ∧
      0 < s.inBuf.remaining ∧
      ∀ pre call, calls = pre ++ [call] → call.limit = 0 → s.arriving = [] →
        s.returned = frames.map parse := by
  have hrun : ∀ calls : List ReadCall, ∃ s, run reader (start (streamBytes frames)) calls = .ok s ∧
      s.Reads parse frames := by
    intro calls
    induction calls using List.reverseRecOn with
    | nil => exact ⟨_, rfl, reads_start parse frames⟩
    | append_singleton calls call ih =>
      obtain ⟨s, hs, hreads⟩ := ih
      obtain ⟨s', hs', hreads', -⟩ := hreads.read hr call
      refine ⟨s', ?_, hreads'⟩
      unfold run at hs ⊢
      rw [List.foldlM_append, hs]
      simp [bind, Except.bind, pure, Except.pure, hs']
  obtain ⟨s, hs, hreads⟩ := hrun calls
  refine ⟨s, hs, hreads.split, hreads.room, ?_⟩
  rintro pre call rfl hlimit hnone
  obtain ⟨s₀, hs₀, hreads₀⟩ := hrun pre
  obtain ⟨s', hs', -, hall⟩ := hreads₀.read hr call
  have hsame : s = s' := by
    unfold run at hs hs₀
    rw [List.foldlM_append, hs₀] at hs
    simp only [bind, Except.bind, List.foldlM_cons, List.foldlM_nil, hs', pure, Except.pure] at hs
    exact (Except.ok.inj hs).symm
  rw [hsame] at hnone ⊢
  exact hall hlimit hnone

/-- A reader that returns the bytes of a message. -/
def readBytes : Reader (List UInt8) := fun bytes =>
  some (some (bytes.take (bigEndian ((bytes.drop 2).take 2))))

theorem parses_readBytes : Parses readBytes Frame.bytes := by
  intro frame rest
  have hmin : OFHeader.minimumLength ≤ (frame.bytes ++ rest).length := by
    have := frame.minimumLength_le
    rw [List.length_append]
    omega
  unfold readBytes
  rw [length_of_header (List.append_nil _) hmin, List.take_left]

/-- A `HELLO`. -/
def helloFrame : Frame := ⟨[4, 0, 0, 8, 0, 0, 0, 1], by decide, by decide, by decide⟩

/-- An `ECHO_REQUEST` with two bytes of data. -/
def echoFrame : Frame := ⟨[4, 2, 0, 10, 0, 0, 0, 2, 7, 7], by decide, by decide, by decide⟩

/-- The first call meets a part of a header. -/
def helloCalls : List ReadCall := [⟨3, 0⟩, ⟨20, 0⟩]

theorem run_reads_hello :
    ∃ s, run readBytes (start (streamBytes [helloFrame, echoFrame])) helloCalls = .ok s ∧
      (∃ done rest, [helloFrame, echoFrame] = done ++ rest ∧ s.returned = done.map Frame.bytes ∧
        s.inBuf.before ++ s.arriving = streamBytes rest) ∧
      0 < s.inBuf.remaining ∧
      ∀ pre call, helloCalls = pre ++ [call] → call.limit = 0 → s.arriving = [] →
        s.returned = [helloFrame, echoFrame].map Frame.bytes :=
  run_reads readBytes Frame.bytes parses_readBytes [helloFrame, echoFrame] helloCalls

end Session

end Torpedo
