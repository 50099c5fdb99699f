import Torpedo.Stream.AsyncStream

/-!
# Writing messages

However the socket takes its bytes, the bytes sent and then the bytes in the buffer are the encodings of
the messages written, in their order. A message for which there is no room is half in the buffer when
the exception comes: the half is taken back, what is before it is sent, and then the message has room.
-/

namespace Torpedo

/-! ## A message that writes itself -/

/-- The calls one after the other, up to one that throws. -/
def writeCalls : List WriteCall → ByteBuffer → ByteBuffer × Bool
  | [], outBuf => (outBuf, false)
  | call :: calls, outBuf =>
    match call.perform outBuf with
    | some outBuf => writeCalls calls outBuf
    | none => (outBuf, true)

/-- What the calls of a message write. -/
def written (calls : List WriteCall) : List UInt8 := calls.flatMap WriteCall.bytes

/-- A message makes its calls, and then sets its length field to the number of bytes that they wrote. -/
def emit (calls : List WriteCall) (outBuf : ByteBuffer) : ByteBuffer × Bool :=
  match writeCalls calls outBuf with
  | (outBuf', true) => (outBuf', true)
  | (outBuf', false) =>
    match setShort outBuf' (outBuf.position + 2) (outBuf'.position - outBuf.position) with
    | some outBuf' => (outBuf', false)
    | none => (outBuf', true)

/-- The encoding of a message. -/
def encode (calls : List WriteCall) : List UInt8 :=
  (written calls).take 2 ++ shortBytes (written calls).length ++ (written calls).drop 4

section Emit

variable {call : WriteCall} {calls : List WriteCall} {b : ByteBuffer}

theorem WriteCall.perform_eq (h : call.bytes.length ≤ b.remaining) :
    ∃ b', call.perform b = some b' ∧ b'.before = b.before ++ call.bytes ∧ b'.limit = b.limit ∧
      b'.capacity = b.capacity := by
  unfold WriteCall.perform
  rw [if_neg (Nat.not_lt.2 h)]
  exact ByteBuffer.put_eq h

/-- The room that is left. -/
theorem remaining_of_before {b' : ByteBuffer} {bs : List UInt8} (h : b'.before = b.before ++ bs)
    (hlimit : b'.limit = b.limit) : b'.remaining = b.remaining - bs.length := by
  have hlen := congrArg List.length h
  rw [List.length_append, b.length_before, b'.length_before] at hlen
  unfold ByteBuffer.remaining
  omega

/-- With room for their bytes, the calls write them. -/
theorem writeCalls_fit (h : (written calls).length ≤ b.remaining) :
    ∃ b', writeCalls calls b = (b', false) ∧ b'.before = b.before ++ written calls ∧
      b'.limit = b.limit ∧ b'.capacity = b.capacity := by
  induction calls generalizing b with
  | nil => exact ⟨b, rfl, (List.append_nil _).symm, rfl, rfl⟩
  | cons call calls ih =>
    have hcons : written (call :: calls) = call.bytes ++ written calls := List.flatMap_cons
    rw [hcons, List.length_append] at h
    obtain ⟨b₁, hcall, hbefore, hlimit, hcap⟩ :=
      WriteCall.perform_eq (show call.bytes.length ≤ b.remaining by omega)
    have hroom := remaining_of_before hbefore hlimit
    obtain ⟨b', hcalls, hbefore', hlimit', hcap'⟩ := ih (b := b₁) (by omega)
    refine ⟨b', ?_, ?_, hlimit'.trans hlimit, hcap'.trans hcap⟩
    · unfold writeCalls
      rw [hcall]
      exact hcalls
    · rw [hbefore', hbefore, hcons, List.append_assoc]

/-- Without room for their bytes, one of the calls throws. Some bytes may be written by then. -/
theorem writeCalls_overflow (h : b.remaining < (written calls).length) :
    ∃ b' bs, writeCalls calls b = (b', true) ∧ b'.before = b.before ++ bs ∧
      b'.limit = b.limit ∧ b'.capacity = b.capacity := by
  induction calls generalizing b with
  | nil => exact absurd h (Nat.not_lt_zero _)
  | cons call calls ih =>
    have hcons : written (call :: calls) = call.bytes ++ written calls := List.flatMap_cons
    rw [hcons, List.length_append] at h
    by_cases hcall : b.remaining < call.bytes.length
    · refine ⟨b, [], ?_, (List.append_nil _).symm, rfl, rfl⟩
      unfold writeCalls WriteCall.perform
      rw [if_pos hcall]
    · obtain ⟨b₁, hperform, hbefore, hlimit, hcap⟩ := WriteCall.perform_eq (Nat.not_lt.1 hcall)
      have hroom := remaining_of_before hbefore hlimit
      obtain ⟨b', bs, hcalls, hbefore', hlimit', hcap'⟩ := ih (b := b₁) (by omega)
      refine ⟨b', call.bytes ++ bs, ?_, ?_, hlimit'.trans hlimit, hcap'.trans hcap⟩
      · unfold writeCalls
        rw [hperform]
        exact hcalls
      · rw [hbefore', hbefore, List.append_assoc]

/-- A message with room for it appends its encoding. -/
theorem emit_fit (hmin : 4 ≤ (written calls).length) (h : (written calls).length ≤ b.remaining) :
    ∃ b', emit calls b = (b', false) ∧ b'.before = b.before ++ encode calls ∧
      b'.limit = b.limit ∧ b'.capacity = b.capacity := by
  obtain ⟨b₁, hcalls, hbefore, hlimit, hcap⟩ := writeCalls_fit h
  have hlen := congrArg List.length hbefore
  rw [List.length_append, b.length_before, b₁.length_before] at hlen
  have hlength : b₁.position - b.position = (written calls).length := by omega
  have hshort : ∀ n, (shortBytes n).length = 2 := fun _ => rfl
  have hfield : b.position + 2 + (shortBytes (written calls).length).length ≤ b₁.position := by
    rw [hshort]
    omega
  obtain ⟨b', hput, hbefore', hlimit', hcap'⟩ := ByteBuffer.putAt_eq hfield
  refine ⟨b', ?_, ?_, hlimit'.trans hlimit, hcap'.trans hcap⟩
  · have := b₁.position_le
    unfold emit setShort
    rw [hcalls]
    dsimp only
    rw [if_neg (by omega), hlength, hput]
  · have hpos := b.length_before
    rw [hbefore', hbefore, hshort, ← hpos, List.take_length_add_append, Nat.add_assoc,
      List.drop_length_add_append]
    unfold encode
    simp only [List.append_assoc]

/-- A message without room for it throws. -/
theorem emit_overflow (h : b.remaining < (written calls).length) :
    ∃ b' bs, emit calls b = (b', true) ∧ b'.before = b.before ++ bs ∧
      b'.limit = b.limit ∧ b'.capacity = b.capacity := by
  obtain ⟨b', bs, hcalls, hrest⟩ := writeCalls_overflow h
  refine ⟨b', bs, ?_, hrest⟩
  unfold emit
  rw [hcalls]

theorem length_encode (hmin : 4 ≤ (written calls).length) :
    (encode calls).length = (written calls).length := by
  unfold encode shortBytes
  simp only [List.length_append, List.length_take, List.length_cons, List.length_nil, List.length_drop]
  omega

end Emit

/-! ## Sending the buffer -/

/-- The socket never takes nothing for ever. -/
def Accepting (accepts : ℕ → ℕ) : Prop := ∀ i, ∃ j, i ≤ j ∧ 0 < accepts j

namespace OutStream

variable {accepts : ℕ → ℕ} {s : OutStream}

/-- The bytes that the socket takes are sent. The buffer keeps the others. -/
theorem send_succ (accepts : ℕ → ℕ) (s : OutStream) :
    ∃ s' : OutStream, (∀ fuel, send accepts (fuel + 1) s =
        if 0 < s'.outBuf.remaining then send accepts fuel s' else .ok s') ∧
      s'.attempts = s.attempts + 1 ∧ s'.sent ++ s'.outBuf.bytes = s.sent ++ s.outBuf.bytes ∧
      s'.outBuf.remaining = s.outBuf.remaining - accepts s.attempts ∧
      s'.outBuf.capacity = s.outBuf.capacity := by
  set n := min (accepts s.attempts) s.outBuf.remaining with hn
  obtain ⟨b, hget, hbytes, hhb, -⟩ := ByteBuffer.get_eq (show n ≤ s.outBuf.remaining from Nat.min_le_right ..)
  refine ⟨⟨b, s.attempts + 1, s.sent ++ s.outBuf.bytes.take n⟩, ?_, rfl, ?_, ?_, congrArg List.length hhb⟩
  · intro fuel
    show orThrow (s.outBuf.get n) >>= _ = _
    rw [hget]
    rfl
  · show s.sent ++ s.outBuf.bytes.take n ++ b.bytes = _
    rw [hbytes, List.append_assoc, List.take_append_drop]
  · have hlen := congrArg List.length hbytes
    rw [b.length_bytes, List.length_drop, s.outBuf.length_bytes] at hlen
    show b.remaining = _
    omega

/-- The loop ends, and the bytes of the buffer are sent. -/
def Sends (accepts : ℕ → ℕ) (s : OutStream) : Prop :=
  ∃ s' F, (∀ fuel, F ≤ fuel → send accepts fuel s = .ok s') ∧ s'.sent = s.sent ++ s.outBuf.bytes ∧
    s'.outBuf.capacity = s.outBuf.capacity

/-- One attempt, and then the others. -/
theorem Sends.of_succ
    (h : ∀ s', s'.attempts = s.attempts + 1 →
      s'.outBuf.remaining = s.outBuf.remaining - accepts s.attempts →
      0 < s'.outBuf.remaining → Sends accepts s') :
    Sends accepts s := by
  obtain ⟨s₁, hsend, hattempts, hbytes, hroom, hcap⟩ := send_succ accepts s
  by_cases hdone : 0 < s₁.outBuf.remaining
  · obtain ⟨s', F, hs', hsent, hcap'⟩ := h s₁ hattempts hroom hdone
    refine ⟨s', F + 1, ?_, hsent.trans hbytes, hcap'.trans hcap⟩
    intro fuel hfuel
    obtain ⟨d, rfl⟩ := Nat.exists_eq_add_of_le' hfuel
    rw [← Nat.add_assoc, hsend, if_pos hdone]
    apply hs'
    omega
  · have hnil : s₁.outBuf.bytes = [] := by
      rw [← List.length_eq_zero_iff, ByteBuffer.length_bytes]
      omega
    refine ⟨s₁, 1, ?_, ?_, hcap⟩
    · intro fuel hfuel
      obtain ⟨d, rfl⟩ := Nat.exists_eq_add_of_le' hfuel
      rw [hsend, if_neg hdone]
    · rw [← hbytes, hnil, List.append_nil]

/-- The induction is on the bytes in the buffer, and for one number of them on the attempts up to the
next at which the socket takes some. -/
theorem sends (ha : Accepting accepts) (s : OutStream) : Sends accepts s := by
  induction hremaining : s.outBuf.remaining using Nat.strong_induction_on generalizing s with
  | _ n ih =>
    obtain ⟨j, hj, hpos⟩ := ha s.attempts
    obtain ⟨d, rfl⟩ := Nat.exists_eq_add_of_le hj
    induction d generalizing s with
    | zero =>
      rw [Nat.add_zero] at hpos
      apply Sends.of_succ
      intro s' _ hroom _
      exact ih s'.outBuf.remaining (by omega) s' rfl
    | succ d ihd =>
      apply Sends.of_succ
      intro s' hattempts hroom _
      by_cases hnone : accepts s.attempts = 0
      · apply ihd s' (by omega) (by omega)
        rw [hattempts, show s.attempts + 1 + d = s.attempts + (d + 1) by omega]
        exact hpos
      · exact ih s'.outBuf.remaining (by omega) s' rfl

/-! ## Calls of the stream -/

/-- The stream has taken these bytes: they are sent or in the buffer. -/
structure Took (bytes : List UInt8) (s : OutStream) : Prop where
  capacity : s.outBuf.capacity = defaultBufferSize
  limit : s.outBuf.limit = s.outBuf.capacity
  split : s.sent ++ s.outBuf.before = bytes

theorem took_start : start.Took [] where
  capacity := ByteBuffer.capacity_allocate
  limit := ByteBuffer.capacity_allocate.symm
  split := rfl

/-- A flush sends the buffer, and leaves it empty. -/
theorem Took.flush {bytes : List UInt8} (ha : Accepting accepts) (hs : s.Took bytes) :
    ∃ s' F, (∀ fuel, F ≤ fuel → flush accepts fuel s = .ok s') ∧ s'.Took bytes ∧
      s'.outBuf.before = [] := by
  obtain ⟨s', F, hsend, hsent, hcap⟩ := sends ha { s with outBuf := s.outBuf.flip }
  refine ⟨{ s' with outBuf := s'.outBuf.clear }, F, ?_, ⟨hcap.trans hs.capacity, rfl, ?_⟩, rfl⟩
  · intro fuel hfuel
    unfold OutStream.flush
    rw [hsend fuel hfuel]
    rfl
  · show s'.sent ++ [] = bytes
    rw [hsent, List.append_nil]
    exact hs.split

variable {M : Type} {writeTo : M → ByteBuffer → ByteBuffer × Bool} {calls : M → List WriteCall}

/-- The third-party messages emit their encodings through the calls of the buffer, and their length
fields are within these. -/
structure Emits (writeTo : M → ByteBuffer → ByteBuffer × Bool) (calls : M → List WriteCall) : Prop where
  writeTo_eq : ∀ m b, writeTo m b = emit (calls m) b
  field_le : ∀ m, 4 ≤ (written (calls m)).length

/-- A round with room for the message ends the loop. -/
theorem Took.appendLoop_fit {bytes : List UInt8} {m : M} (hw : Emits writeTo calls) (hs : s.Took bytes)
    (h : (written (calls m)).length ≤ s.outBuf.remaining) (accepts : ℕ → ℕ) (writerIndex : ℕ) :
    ∃ s', (∀ fuel rounds, appendLoop accepts (writeTo m) writerIndex fuel (rounds + 1) s = .ok s') ∧
      s'.Took (bytes ++ encode (calls m)) := by
  obtain ⟨b, hemit, hbefore, hlimit, hcap⟩ := emit_fit (hw.field_le m) h
  refine ⟨{ s with outBuf := b }, ?_, hcap.trans hs.capacity, ?_, ?_⟩
  · intro fuel rounds
    unfold appendLoop
    rw [hw.writeTo_eq, hemit]
    rfl
  · exact hlimit.trans (hs.limit.trans hcap.symm)
  · show s.sent ++ b.before = _
    rw [hbefore, ← List.append_assoc, hs.split]

/-- A write takes the encoding of its message, at once or after a flush. -/
theorem Took.write {bytes : List UInt8} {m : M} (ha : Accepting accepts) (hw : Emits writeTo calls)
    (hs : s.Took bytes) (hm : (encode (calls m)).length ≤ 65535) :
    ∃ s' F, (∀ fuel, F ≤ fuel → write accepts (writeTo m) fuel s = .ok s') ∧
      s'.Took (bytes ++ encode (calls m)) := by
  by_cases h : (written (calls m)).length ≤ s.outBuf.remaining
  · obtain ⟨s', hloop, hs'⟩ := hs.appendLoop_fit hw h accepts s.outBuf.position
    refine ⟨s', 1, ?_, hs'⟩
    intro fuel hfuel
    obtain ⟨d, rfl⟩ := Nat.exists_eq_add_of_le' hfuel
    exact hloop (d + 1) d
  · -- the bytes that the message has left are taken back before the flush
    obtain ⟨b₁, bs, hemit, hbefore₁, hlimit₁, hcap₁⟩ := emit_overflow (Nat.not_le.1 h)
    have hpos := congrArg List.length hbefore₁
    rw [List.length_append, b₁.length_before, s.outBuf.length_before] at hpos
    obtain ⟨b₂, hback, hbefore₂, hlimit₂, hcap₂⟩ :=
      ByteBuffer.setPosition_le (b := b₁) (n := s.outBuf.position) (by omega)
    have htook : Took bytes { s with outBuf := b₂ } := by
      refine ⟨hcap₂.trans (hcap₁.trans hs.capacity), ?_, ?_⟩
      · show b₂.limit = b₂.capacity
        rw [hlimit₂, hlimit₁, hs.limit, hcap₂, hcap₁]
      · show s.sent ++ b₂.before = bytes
        rw [hbefore₂, hbefore₁, ← s.outBuf.length_before, List.take_left]
        exact hs.split
    obtain ⟨s₃, F, hflush, hs₃, hempty⟩ := htook.flush ha
    have hroom : s₃.outBuf.remaining = defaultBufferSize := by
      have hlen := s₃.outBuf.length_before
      rw [hempty, List.length_nil] at hlen
      unfold ByteBuffer.remaining
      rw [hs₃.limit, hs₃.capacity, ← hlen]
      rfl
    have hfit : (written (calls m)).length ≤ s₃.outBuf.remaining := by
      rw [hroom, ← length_encode (hw.field_le m)]
      exact hm.trans (by decide)
    obtain ⟨s', hloop, hs'⟩ := hs₃.appendLoop_fit hw hfit accepts s.outBuf.position
    refine ⟨s', F + 2, ?_, hs'⟩
    intro fuel hfuel
    obtain ⟨d, rfl⟩ := Nat.exists_eq_add_of_le' hfuel
    unfold OutStream.write
    rw [show d + (F + 2) = d + F + 1 + 1 by omega]
    unfold appendLoop
    simp only [hw.writeTo_eq m, hemit, hback, orThrow, bind, Except.bind]
    rw [hflush _ (by omega)]
    exact hloop _ _

/-- The calls of a stream. -/
inductive Call (M : Type)
  | write (m : M)
  | flush

def call (accepts : ℕ → ℕ) (writeTo : M → ByteBuffer → ByteBuffer × Bool) (fuel : ℕ) (s : OutStream) :
    Call M → Except Stop OutStream
  | .write m => write accepts (writeTo m) fuel s
  | .flush => flush accepts fuel s

def run (accepts : ℕ → ℕ) (writeTo : M → ByteBuffer → ByteBuffer × Bool) (fuel : ℕ) (s : OutStream)
    (cs : List (Call M)) : Except Stop OutStream :=
  cs.foldlM (call accepts writeTo fuel) s

/-- The messages written by the calls. -/
def writtenMessages : List (Call M) → List M
  | [] => []
  | .write m :: cs => m :: writtenMessages cs
  | .flush :: cs => writtenMessages cs

theorem Took.call {bytes : List UInt8} (ha : Accepting accepts) (hw : Emits writeTo calls)
    (hs : s.Took bytes) (c : Call M)
    (hm : ∀ m ∈ writtenMessages [c], (encode (calls m)).length ≤ 65535) :
    ∃ s' F, (∀ fuel, F ≤ fuel → call accepts writeTo fuel s c = .ok s') ∧
      s'.Took (bytes ++ (writtenMessages [c]).flatMap fun m => encode (calls m)) := by
  cases c with
  | write m =>
    have hone : ((writtenMessages [Call.write m]).flatMap fun m => encode (calls m)) =
      encode (calls m) := by simp [writtenMessages]
    rw [hone]
    exact hs.write ha hw (hm m (List.mem_singleton_self m))
  | flush =>
    obtain ⟨s', F, hflush, hs', -⟩ := hs.flush ha
    refine ⟨s', F, hflush, ?_⟩
    simpa [writtenMessages] using hs'

theorem writtenMessages_cons (c : Call M) (cs : List (Call M)) :
    writtenMessages (c :: cs) = writtenMessages [c] ++ writtenMessages cs := by
  cases c <;> rfl

theorem Took.run {bytes : List UInt8} (ha : Accepting accepts) (hw : Emits writeTo calls)
    (hs : s.Took bytes) (cs : List (Call M))
    (hm : ∀ m ∈ writtenMessages cs, (encode (calls m)).length ≤ 65535) :
    ∃ s' F, (∀ fuel, F ≤ fuel → run accepts writeTo fuel s cs = .ok s') ∧
      s'.Took (bytes ++ (writtenMessages cs).flatMap fun m => encode (calls m)) := by
  induction cs generalizing s bytes with
  | nil =>
    refine ⟨s, 0, fun _ _ => rfl, ?_⟩
    simpa [writtenMessages] using hs
  | cons c cs ih =>
    rw [writtenMessages_cons] at hm ⊢
    simp only [List.mem_append] at hm
    obtain ⟨s₁, F, hcall, hs₁⟩ := hs.call ha hw c fun m h => hm m (.inl h)
    obtain ⟨s', F', hrun, hs'⟩ := ih hs₁ fun m h => hm m (.inr h)
    refine ⟨s', max F F', ?_, ?_⟩
    · intro fuel hfuel
      have hfirst := hcall fuel (by omega)
      have hrest := hrun fuel (by omega)
      unfold OutStream.run at hrest ⊢
      rw [List.foldlM_cons, hfirst]
      exact hrest
    · rw [List.flatMap_append, ← List.append_assoc]
      exact hs'

/-- **Writing.** For every run of `write` and `flush`, however the socket takes its bytes: each call
ends, and the bytes sent and then the bytes in the buffer are the encodings of the messages written, in
their order. -/
theorem run_sends (accepts : ℕ → ℕ) (ha : Accepting accepts)
    (writeTo : M → ByteBuffer → ByteBuffer × Bool) (calls : M → List WriteCall)
    (hw : Emits writeTo calls) (cs : List (Call M))
    (hm : ∀ m ∈ writtenMessages cs, (encode (calls m)).length ≤ 65535) :
    ∃ s F, (∀ fuel, F ≤ fuel → run accepts writeTo fuel start cs = .ok s) ∧
      s.sent ++ s.outBuf.before = (writtenMessages cs).flatMap fun m => encode (calls m) := by
  obtain ⟨s, F, hrun, hs⟩ := took_start.run ha hw cs hm
  exact ⟨s, F, hrun, hs.split⟩

/-- A `HELLO`, with its length not known yet. -/
def helloCalls : List WriteCall := [.writeByte 4, .writeByte 0, .writeShort 0, .writeInt 1]

theorem run_sends_hello :
    ∃ s F, (∀ fuel, F ≤ fuel →
        run (fun i => i % 2) (fun _ : Unit => emit helloCalls) fuel start
          [.write (), .flush, .write ()] = .ok s) ∧
      s.sent ++ s.outBuf.before =
        (writtenMessages [Call.write (), .flush, .write ()]).flatMap fun _ => encode helloCalls :=
  run_sends (fun i => i % 2)
    (fun i => ⟨2 * i + 1, by omega, by show 0 < (2 * i + 1) % 2; omega⟩)
    (fun _ => emit helloCalls) (fun _ => helloCalls) ⟨fun _ _ => rfl, fun _ => by decide⟩
    [.write (), .flush, .write ()] (fun _ _ => by decide)

end OutStream

end Torpedo
