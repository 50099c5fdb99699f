import Mathlib.Data.List.Forall2
import Torpedo.Stream.Reading
import Torpedo.Stream.Writing
import Torpedo.Util.Decoder
import Torpedo.Util.Encoder

/-!
# The two ends of a connection

What is written at one end of a connection goes through the buffer there, the socket, and the buffer at the other
end. However the calls at the two ends interleave, whatever portions the sockets take and give and wherever these
split the messages: the messages returned at the other end are the messages written, in their order, none of them
twice and none left out. A flush and then reads enough bring all of them.
-/

namespace Torpedo

/-- What the writer has sent and the reader has not taken out of the socket is arriving. -/
structure Wire (N : Type) where
  writer : OutStream
  reader : Session N

namespace Wire

/-- A call at one of the ends. -/
inductive Event (M : Type)
  | call (c : OutStream.Call M)
  | read (call : ReadCall)

section Run

variable {M N : Type}

def start : Wire N := ⟨.start, .start []⟩

/-- The bytes that a call has sent go to the other end. -/
def sends (w : Wire N) (writer : OutStream) : Wire N :=
  ⟨writer, { w.reader with arriving := w.reader.arriving ++ writer.sent.drop w.writer.sent.length }⟩

variable (accepts : ℕ → ℕ) (writeTo : M → ByteBuffer → ByteBuffer × Bool) (reader : Reader N) (fuel : ℕ)

def step (w : Wire N) : Event M → Except Stop (Wire N)
  | .call c => do
    let writer ← w.writer.call accepts writeTo fuel c
    return w.sends writer
  | .read call => do
    let s ← w.reader.read reader call
    return ⟨w.writer, s⟩

def run (w : Wire N) (es : List (Event M)) : Except Stop (Wire N) := es.foldlM (step accepts writeTo reader fuel) w

end Run

/-- The messages written in a run. -/
def messages {M : Type} : List (Event M) → List M
  | [] => []
  | .call c :: es => OutStream.writtenMessages [c] ++ messages es
  | .read _ :: es => messages es

/-- The messages returned are those that the reader reads from the encodings of the messages written. -/
def Delivered {M N : Type} (reader : Reader N) (calls : M → List WriteCall) (ms : List M) (ns : List N) : Prop :=
  List.Forall₂ (fun m n => reader (encode (calls m)) = some (some n)) ms ns

end Wire

/-! ## What is sent stays sent -/

namespace OutStream

variable {accepts : ℕ → ℕ} {fuel : ℕ} {s s' : OutStream}

theorem prefix_of_send (h : send accepts fuel s = .ok s') : s.sent <+: s'.sent := by
  induction fuel generalizing s with
  | zero => cases h
  | succ fuel ih =>
    obtain ⟨b, -, h⟩ := of_bind_eq_ok h
    have hfirst : s.sent <+: s.sent ++ b.1 := List.prefix_append ..
    by_cases hrest : 0 < b.2.remaining
    · simp only [hrest, if_true] at h
      exact hfirst.trans (ih h)
    · simp only [hrest, if_false] at h
      cases h
      exact hfirst

theorem prefix_of_flush (h : flush accepts fuel s = .ok s') : s.sent <+: s'.sent := by
  obtain ⟨s₁, hsend, h⟩ := of_bind_eq_ok h
  cases h
  have hsent := prefix_of_send hsend
  exact hsent

theorem prefix_of_appendLoop {writeTo : ByteBuffer → ByteBuffer × Bool} {writerIndex rounds : ℕ}
    (h : appendLoop accepts writeTo writerIndex fuel rounds s = .ok s') : s.sent <+: s'.sent := by
  induction rounds generalizing s with
  | zero => cases h
  | succ rounds ih =>
    unfold appendLoop at h
    rcases hw : writeTo s.outBuf with ⟨outBuf, _ | _⟩
    · rw [hw] at h
      cases h
      exact List.prefix_rfl
    · rw [hw] at h
      obtain ⟨b, -, h⟩ := of_bind_eq_ok h
      obtain ⟨s₁, hflush, h⟩ := of_bind_eq_ok h
      exact (prefix_of_flush hflush).trans (ih h)

theorem prefix_of_call {M : Type} {writeTo : M → ByteBuffer → ByteBuffer × Bool} {c : Call M}
    (h : call accepts writeTo fuel s c = .ok s') : s.sent <+: s'.sent := by
  cases c with
  | write m => exact prefix_of_appendLoop h
  | flush => exact prefix_of_flush h

/-- The bytes that a call sends come first among those in the buffer and those taken. -/
theorem Took.sends {bytes new : List UInt8} (hs : s.Took bytes) (hs' : s'.Took (bytes ++ new))
    (hsent : s.sent <+: s'.sent) :
    s'.sent.drop s.sent.length ++ s'.outBuf.before = s.outBuf.before ++ new := by
  obtain ⟨more, hmore⟩ := hsent
  have hsplit := hs'.split
  rw [← hs.split, ← hmore, List.append_assoc, List.append_assoc] at hsplit
  rw [← hmore, List.drop_left]
  exact List.append_cancel_left hsplit

end OutStream

/-! ## The reader beside a writer -/

namespace Session

variable {N : Type} {reader : Reader N} {parse : Frame → N} {frames : List Frame} {s s' : Session N}

/-- More bytes are on their way. -/
def followed (s : Session N) (more : List UInt8) : Session N := { s with arriving := s.arriving ++ more }

theorem Reads.followed (hs : s.Reads parse frames) (frames' : List Frame) :
    (s.followed (streamBytes frames')).Reads parse (frames ++ frames') where
  capacity := hs.capacity
  limit := hs.limit
  room := hs.room
  split := by
    obtain ⟨done, rest, hframes, hreturned, hbytes⟩ := hs.split
    refine ⟨done, rest ++ frames', ?_, hreturned, ?_⟩
    · rw [hframes, List.append_assoc]
    · rw [streamBytes_append, ← hbytes, List.append_assoc]
      rfl

theorem arriving_of_read {call : ReadCall} (h : s.read reader call = .ok s') :
    s'.arriving = s.arriving.drop (min call.ready s.inBuf.remaining) := by
  obtain ⟨r, -, h⟩ := of_bind_eq_ok h
  cases h
  rfl

/-- Bytes that have not arrived make no difference to a read. -/
theorem read_of_followed {call : ReadCall} {more : List UInt8}
    (h : (s.followed more).read reader ⟨min call.ready s.arriving.length, call.limit⟩ = .ok s') :
    ∃ s'', s.read reader call = .ok s'' ∧ s' = s''.followed more := by
  obtain ⟨r, hread, h⟩ := of_bind_eq_ok h
  have hready : (s.arriving ++ more).take (min call.ready s.arriving.length) = s.arriving.take call.ready := by
    rw [List.take_append_of_le_length (Nat.min_le_right ..), ← List.take_take, List.take_length]
  replace hread : Torpedo.read reader call.limit s.inBuf (s.arriving.take call.ready) = .ok r := by
    rw [← hready]
    exact hread
  refine ⟨⟨r.2, s.arriving.drop (min call.ready s.inBuf.remaining), s.returned ++ r.1⟩, ?_, ?_⟩
  · unfold Session.read
    rw [hread]
    rfl
  · cases h
    have hdrop : (s.arriving ++ more).drop (min (min call.ready s.arriving.length) s.inBuf.remaining) =
        s.arriving.drop (min call.ready s.inBuf.remaining) ++ more := by
      rw [List.drop_append_of_le_length (by omega)]
      congr 1
      by_cases hle : min call.ready s.inBuf.remaining ≤ s.arriving.length
      · congr 1
        omega
      · rw [List.drop_of_length_le (by omega), List.drop_of_length_le (by omega)]
    exact congrArg (fun arriving => (⟨r.2, arriving, s.returned ++ r.1⟩ : Session N)) hdrop

end Session

/-! ## Runs -/

namespace Wire

variable {M N : Type} {accepts : ℕ → ℕ} {writeTo : M → ByteBuffer → ByteBuffer × Bool} {reader : Reader N}
  {calls : M → List WriteCall} {parse : Frame → N} {ms ms' : List M} {frames frames' : List Frame} {w : Wire N}

/-- The frames are the encodings of the messages. -/
def Framed (calls : M → List WriteCall) (ms : List M) (frames : List Frame) : Prop :=
  List.Forall₂ (fun m frame => frame.bytes = encode (calls m)) ms frames

theorem bigEndian_shortBytes {n : ℕ} (h : n ≤ 65535) : bigEndian (shortBytes n) = n := by
  unfold bigEndian shortBytes
  simp only [List.foldl_cons, List.foldl_nil, UInt8.toNat_ofNat']
  omega

/-- The encoding of a message has its length in the length field. -/
theorem length_eq_encode {cs : List WriteCall} (hmin : 4 ≤ (written cs).length)
    (hmax : (encode cs).length ≤ 65535) :
    bigEndian (((encode cs).drop 2).take 2) = (encode cs).length := by
  rw [length_encode hmin] at hmax ⊢
  have htwo : ((written cs).take 2).length = 2 := by
    rw [List.length_take]
    omega
  have hfield : ((encode cs).drop 2).take 2 = shortBytes (written cs).length := by
    unfold encode
    rw [List.append_assoc, List.drop_append_of_le_length (by omega), List.drop_of_length_le (by omega)]
    rfl
  rw [hfield, bigEndian_shortBytes hmax]

/-- What the two ends rely on about the messages: they write themselves by calls of the buffer, they are as long as
a header at least, and what the reader makes of the bytes of a message does not depend on what follows. -/
structure Speaks (writeTo : M → ByteBuffer → ByteBuffer × Bool) (calls : M → List WriteCall) (reader : Reader N)
    (parse : Frame → N) : Prop where
  emits : OutStream.Emits writeTo calls
  header_le : ∀ m, OFHeader.minimumLength ≤ (written (calls m)).length
  parses : Parses reader parse

theorem Speaks.exists_framed (h : Speaks writeTo calls reader parse)
    (hmax : ∀ m ∈ ms, (encode (calls m)).length ≤ 65535) : ∃ frames, Framed calls ms frames := by
  induction ms with
  | nil => exact ⟨[], .nil⟩
  | cons m ms ih =>
    rw [List.forall_mem_cons] at hmax
    obtain ⟨frames, hframes⟩ := ih hmax.2
    have hlength := length_encode (h.emits.field_le m)
    exact ⟨⟨encode (calls m), by rw [hlength]; exact h.header_le m, hmax.1,
      length_eq_encode (h.emits.field_le m) hmax.1⟩ :: frames, .cons rfl hframes⟩

theorem Framed.streamBytes_eq (h : Framed calls ms frames) :
    streamBytes frames = ms.flatMap fun m => encode (calls m) := by
  induction h with
  | nil => rfl
  | cons heq _ ih => rw [streamBytes_cons, List.flatMap_cons, heq, ih]

theorem Framed.append (h : Framed calls ms frames) (h' : Framed calls ms' frames') :
    Framed calls (ms ++ ms') (frames ++ frames') := List.rel_append h h'

theorem Speaks.delivered (h : Speaks writeTo calls reader parse) (hf : Framed calls ms frames) :
    Delivered reader calls ms (frames.map parse) := by
  unfold Delivered
  rw [List.forall₂_map_right_iff]
  refine hf.imp fun m frame heq => ?_
  rw [← heq, ← h.parses frame [], List.append_nil]

/-- The messages have been written, and what has not been returned of them is in the buffers and between the
ends. -/
def Carries (calls : M → List WriteCall) (parse : Frame → N) (ms : List M) (w : Wire N) : Prop :=
  ∃ frames, Framed calls ms frames ∧ w.writer.Took (streamBytes frames) ∧
    (w.reader.followed w.writer.outBuf.before).Reads parse frames

theorem Carries.returned (h : Speaks writeTo calls reader parse) (hw : w.Carries calls parse ms) :
    ∃ done rest, ms = done ++ rest ∧ Delivered reader calls done w.reader.returned := by
  obtain ⟨frames, hframed, -, hreads⟩ := hw
  obtain ⟨done, rest, hframes, hreturned, -⟩ := hreads.split
  refine ⟨ms.take done.length, ms.drop done.length, (List.take_append_drop ..).symm, ?_⟩
  have hdone : Framed calls (ms.take done.length) done := by
    have htake := List.forall₂_take done.length hframed
    rwa [hframes, List.take_left] at htake
  have hreturned : w.reader.returned = done.map parse := hreturned
  rw [hreturned]
  exact h.delivered hdone

/-! ### Calls at the end that writes -/

/-- After a call of the writer, what it has sent is arriving, and what is left of the messages is in its buffer. -/
theorem Carries.call (h : Speaks writeTo calls reader parse) (ha : Accepting accepts)
    (hw : w.Carries calls parse ms) (c : OutStream.Call M)
    (hmax : ∀ m ∈ OutStream.writtenMessages [c], (encode (calls m)).length ≤ 65535) :
    ∃ writer F, (∀ fuel, F ≤ fuel → step accepts writeTo reader fuel w (.call c) = .ok (w.sends writer)) ∧
      (w.sends writer).Carries calls parse (ms ++ OutStream.writtenMessages [c]) := by
  obtain ⟨frames, hframed, htook, hreads⟩ := hw
  obtain ⟨frames', hframed'⟩ := h.exists_framed hmax
  obtain ⟨writer, F, hcall, htook'⟩ := htook.call ha h.emits c hmax
  refine ⟨writer, F, fun fuel hfuel => ?_, frames ++ frames', hframed.append hframed', ?_, ?_⟩
  · simp only [step, hcall fuel hfuel]
    rfl
  · rw [streamBytes_append, hframed'.streamBytes_eq]
    exact htook'
  · have hbytes := htook.sends htook' (OutStream.prefix_of_call (hcall F le_rfl))
    rw [← hframed'.streamBytes_eq] at hbytes
    have hnext := hreads.followed frames'
    have heq : (w.sends writer).reader.followed writer.outBuf.before =
        (w.reader.followed w.writer.outBuf.before).followed (streamBytes frames') := by
      unfold Session.followed Wire.sends
      simp only [List.append_assoc, hbytes]
    exact heq ▸ hnext

/-! ### Calls at the end that reads -/

theorem Carries.read (h : Speaks writeTo calls reader parse) (hw : w.Carries calls parse ms) (call : ReadCall) :
    ∃ s, w.reader.read reader call = .ok s ∧ (⟨w.writer, s⟩ : Wire N).Carries calls parse ms ∧
      (call.limit = 0 → s.arriving = [] → w.writer.outBuf.before = [] → Delivered reader calls ms s.returned) := by
  obtain ⟨frames, hframed, htook, hreads⟩ := hw
  obtain ⟨s', hread, hreads', hall⟩ := hreads.read h.parses ⟨min call.ready w.reader.arriving.length, call.limit⟩
  obtain ⟨s, hs, rfl⟩ := Session.read_of_followed hread
  refine ⟨s, hs, ⟨frames, hframed, htook, hreads'⟩, fun hlimit hnone hempty => ?_⟩
  have harriving : (s.followed w.writer.outBuf.before).arriving = [] := by
    unfold Session.followed
    rw [hnone, hempty, List.append_nil]
  have hreturned : s.returned = frames.map parse := hall hlimit harriving
  rw [hreturned]
  exact h.delivered hframed

/-- Reads take the bytes that are arriving, one of them at least for each read. After enough of them, all messages
are returned. -/
theorem Carries.reads (h : Speaks writeTo calls reader parse) (hw : w.Carries calls parse ms)
    (hempty : w.writer.outBuf.before = []) {rs : List ReadCall} (hrs : ∀ r ∈ rs, 0 < r.ready ∧ r.limit = 0)
    (hmany : w.reader.arriving.length < rs.length) (accepts : ℕ → ℕ) :
    ∃ w', (∀ fuel, run accepts writeTo reader fuel w (rs.map .read) = .ok w') ∧
      Delivered reader calls ms w'.reader.returned := by
  induction rs generalizing w with
  | nil => exact absurd hmany (Nat.not_lt_zero _)
  | cons r rs ih =>
    rw [List.forall_mem_cons] at hrs
    obtain ⟨s, hs, hw', hall⟩ := hw.read h r
    have hstep : ∀ fuel, step accepts writeTo reader fuel w (.read r) = .ok ⟨w.writer, s⟩ := fun fuel => by
      simp only [step, hs]
      rfl
    have hroom : 0 < w.reader.inBuf.remaining := by
      obtain ⟨frames, -, -, hreads⟩ := hw
      exact hreads.room
    have harriving := Session.arriving_of_read hs
    have hlength := congrArg List.length harriving
    rw [List.length_drop] at hlength
    rw [List.length_cons] at hmany
    cases rs with
    | nil =>
      refine ⟨⟨w.writer, s⟩, fun fuel => ?_, ?_⟩
      · unfold run
        rw [List.map_cons, List.foldlM_cons, hstep]
        rfl
      · refine hall hrs.1.2 (List.eq_nil_of_length_eq_zero ?_) hempty
        rw [List.length_nil] at hmany
        omega
    | cons r' rs =>
      have hpos := hrs.1.1
      rw [List.length_cons] at hmany
      obtain ⟨w', hrun, hdelivered⟩ := ih hw' hempty hrs.2 (by
        show s.arriving.length < _
        rw [List.length_cons]
        omega)
      refine ⟨w', fun fuel => ?_, hdelivered⟩
      have hrun := hrun fuel
      unfold run at hrun ⊢
      rw [List.map_cons, List.foldlM_cons, hstep]
      exact hrun

theorem messages_cons (e : Event M) (es : List (Event M)) : messages (e :: es) = messages [e] ++ messages es := by
  cases e with
  | call c => simp [messages]
  | read call => rfl

theorem Carries.run (h : Speaks writeTo calls reader parse) (ha : Accepting accepts) (hw : w.Carries calls parse ms)
    (es : List (Event M)) (hmax : ∀ m ∈ messages es, (encode (calls m)).length ≤ 65535) :
    ∃ w' F, (∀ fuel, F ≤ fuel → run accepts writeTo reader fuel w es = .ok w') ∧
      w'.Carries calls parse (ms ++ messages es) := by
  induction es generalizing w ms with
  | nil => exact ⟨w, 0, fun _ _ => rfl, by rwa [messages, List.append_nil]⟩
  | cons e es ih =>
    rw [messages_cons] at hmax ⊢
    simp only [List.mem_append] at hmax
    have hstep : ∃ w₁ F, (∀ fuel, F ≤ fuel → step accepts writeTo reader fuel w e = .ok w₁) ∧
        w₁.Carries calls parse (ms ++ messages [e]) := by
      cases e with
      | call c =>
        have hone : messages [Event.call c] = OutStream.writtenMessages [c] := List.append_nil _
        obtain ⟨writer, F, hcall, hw'⟩ := hw.call h ha c fun m hm => hmax m (.inl (by rw [hone]; exact hm))
        exact ⟨w.sends writer, F, hcall, by rwa [hone]⟩
      | read call =>
        obtain ⟨s, hs, hw', -⟩ := hw.read h call
        refine ⟨⟨w.writer, s⟩, 0, fun fuel _ => ?_, ?_⟩
        · simp only [step, hs]
          rfl
        · rwa [show messages [Event.read (M := M) call] = [] from rfl, List.append_nil]
    obtain ⟨w₁, F, hfirst, hw₁⟩ := hstep
    obtain ⟨w', F', hrest, hw'⟩ := ih hw₁ fun m hm => hmax m (.inr hm)
    refine ⟨w', max F F', fun fuel hfuel => ?_, by rwa [← List.append_assoc]⟩
    have hrest := hrest fuel (by omega)
    unfold Wire.run at hrest ⊢
    rw [List.foldlM_cons, hfirst fuel (by omega)]
    exact hrest

theorem run_append (w : Wire N) (es es' : List (Event M)) (fuel : ℕ) :
    run accepts writeTo reader fuel w (es ++ es') =
      run accepts writeTo reader fuel w es >>= fun w => run accepts writeTo reader fuel w es' := List.foldlM_append

end Wire

end Torpedo
