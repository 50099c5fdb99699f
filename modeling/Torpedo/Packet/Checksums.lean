import Torpedo.Packet.Written

/-!
# Checksums

What the code computes completes a one's-complement sum to all ones if the sum of the words leaves
nothing to carry after one carry. So the checksums of an IPv4 packet that are not set verify, when it is
written, in exactly this case. It is written at all if its total length is a positive short.
-/

namespace Torpedo

open OnesComplement

/-! ## One checksum -/

/-- The checksum that is computed completes the sum if one carry is enough. -/
theorem Layout.fold_iff (l : Layout) (accumulation : UInt32) {k n : ℕ} (hfront : l.front.length % 2 = 0)
    (hk : l.front.length + 2 ≤ k) (hn : accumulation.toNat = n)
    (hlt : n + wordSum ((l.bytes 0).take k) < 4294967296) :
    fold (n + wordSum ((l.bytes (checksumOf 0 accumulation ((l.bytes 0).take k))).take k)) = 0xffff ↔
      carry (n + wordSum ((l.bytes 0).take k)) < 65536 := by
  have htake : ∀ c, (l.bytes c).take k =
      l.front ++ bytesOf 2 c.toNat ++ l.back.take (k - (l.front.length + 2)) := fun c => by
    unfold bytes
    rw [List.take_append, List.length_append, length_bytesOf, List.take_of_length_le]
    rwa [List.length_append, length_bytesOf]
  have hsum : (accumulation + .ofNat (wordSum ((l.bytes 0).take k))).toNat =
      n + wordSum ((l.bytes 0).take k) := by
    rw [UInt32.toNat_add, UInt32.toNat_ofNat', hn]
    omega
  have hseal : (checksumOf 0 accumulation ((l.bytes 0).take k)).toNat =
      65535 - carry (n + wordSum ((l.bytes 0).take k)) % 65536 := by
    unfold checksumOf
    rw [if_pos rfl, toNat_complement, hsum]
  rw [← fold_complement _ hlt, ← hseal, Nat.add_assoc]
  generalize checksumOf 0 accumulation ((l.bytes 0).take k) = c
  rw [htake, htake]
  rw [bytesOf_two, bytesOf_two, wordSum_word hfront c.toNat_lt]
  rfl

theorem Layout.fold_iff_all (l : Layout) (accumulation : UInt32) {n : ℕ}
    (hfront : l.front.length % 2 = 0) (hn : accumulation.toNat = n)
    (hlt : n + wordSum (l.bytes 0) < 4294967296) :
    fold (n + wordSum (l.bytes (checksumOf 0 accumulation (l.bytes 0)))) = 0xffff ↔
      carry (n + wordSum (l.bytes 0)) < 65536 := by
  have htake : ∀ c, (l.bytes c).take (l.bytes 0).length = l.bytes c := fun c =>
    List.take_of_length_le (by rw [l.length_bytes, l.length_bytes])
  have hk : l.front.length + 2 ≤ (l.bytes 0).length := by
    rw [l.length_bytes]
    omega
  have hiff := l.fold_iff accumulation hfront hk hn (by rwa [htake])
  rwa [htake, htake] at hiff

theorem wordSum_lt {bs : List UInt8} (h : bs.length < 32768) : wordSum bs < 1073741824 := by
  have := wordSum_le bs
  omega

namespace IPv4

/-! ## What is to verify -/

/-- The pseudo header of a segment. -/
def pseudoHeaderBytes (p : IPv4) (length : ℕ) : List UInt8 :=
  bytesOf 4 p.sourceAddress.toNat ++ bytesOf 4 p.destinationAddress.toNat ++ [0, p.protocol] ++
    bytesOf 2 length

/-- What the checksum in a segment covers, if there is one. -/
def covered (p : IPv4) (segment : List UInt8) : Option (List UInt8) :=
  match p.payload with
  | some (.icmp _) => some segment
  | some (.tcp _) | some (.udp _) => some (p.pseudoHeaderBytes segment.length ++ segment)
  | _ => none

/-- The sums of the header and of the segment fold to all ones. -/
structure Verifies (p : IPv4) (data : List UInt8) : Prop where
  header : fold (wordSum (data.take (p.headerLength.toNat * 4))) = 0xffff
  segment : ∀ bytes, p.covered (data.drop (p.headerLength.toNat * 4)) = some bytes →
    fold (wordSum bytes) = 0xffff

/-! ## When it does -/

namespace Payload

/-- There is no checksum yet. -/
def Unset : Payload → Prop
  | data _ => True
  | icmp packet => packet.checksum = 0
  | tcp packet => packet.checksum = 0
  | udp packet => packet.checksum = 0

/-- The bytes of the payload, before its checksum is computed. -/
def prepared : Payload → List UInt8
  | data packet => packet.serialize
  | icmp packet => packet.bytes
  | tcp packet => packet.setDataOffset.bytes
  | udp packet => packet.prepared.bytes

end Payload

/-- There are no checksums yet. -/
structure Unset (p : IPv4) : Prop where
  header : p.checksum = 0
  payload : ∀ payload, p.payload = some payload → payload.Unset

/-- One carry is enough for the sums of the header and of the segment, without their checksums. -/
structure CarriesOnce (p : IPv4) : Prop where
  header : carry (wordSum p.prepared.headerBytes) < 65536
  segment : ∀ payload, p.payload = some payload →
    ∀ bytes, p.prepared.covered payload.prepared = some bytes → carry (wordSum bytes) < 65536

/-! ## The pseudo header -/

theorem length_pseudoHeaderBytes (p : IPv4) (length : ℕ) :
    (p.pseudoHeaderBytes length).length = 12 := by
  simp [pseudoHeaderBytes, length_bytesOf]

theorem wordSum_address (n : UInt32) : wordSum (bytesOf 4 n.toNat) = carry n.toNat := by
  have hlt := n.toNat_lt
  have hdigit : ∀ {a b : ℕ}, a % 256 = b % 256 → UInt8.ofNat a = UInt8.ofNat b := fun h => by
    rw [← UInt8.toNat_inj, UInt8.toNat_ofNat', UInt8.toNat_ofNat']
    exact h
  have hsplit : bytesOf 4 n.toNat = shortBytes (n.toNat / 65536) ++ shortBytes (n.toNat % 65536) := by
    show [UInt8.ofNat (n.toNat / 256 / 256 / 256), .ofNat (n.toNat / 256 / 256),
      .ofNat (n.toNat / 256), .ofNat n.toNat] = [.ofNat (n.toNat / 65536 / 256),
      .ofNat (n.toNat / 65536), .ofNat (n.toNat % 65536 / 256), .ofNat (n.toNat % 65536)]
    rw [hdigit (show n.toNat / 256 / 256 / 256 % 256 = n.toNat / 65536 / 256 % 256 by omega),
      hdigit (show n.toNat / 256 / 256 % 256 = n.toNat / 65536 % 256 by omega),
      hdigit (show n.toNat / 256 % 256 = n.toNat % 65536 / 256 % 256 by omega),
      hdigit (show n.toNat % 256 = n.toNat % 65536 % 256 by omega)]
  have heven : (shortBytes (n.toNat / 65536)).length % 2 = 0 := by
    rw [← bytesOf_two, length_bytesOf]
  rw [hsplit, wordSum_append _ heven, wordSum_shortBytes (by omega), wordSum_shortBytes (by omega)]
  rfl

theorem toNat_pseudoHeader (p : IPv4) {length : ℕ} (hlength : length < 65536) :
    (pseudoHeader (some p) length).toNat = wordSum (p.pseudoHeaderBytes length) := by
  have hprotocol := p.protocol.toNat_lt
  have hsource : carry p.sourceAddress.toNat < 131072 := by
    have := p.sourceAddress.toNat_lt
    unfold carry
    omega
  have hdestination : carry p.destinationAddress.toNat < 131072 := by
    have := p.destinationAddress.toNat_lt
    unfold carry
    omega
  have hand : (UInt32.ofNat length &&& 0xffff).toNat = length := by
    rw [UInt32.toNat_and, UInt32.toNat_ofNat']
    refine (Nat.and_two_pow_sub_one_eq_mod _ 16).trans ?_
    omega
  unfold pseudoHeaderBytes
  rw [wordSum_append _ (by simp [length_bytesOf]), wordSum_append _ (by simp [length_bytesOf]),
    wordSum_append _ (by simp [length_bytesOf]), wordSum_address, wordSum_address, wordSum_cons_cons,
    wordSum_nil, bytesOf_two, wordSum_shortBytes hlength]
  unfold pseudoHeader
  dsimp only
  rw [UInt32.toNat_add, UInt32.toNat_add, UInt32.toNat_add, toNat_halves, toNat_halves, hand,
    UInt8.toNat_toUInt32]
  show _ = carry _ + carry _ + (0 * 256 + p.protocol.toNat + 0) + length
  omega

/-! ## The header -/

theorem checksum_prepared {p : IPv4} (h : p.checksum = 0) : p.prepared.checksum = 0 := by
  show p.withPayload.checksum = 0
  unfold withPayload
  match p.payload with
  | none => exact h
  | some (.data packet) => exact h
  | some (.icmp packet) => exact h
  | some (.tcp packet) => exact h
  | some (.udp packet) =>
    show ((if packet.isDhcp then p.resetChecksum else p).setProtocol protocolUdp).checksum = 0
    split_ifs
    · rfl
    · exact h

theorem headerLength_prepared {p : IPv4} (h : p.Fits) :
    p.prepared.headerLength.toNat * 4 = 20 + p.optionsSize := by
  have hoptions := h.options
  have hheader := h.header
  have hlength : p.prepared.headerLength = .ofNat (5 + p.optionsSize / 4) := by
    rw [← p.optionsSize_withPayload]
    rfl
  rw [hlength, UInt8.toNat_ofNat']
  omega

theorem header_iff {p : IPv4} (h : p.Fits) (hunset : p.checksum = 0) :
    fold (wordSum (p.prepared.sent.bytes.take (20 + p.optionsSize))) = 0xffff ↔
      carry (wordSum p.prepared.headerBytes) < 65536 := by
  have hzero := checksum_prepared hunset
  have hheader := h.header
  have hsize : p.prepared.optionsSize = p.optionsSize := p.optionsSize_withPayload
  have hfront := p.prepared.length_front p.prepared.body
  have hbytes : p.prepared.headerBytes =
      ((p.prepared.layout p.prepared.body).bytes 0).take (20 + p.optionsSize) := by
    unfold headerBytes bytes
    rw [hzero, hsize]
  have hsent : p.prepared.sent.bytes =
      (p.prepared.layout p.prepared.body).bytes (checksumOf 0 0 p.prepared.headerBytes) := by
    rw [← hzero]
    rfl
  have hlt : wordSum p.prepared.headerBytes < 1073741824 := by
    refine wordSum_lt ?_
    unfold headerBytes
    rw [List.length_take]
    omega
  have hiff := (p.prepared.layout p.prepared.body).fold_iff 0 (k := 20 + p.optionsSize)
    (by rw [hfront]) (by rw [hfront]; omega) rfl
  rw [← hbytes, ← hsent, UInt32.toNat_zero, Nat.zero_add, Nat.zero_add] at hiff
  exact hiff (by omega)

/-! ## The segment -/

theorem drop_bytes (p : IPv4) : p.bytes.drop (20 + p.optionsSize) = p.body := by
  have hsplit : p.bytes = ((p.layout p.body).front ++ bytesOf 2 p.checksum.toNat ++
      (bytesOf 4 p.sourceAddress.toNat ++ bytesOf 4 p.destinationAddress.toNat ++ p.options.getD [])) ++
      p.body := by
    unfold bytes Layout.bytes
    simp [layout]
  rw [hsplit, List.drop_left']
  simp only [List.length_append, length_front, length_bytesOf]
  unfold optionsSize
  omega

/-- A segment behind a pseudo header, or behind nothing. -/
theorem sealed_iff (l : Layout) (accumulation : UInt32) (pseudo : List UInt8)
    (hfront : l.front.length % 2 = 0) (hlt : (l.bytes 0).length < 32768)
    (heven : pseudo.length % 2 = 0) (hle : pseudo.length ≤ 12) (hsum : accumulation.toNat = wordSum pseudo) :
    fold (wordSum (pseudo ++ l.bytes (checksumOf 0 accumulation (l.bytes 0)))) = 0xffff ↔
      carry (wordSum (pseudo ++ l.bytes 0)) < 65536 := by
  have hpseudo : wordSum pseudo < 1073741824 := wordSum_lt (by omega)
  have hsegment := wordSum_lt hlt
  rw [wordSum_append _ heven, wordSum_append _ heven]
  exact l.fold_iff_all _ hfront hsum (by omega)

theorem pseudo_iff (p : IPv4) (l : Layout) (hfront : l.front.length % 2 = 0)
    (hlt : (l.bytes 0).length < 32768) {c : UInt16}
    (hc : c = checksumOf 0 (pseudoHeader (some p) (l.bytes 0).length) (l.bytes 0)) :
    fold (wordSum (p.pseudoHeaderBytes (l.bytes c).length ++ l.bytes c)) = 0xffff ↔
      carry (wordSum (p.pseudoHeaderBytes (l.bytes 0).length ++ l.bytes 0)) < 65536 := by
  have hlen : (l.bytes c).length = (l.bytes 0).length := by rw [l.length_bytes, l.length_bytes]
  rw [hlen, hc]
  refine sealed_iff l _ _ hfront hlt ?_ (p.length_pseudoHeaderBytes _).le (p.toNat_pseudoHeader (by omega))
  rw [length_pseudoHeaderBytes]

theorem icmp_iff {packet : ICMP} (hunset : packet.checksum = 0) (hlt : packet.bytes.length < 32768) :
    fold (wordSum packet.sent.bytes) = 0xffff ↔ carry (wordSum packet.bytes) < 65536 := by
  unfold ICMP.sent
  rw [hunset]
  unfold ICMP.bytes at *
  rw [hunset] at hlt ⊢
  exact sealed_iff (packet.layout (dataBytes packet.payload)) 0 [] (by simp [ICMP.layout]) hlt rfl
    (Nat.zero_le _) rfl

theorem tcp_iff {packet : TCP} {parent : IPv4} (hunset : packet.checksum = 0)
    (hlt : packet.bytes.length < 32768) :
    fold (wordSum (parent.pseudoHeaderBytes (packet.sent (some parent)).bytes.length ++
        (packet.sent (some parent)).bytes)) = 0xffff ↔
      carry (wordSum (parent.pseudoHeaderBytes packet.bytes.length ++ packet.bytes)) < 65536 := by
  unfold TCP.sent
  rw [hunset]
  unfold TCP.bytes at *
  rw [hunset] at hlt ⊢
  exact parent.pseudo_iff (packet.layout (dataBytes packet.payload)) (by rw [packet.length_front]) hlt rfl

theorem udp_iff {packet : UDP} {parent : IPv4} (hunset : packet.checksum = 0)
    (hlt : packet.bytes.length < 32768) :
    fold (wordSum (parent.pseudoHeaderBytes (packet.sent (some parent)).bytes.length ++
        (packet.sent (some parent)).bytes)) = 0xffff ↔
      carry (wordSum (parent.pseudoHeaderBytes packet.bytes.length ++ packet.bytes)) < 65536 := by
  unfold UDP.sent
  rw [hunset]
  unfold UDP.bytes at *
  rw [hunset] at hlt ⊢
  exact parent.pseudo_iff (packet.layout packet.body) (by simp [UDP.layout, length_bytesOf]) hlt rfl

theorem forall_some {α : Type} {P : α → Prop} {a : α} : (∀ b, some a = some b → P b) ↔ P a := by simp

theorem segment_iff {p : IPv4} {payload : Payload} (hpayload : p.payload = some payload)
    (hunset : payload.Unset) (hlt : payload.prepared.length < 32768) :
    (∀ bytes, p.prepared.covered (payload.sent p).bytes = some bytes → fold (wordSum bytes) = 0xffff) ↔
      ∀ bytes, p.prepared.covered payload.prepared = some bytes → carry (wordSum bytes) < 65536 := by
  have hprepared : p.prepared =
      { payload.parent p with payload := some (payload.sent p) }.setLengths p.withPayload.body.length := by
    unfold prepared withPayload
    rw [hpayload]
  rw [hprepared]
  cases payload with
  | data packet => exact ⟨fun _ _ => nofun, fun _ _ => nofun⟩
  | icmp packet =>
    show (∀ bytes, some packet.sent.bytes = some bytes → _) ↔ ∀ bytes, some packet.bytes = some bytes → _
    rw [forall_some, forall_some]
    exact icmp_iff hunset hlt
  | tcp packet =>
    refine forall_some.trans (Iff.trans ?_ forall_some.symm)
    exact tcp_iff hunset hlt
  | udp packet =>
    refine forall_some.trans (Iff.trans ?_ forall_some.symm)
    have hzero : packet.prepared.checksum = 0 := by
      show (if packet.isDhcp then 0 else packet.checksum) = 0
      split_ifs
      · rfl
      · exact hunset
    have hparent : packet.preparedParent (some p) = some ((Payload.udp packet).parent p) := by
      show packet.preparedParent (some p) =
        some ((if packet.isDhcp then p.resetChecksum else p).setProtocol protocolUdp)
      unfold UDP.preparedParent
      split_ifs <;> rfl
    unfold Payload.sent
    dsimp only
    rw [hparent]
    exact udp_iff hzero hlt

theorem length_sent {p : IPv4} {payload : Payload} :
    (payload.sent p).bytes.length = payload.prepared.length := by
  cases payload with
  | data packet => rfl
  | icmp packet =>
    show packet.sent.bytes.length = packet.bytes.length
    rw [ICMP.length_bytes, ICMP.length_bytes]
    rfl
  | tcp packet =>
    show (packet.setDataOffset.sent _).bytes.length = packet.setDataOffset.bytes.length
    rw [TCP.length_bytes, TCP.length_bytes]
    rfl
  | udp packet =>
    show (packet.prepared.sent _).bytes.length = packet.prepared.bytes.length
    rw [UDP.length_bytes, UDP.length_bytes]
    rfl

theorem body_withPayload {p : IPv4} {payload : Payload} (hpayload : p.payload = some payload) :
    p.withPayload.body = (payload.sent p).bytes := by
  unfold withPayload
  rw [hpayload]
  rfl

theorem covered_none {p : IPv4} (hpayload : p.payload = none) (segment : List UInt8) :
    p.prepared.covered segment = none := by
  have hprepared : p.prepared.payload = none := by
    show p.withPayload.payload = none
    unfold withPayload
    rw [hpayload]
    exact hpayload
  unfold covered
  rw [hprepared]

theorem verifies_iff {p : IPv4} (hfits : p.Fits) (hunset : p.Unset) :
    p.prepared.sent.Verifies p.prepared.sent.bytes ↔ p.CarriesOnce := by
  have hlength : p.prepared.sent.headerLength.toNat * 4 = 20 + p.optionsSize :=
    headerLength_prepared hfits
  have hdrop : p.prepared.sent.bytes.drop (20 + p.optionsSize) = p.withPayload.body := by
    rw [← p.optionsSize_withPayload]
    exact p.prepared.sent.drop_bytes
  have hheader := header_iff hfits hunset.header
  have hsegment : ∀ payload, p.payload = some payload →
      ((∀ bytes, p.prepared.covered p.withPayload.body = some bytes → fold (wordSum bytes) = 0xffff) ↔
        ∀ bytes, p.prepared.covered payload.prepared = some bytes → carry (wordSum bytes) < 65536) := by
    intro payload hpayload
    have hlt := hfits.lt
    rw [body_withPayload hpayload] at hlt ⊢
    rw [length_sent] at hlt
    exact segment_iff hpayload (hunset.payload payload hpayload) (by omega)
  constructor
  · rintro ⟨hfold, hfolds⟩
    rw [hlength] at hfold hfolds
    rw [hdrop] at hfolds
    exact ⟨hheader.1 hfold, fun payload hpayload => (hsegment payload hpayload).1 hfolds⟩
  · rintro ⟨honce, honces⟩
    constructor
    · rw [hlength]
      exact hheader.2 honce
    · rw [hlength, hdrop]
      cases hpayload : p.payload with
      | none =>
        intro bytes hbytes
        exact nomatch (covered_none hpayload _).symm.trans hbytes
      | some payload => exact (hsegment payload hpayload).2 (honces payload hpayload)

/-- When the packet is written, and its checksums verify. -/
theorem serialize_verifies_iff (p : IPv4) (hunset : p.Unset) :
    (∃ data q, p.serialize = .ok (data, q) ∧ q.Verifies data) ↔ p.Fits ∧ p.CarriesOnce := by
  by_cases hfits : p.Fits
  · rw [serialize_eq hfits]
    constructor
    · rintro ⟨data, q, hq, hverifies⟩
      cases hq
      exact ⟨hfits, (verifies_iff hfits hunset).1 hverifies⟩
    · rintro ⟨-, honce⟩
      exact ⟨_, _, rfl, (verifies_iff hfits hunset).2 honce⟩
  · rw [serialize_error hfits]
    constructor
    · rintro ⟨data, q, hq, -⟩
      exact nomatch hq
    · rintro ⟨hfits', -⟩
      exact absurd hfits' hfits

/-- An echo request without data. -/
def echoRequest (identification : UInt16) : IPv4 where
  version := 4
  headerLength := 0
  diffServ := 0
  totalLength := 0
  identification
  flags := 0
  fragmentOffset := 0
  ttl := 64
  protocol := protocolIcmp
  checksum := 0
  sourceAddress := 0xc0a80001
  destinationAddress := 0xc0a80002
  options := none
  isTruncated := false
  payload := some (.icmp ⟨8, 0, 0, none⟩)

theorem unset_echoRequest (identification : UInt16) : (echoRequest identification).Unset := by
  refine ⟨rfl, ?_⟩
  rintro payload ⟨⟩
  rfl

theorem fits_echoRequest (identification : UInt16) : (echoRequest identification).Fits := by
  refine ⟨?_, rfl, ?_, ?_⟩
  · rintro payload ⟨⟩
    trivial
  · show 0 < 492
    decide
  · show 20 + 0 + 4 < 32768
    decide

theorem serialize_verifies_echoRequest :
    ∃ data q, (echoRequest 1).serialize = .ok (data, q) ∧ q.Verifies data := by
  refine (serialize_verifies_iff (echoRequest 1) (unset_echoRequest 1)).2 ⟨fits_echoRequest 1, ?_, ?_⟩
  · decide
  · rintro payload ⟨⟩ bytes ⟨⟩
    decide

/-- The words of this header have the sum 0x2ffff, which leaves 0x10001 after one carry. -/
theorem not_serialize_verifies : ¬∀ p : IPv4, p.Unset →
    ∀ data q, p.serialize = .ok (data, q) → q.Verifies data := by
  intro hall
  have hverifies := hall (echoRequest 0xf993) (unset_echoRequest _) _ _
    (serialize_eq (fits_echoRequest _))
  have honce := (verifies_iff (fits_echoRequest _) (unset_echoRequest _)).1 hverifies
  exact absurd honce.header (by decide)

end IPv4

end Torpedo
